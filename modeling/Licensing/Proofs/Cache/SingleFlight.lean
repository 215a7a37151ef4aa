import Licensing.Proofs.Cache.Locks

/-!
# Single flight

At any time at most one request about an organization is out, however its callers come, go and
are cancelled. The table of flights and the locks are right about the callers in every state
that can be reached (`coherent_of_run`), so the callers with a ticket for one organization share
one lock, and only its holder can have a request out (`single_flight`).
-/

namespace Licensing.Cache.Machine

variable {m m' : Machine} {es : List Event} {e : Event} {i j k l : Nat} {a b c : Caller}

/-! ### The invariant of all runs -/

/-- The table of flights and the locks are right about the callers. -/
structure Coherent (m : Machine) : Prop where
  /-- The table of flights is. -/
  ticketed : Ticketed m
  /-- The locks are. -/
  locked : Locked m

theorem coherent_start (cfg : Config) : Coherent (start cfg) :=
  ⟨ticketed_start cfg, locked_start cfg⟩

theorem Coherent.step (h : Coherent m) (hs : Step m e m') : Coherent m' :=
  ⟨h.ticketed.step hs, h.locked.step h.ticketed hs⟩

theorem Coherent.run (h : Coherent m) (hr : m.run es = some m') : Coherent m' :=
  run_induction (P := fun _ m ↦ Coherent m) h (fun _ _ _ _ _ ih hs ↦ ih.step hs) hr

theorem coherent_of_run {cfg : Config} (h : (start cfg).run es = some m) : Coherent m :=
  (coherent_start cfg).run h

/-! ### The lock of a flight -/

/-- The lock that a ticket is for has been made. -/
theorem Coherent.exists_lock (h : Coherent m) (hc : m.callers[k]? = some c)
    (hl : c.phase.ticket? = some l) :
    m.flightLock? c.org = some l ∧ ∃ lock, m.locks[l]? = some lock := by
  have hflight := h.ticketed.ticket k c l hc hl
  exact ⟨hflight, _, List.getElem?_eq_getElem (h.ticketed.lock_lt _ _ hflight)⟩

/-- **One holder.** Callers for one organization cannot both hold their lock, for both would hold
the lock of its one flight. -/
theorem Coherent.holder_unique {l' : Nat} (h : Coherent m) (ha : m.callers[i]? = some a)
    (hb : m.callers[j]? = some b) (horg : a.org = b.org) (hla : a.phase.held? = some l)
    (hlb : b.phase.held? = some l') : i = j := by
  obtain ⟨hfa, lock, hlock⟩ := h.exists_lock ha (Phase.ticket?_of_held? hla)
  obtain ⟨hfb, -⟩ := h.exists_lock hb (Phase.ticket?_of_held? hlb)
  rw [← horg, hfa] at hfb
  obtain rfl := Option.some.inj hfb
  have hi := ((h.locked l lock hlock).holder i).2 (by rw [held?_eq ha, hla])
  have hj := ((h.locked l lock hlock).holder j).2 (by rw [held?_eq hb, hlb])
  exact Option.some.inj (hi.symm.trans hj)

/-- A caller whose request is out holds its lock. -/
theorem held?_of_isFetching {p : Phase} (h : p.isFetching = true) : ∃ l, p.held? = some l := by
  cases p with
  | fetching l => exact ⟨l, rfl⟩
  | _ => exact absurd h (by simp [Phase.isFetching])

/-- A caller that holds a lock can go on by itself, or its request can come back. -/
theorem exists_step_of_held? (hc : m.callers[k]? = some c) (hl : c.phase.held? = some l) :
    ∃ mv next, m.step (.move k mv) = some next := by
  cases hp : c.phase with
  | holding seen lock =>
    exact ⟨.cancel, _, step_of_rule (.abandon hc hp)⟩
  | cleared lock => exact ⟨.fetch, _, step_of_rule (.send hc hp)⟩
  | fetching lock => exact ⟨.cancel, _, step_of_rule (.lose hc hp)⟩
  | releasing lock answer => exact ⟨.unlock, _, step_of_rule (step_unlock hc hp)⟩
  | _ =>
    rw [hp] at hl
    exact absurd hl (by simp [Phase.held?])

/-! ### The main statement -/

/-- A caller has a ticket for an organization and a lock. -/
def HasTicket (m : Machine) (k : Nat) (org : String) (l : Nat) : Prop :=
  ∃ c : Caller, m.callers[k]? = some c ∧ c.org = org ∧ c.phase.ticket? = some l

/-- Requests are made one at a time, and the table of flights tells who shares them. -/
structure SingleFlight (m : Machine) : Prop where
  /-- At most one request about an organization is out. -/
  inFlight_le_one : ∀ org, m.inFlight org ≤ 1
  /-- There is a flight exactly where somebody has a ticket. -/
  exists_flight_iff : ∀ org, (∃ f, m.flights.get? org = some f) ↔ ∃ k l, m.HasTicket k org l
  /-- A flight counts the tickets that are out. -/
  tickets_eq : ∀ org f, m.flights.get? org = some f → f.tickets = m.tickets org
  /-- All tickets for an organization are for the lock of its flight. -/
  lock_eq : ∀ org f, m.flights.get? org = some f → ∀ k l, m.HasTicket k org l → l = f.lock
  /-- The lock of a flight is free, with nobody waiting for it, or a caller with a ticket for the
  flight holds it, who can go on. -/
  lock_live : ∀ org f, m.flights.get? org = some f → ∃ lock, m.locks[f.lock]? = some lock ∧
    ((lock.holder = none ∧ ∀ k, m.awaited? k ≠ some f.lock) ∨
      ∃ k, lock.holder = some k ∧ m.HasTicket k org f.lock ∧
        ∃ mv next, m.step (.move k mv) = some next)
  /-- When all callers are done there are no flights. -/
  flights_eq_empty : (∀ c ∈ m.callers, ∃ answer, c.phase = .finished answer) → m.flights = ∅

theorem Coherent.exists_flight_iff (h : Coherent m) (org : String) :
    (∃ f, m.flights.get? org = some f) ↔ ∃ k l, m.HasTicket k org l := by
  constructor
  · rintro ⟨f, hf⟩
    obtain ⟨heq, hpos⟩ := h.ticketed.count org f hf
    rw [heq] at hpos
    obtain ⟨c, hc, hq⟩ := List.countP_pos_iff.1 hpos
    obtain ⟨k, hk⟩ := List.mem_iff_getElem?.1 hc
    simp only [Bool.and_eq_true, decide_eq_true_eq, Option.isSome_iff_exists] at hq
    obtain ⟨horg, l, hl⟩ := hq
    exact ⟨k, l, c, hk, horg, hl⟩
  · rintro ⟨k, l, c, hc, rfl, hl⟩
    obtain ⟨f, hf, -⟩ := Option.map_eq_some_iff.1 (h.ticketed.ticket k c l hc hl)
    exact ⟨f, hf⟩

theorem Coherent.lock_eq {org : String} {f : Flight} (h : Coherent m)
    (hf : m.flights.get? org = some f) (hk : m.HasTicket k org l) : l = f.lock := by
  obtain ⟨c, hc, rfl, hl⟩ := hk
  have hlock := h.ticketed.ticket k c l hc hl
  rw [flightLock?, hf] at hlock
  exact (Option.some.inj hlock).symm

theorem Coherent.lock_live {org : String} {f : Flight} (h : Coherent m)
    (hf : m.flights.get? org = some f) : ∃ lock, m.locks[f.lock]? = some lock ∧
      ((lock.holder = none ∧ ∀ k, m.awaited? k ≠ some f.lock) ∨
        ∃ k, lock.holder = some k ∧ m.HasTicket k org f.lock ∧
          ∃ mv next, m.step (.move k mv) = some next) := by
  have hflight := flightLock?_eq hf
  obtain ⟨lock, hlock⟩ : ∃ lock, m.locks[f.lock]? = some lock :=
    ⟨_, List.getElem?_eq_getElem (h.ticketed.lock_lt _ _ hflight)⟩
  obtain ⟨holder_iff, queue_iff, -, free⟩ := h.locked _ _ hlock
  refine ⟨lock, hlock, ?_⟩
  cases hholder : lock.holder with
  | none =>
    refine .inl ⟨rfl, fun k hk ↦ ?_⟩
    have hmem := (queue_iff k).2 hk
    rw [free hholder] at hmem
    exact absurd hmem (by simp)
  | some k =>
    obtain ⟨c, hc, hl⟩ := exists_caller_of_held? ((holder_iff k).1 hholder)
    have hticket := Phase.ticket?_of_held? hl
    -- No other flight has this lock, so its holder has a ticket for this one.
    have horg := h.ticketed.lock_inj _ _ _ (h.ticketed.ticket k c _ hc hticket) hflight
    exact .inr ⟨k, rfl, ⟨c, hc, horg, hticket⟩, exists_step_of_held? hc hl⟩

theorem Coherent.inFlight_le_one (h : Coherent m) (org : String) : m.inFlight org ≤ 1 := by
  refine countP_le_one fun i j a b ha hb hqa hqb ↦ ?_
  simp only [Bool.and_eq_true, decide_eq_true_eq] at hqa hqb
  obtain ⟨la, hla⟩ := held?_of_isFetching hqa.2
  obtain ⟨lb, hlb⟩ := held?_of_isFetching hqb.2
  exact h.holder_unique ha hb (hqa.1.trans hqb.1.symm) hla hlb

theorem Coherent.flights_eq_empty (h : Coherent m)
    (hdone : ∀ c ∈ m.callers, ∃ answer, c.phase = .finished answer) : m.flights = ∅ := by
  refine OrderedMap.eq_empty_of_get? _ fun org ↦ Option.eq_none_iff_forall_ne_some.2 ?_
  intro f hf
  obtain ⟨k, l, c, hc, -, hl⟩ := (h.exists_flight_iff org).1 ⟨f, hf⟩
  obtain ⟨answer, hp⟩ := hdone c (List.mem_of_getElem? hc)
  rw [hp] at hl
  exact absurd hl (by simp [Phase.ticket?])

/-- **Single flight.** Whatever the callers do and whoever is cancelled, requests about one
organization are made one at a time. -/
theorem single_flight (cfg : Config) (es : List Event) (m : Machine)
    (h : (start cfg).run es = some m) : SingleFlight m := by
  have hm := coherent_of_run h
  exact
    { inFlight_le_one := hm.inFlight_le_one
      exists_flight_iff := hm.exists_flight_iff
      tickets_eq := fun org f hf ↦ (hm.ticketed.count org f hf).1
      lock_eq := fun _ _ hf _ _ hk ↦ hm.lock_eq hf hk
      lock_live := fun _ _ hf ↦ hm.lock_live hf
      flights_eq_empty := hm.flights_eq_empty }

/-- Two callers miss together: one sends its request, and the other waits for the lock. -/
def sharedMiss : List Event :=
  [.call "a" false, .call "a" false, .move 0 .check, .move 1 .check, .move 0 .join, .move 1 .join,
    .move 0 .acquire, .move 1 .acquire, .move 0 .recheck, .move 0 .fetch]

theorem single_flight_sharedMiss : ∃ m, (start ⟨1000, 2⟩).run sharedMiss = some m ∧
    m.inFlight "a" = 1 ∧ m.tickets "a" = 2 ∧ SingleFlight m := by
  have hrun : ((start ⟨1000, 2⟩).run sharedMiss).any
      (fun m ↦ m.inFlight "a" = 1 ∧ m.tickets "a" = 2) = true := by decide
  obtain ⟨m, hm, hq⟩ := (Option.any_eq_true _ _).1 hrun
  obtain ⟨hflight, htickets⟩ := of_decide_eq_true hq
  exact ⟨m, hm, hflight, htickets, single_flight _ _ _ hm⟩

end Licensing.Cache.Machine
