import Licensing.Proofs.Cache.View

/-!
# Steps as one organization sees them

A step of a caller about an organization does to its view of the cache (`Machine.solo`) what it
does to the cache (`solo_step`). A step of somebody else leaves the view as it is
(`solo_of_step_elsewhere`), unless something has to go to make room for what it brings. So what
the callers can do and are answered does not depend on the rest.
-/

namespace Licensing.Cache.Machine

variable {m m' : Machine} {org : String} {n k l : Nat} {c : Caller} {e : Event}

/-! ### Steps of callers about the organization -/

/-- A caller that looks into the cache sees the same in the view, given that what is remembered for
the organization is no later than the last generation. -/
theorem solo_check (hc : m.callers[n]? = some c) (horg : c.org = org)
    (hgen : c.force = true → ∀ e, m.store.entries.get? org = some e →
      e.generation ≤ m.store.generation) :
    (m.check n c).solo org = (m.solo org).check (m.place org n) (m.soloCaller org c) := by
  have hmark : m.mark org c.force m.store.generation = 1 := by
    rw [mark]
    cases hforce : c.force with
    | false => rfl
    | true =>
      cases he : m.store.entries.get? org with
      | none => rfl
      | some e => simp [Nat.not_lt.2 (hgen hforce e he)]
  have hforce : (m.soloCaller org c).force = c.force := rfl
  have hsolo : (m.soloCaller org c).org = org := horg
  rw [check, check, hforce, hsolo, lookup?_solo, horg]
  split
  · rw [solo_setPhase hc horg]
    rfl
  · rw [solo_setPhase hc horg, Phase.blur, hmark]
    rfl

/-- A caller that joins the flight of the organization joins it in the view, whether it finds one or
has to make it. -/
theorem solo_join {seen seen' : Nat} (hc : m.callers[n]? = some c) (horg : c.org = org)
    (hseen : m.mark org c.force seen = seen') :
    (m.join n c seen).solo org = (m.solo org).join (m.place org n) (m.soloCaller org c) seen' := by
  have hsolo : (m.soloCaller org c).org = org := horg
  rw [join, join, hsolo, horg]
  have hget : (m.solo org).flights.get? org =
      (m.flights.get? org).map fun f ↦ { f with lock := 0 } := by
    rw [solo, get?_share, if_pos rfl]
  rw [hget]
  cases hf : m.flights.get? org with
  | none =>
    have hlength : (m.solo org).locks.length = 0 := by rw [solo, soloLock?, flightLock?, hf]; rfl
    simp only [Option.map_none]
    rw [solo_setPhase_of _ _ hc horg, solo_launch hf, Phase.blur, hseen, hlength]
  | some f =>
    simp only [Option.map_some]
    rw [solo_setPhase_of _ _ hc horg, solo_insertFlight (f.tickets + 1) (flightLock?_eq hf),
      Phase.blur, hseen]

/-- A caller takes the lock of the flight, or queues for it, as it does in the view. -/
theorem solo_acquire {seen seen' : Nat} (hc : m.callers[n]? = some c) (horg : c.org = org)
    (hl : m.flightLock? org = some l) (hlt : l < m.locks.length)
    (hseen : m.mark org c.force seen = seen') :
    (m.acquire n seen l).solo org = (m.solo org).acquire (m.place org n) seen' 0 := by
  obtain ⟨⟨holder, queue⟩, hlock⟩ : ∃ lock, m.locks[l]? = some lock :=
    ⟨_, List.getElem?_eq_getElem hlt⟩
  have hmodify : ∀ f : Lock → Lock, (m.locks.modify l f)[l]? = some (f ⟨holder, queue⟩) := by
    intro f
    rw [List.getElem?_modify_eq, hlock]
    rfl
  rw [acquire, acquire, locks_solo hl hlock, hlock]
  cases holder with
  | none =>
    simp only
    rw [solo_setPhase_of _ _ hc horg, solo_locks hl (hmodify _), Phase.blur, hseen]
    rfl
  | some k =>
    simp only
    rw [solo_setPhase_of _ _ hc horg, solo_locks hl (hmodify _), Phase.blur, hseen]
    simp [Lock.rename]

/-- A caller that looks again finds there what it finds in the view. -/
theorem solo_recheck {seen seen' : Nat} (hc : m.callers[n]? = some c) (horg : c.org = org)
    (hseen : m.mark org c.force seen = seen') :
    (m.recheck n c seen l).solo org =
      (m.solo org).recheck (m.place org n) (m.soloCaller org c) seen' 0 := by
  have hforce : (m.soloCaller org c).force = c.force := rfl
  have hsolo : (m.soloCaller org c).org = org := horg
  have hlookup : (m.solo org).lookup? org (if c.force then some seen' else none) =
      m.lookup? org (if c.force then some seen else none) := by
    cases hf : c.force with
    | false => exact lookup?_solo
    | true =>
      rw [hf] at hseen
      rw [if_pos rfl, if_pos rfl, ← hseen, lookup?_solo_mark]
  rw [recheck, recheck, hforce, hsolo, hlookup, horg]
  split
  · rw [solo_setPhase hc horg]
    rfl
  · rw [solo_setPhase hc horg]
    rfl

/-- Two callers about the organization have different places in the view. -/
theorem place_inj {a b : Caller} (hn : m.callers[n]? = some a) (hk : m.callers[k]? = some b)
    (ha : a.org = org) (hb : b.org = org) (h : m.place org n = m.place org k) : n = k := by
  rcases Nat.lt_trichotomy n k with hlt | heq | hlt
  · exact absurd h (countP_take_lt hn (by simpa using ha) hlt).ne
  · exact heq
  · exact absurd h.symm (countP_take_lt hk (by simpa using hb) hlt).ne

/-- Who waits for the lock of a flight asks about its organization. -/
theorem Coherent.exists_waiting {lock : Lock} (hm : Coherent m) (hl : m.flightLock? org = some l)
    (hlock : m.locks[l]? = some lock) (hk : k ∈ lock.queue) :
    ∃ c, m.callers[k]? = some c ∧ c.org = org := by
  obtain ⟨c, hc, ha⟩ := exists_caller_of_awaited? (((hm.locked l lock hlock).queue k).1 hk)
  have hticket := hm.ticketed.ticket k c l hc (Phase.ticket?_of_awaited? ha)
  exact ⟨c, hc, hm.ticketed.lock_inj _ _ _ hticket hl⟩

/-- A caller that gives up waiting leaves the queue of the view. -/
theorem solo_dequeue (hm : Coherent m) (hc : m.callers[n]? = some c) (horg : c.org = org)
    (hl : m.flightLock? org = some l) (hlt : l < m.locks.length) :
    (m.dequeue n l).solo org = (m.solo org).dequeue (m.place org n) 0 := by
  obtain ⟨⟨holder, queue⟩, hlock⟩ : ∃ lock, m.locks[l]? = some lock :=
    ⟨_, List.getElem?_eq_getElem hlt⟩
  have hmodify : (m.locks.modify l fun lock ↦
      { lock with queue := lock.queue.filter (· ≠ n) })[l]? =
        some ⟨holder, queue.filter (· ≠ n)⟩ := by
    rw [List.getElem?_modify_eq, hlock]
    rfl
  have hqueue : (queue.filter (· ≠ n)).map (m.place org) =
      (queue.map (m.place org)).filter (· ≠ m.place org n) := by
    rw [List.filter_map]
    refine congrArg _ (List.filter_congr fun k hk ↦ ?_)
    obtain ⟨b, hb, hborg⟩ := hm.exists_waiting hl hlock hk
    refine decide_eq_decide.2 (not_congr ⟨fun heq ↦ heq ▸ rfl, fun heq ↦ ?_⟩)
    exact place_inj hb hc hborg horg heq
  rw [dequeue, dequeue, locks_solo hl hlock, solo_locks hl hmodify, Lock.rename, hqueue]
  rfl

/-- When the lock is given back, it goes to the same caller in the view. -/
theorem solo_unlock (hm : Coherent m) (hl : m.flightLock? org = some l)
    (hlt : l < m.locks.length) : (m.unlock l).solo org = (m.solo org).unlock 0 := by
  obtain ⟨⟨holder, queue⟩, hlock⟩ : ∃ lock, m.locks[l]? = some lock :=
    ⟨_, List.getElem?_eq_getElem hlt⟩
  rw [unlock, unlock, locks_solo hl hlock, hlock]
  cases hqueue : queue with
  | nil =>
    simp only [Lock.rename, List.map_nil, List.getElem?_cons_zero]
    rw [solo_locks hl (List.getElem?_set_self hlt)]
    rfl
  | cons k rest =>
    subst hqueue
    obtain ⟨c, hc, horg⟩ := hm.exists_waiting hl hlock List.mem_cons_self
    simp only [Lock.rename, List.map_cons, List.getElem?_cons_zero]
    rw [solo_grant (m := { m with locks := m.locks.set l ⟨some k, rest⟩ }) hc horg,
      solo_locks hl (List.getElem?_set_self hlt)]
    rfl

/-! ### What is tidied up -/

/-- The lock goes with the last ticket. -/
def sweep (m : Machine) (org : String) : Machine :=
  { m with locks := if (m.flights.get? org).isSome then m.locks else [] }

/-- What has come in is later than what anybody has seen. -/
def renew (m : Machine) : Machine :=
  { m with
    store := ⟨m.store.entries.map fun _ ↦ Entry.undated, 1⟩
    callers := m.callers.map Caller.renew }

/-- A flight that is not there has no lock. -/
theorem solo_sweep_of_none (hf : m.flights.get? org = none) :
    (m.solo org).sweep org = m.solo org := by
  have hlocks : (m.solo org).locks = [] := by rw [solo, soloLock?, flightLock?, hf]; rfl
  rw [sweep, hlocks, ite_self, ← hlocks]

/-- A flight that is gone takes its lock out of the view. -/
theorem solo_eraseFlight : ({ m with flights := m.flights.erase org } : Machine).solo org =
    ({ m.solo org with flights := (m.solo org).flights.erase org } : Machine).sweep org := by
  have hlock : ({ m with flights := m.flights.erase org } : Machine).soloLock? org = none := by
    rw [soloLock?, flightLock?, OrderedMap.get?_erase_self]
    rfl
  simp only [solo, hlock, share_erase, sweep, OrderedMap.get?_erase_self]
  rfl

/-- The last caller to leave takes the flight with it, and then its lock is out of the view. -/
theorem solo_leave : (m.leave org).solo org = ((m.solo org).leave org).sweep org := by
  have hget : (m.solo org).flights.get? org =
      (m.flights.get? org).map fun f ↦ { f with lock := 0 } := by
    rw [solo, get?_share, if_pos rfl]
  rw [leave, leave, hget]
  cases hf : m.flights.get? org with
  | none => exact (solo_sweep_of_none hf).symm
  | some f =>
    simp only [Option.map_some]
    split
    · exact solo_eraseFlight
    · rw [solo_insertFlight _ (flightLock?_eq hf), sweep, OrderedMap.get?_insert_self]
      rfl

/-- It makes no difference whether a caller comes to a phase without a generation before or after
what came in is later than all that was seen. -/
theorem renew_setPhase (p : Phase) (hp : (p.blur fun _ ↦ 0) = p) :
    (m.setPhase n p).renew = m.renew.setPhase n p := by
  simp only [renew, setPhase, Machine.mk.injEq, true_and]
  refine List.ext_getElem? fun i ↦ ?_
  simp only [List.getElem?_map, List.getElem?_modify]
  cases m.callers[i]? with
  | none => rfl
  | some c =>
    simp only [Option.map_eq_map, Option.map_some, Caller.renew]
    split <;> split <;> simp [*]

/-- An outcome about the organization is remembered alone, whatever had to go for it. -/
theorem share_record {cfg : Config} {now g g' : Nat} {entries : OrderedMap Entry} {o : Outcome} :
    share (Store.record ⟨entries, g⟩ cfg now org o).1.entries org Entry.undated =
      (Store.record ⟨share entries org Entry.undated, g'⟩ cfg now org o).1.entries.map
        fun _ ↦ Entry.undated := by
  refine OrderedMap.ext_get? fun about ↦ ?_
  rw [get?_share, OrderedMap.get?_map]
  by_cases h : about = org
  · subst h
    rw [if_pos rfl, Store.record, Store.record, OrderedMap.get?_insert_self,
      OrderedMap.get?_insert_self]
    rfl
  · rw [if_neg h]
    refine (Option.map_eq_none_iff.2 (Option.eq_none_iff_forall_ne_some.2 fun e he ↦ ?_)).symm
    have hold := Store.get?_record_of_ne (fun heq ↦ h heq.symm) he
    rw [get?_share, if_neg h] at hold
    exact absurd hold (by simp)

/-- What has just come in is later than what anybody has seen. -/
theorem mark_record {seen : Nat} {o : Outcome} (hseen : seen ≤ m.store.generation)
    (hwrap : m.store.generation + 1 < Store.generations) :
    ({ m with store := (m.store.record m.config m.now org o).1 } : Machine).mark org true seen =
      0 := by
  rw [mark, Store.record, OrderedMap.get?_insert_self]
  simp only [Nat.mod_eq_of_lt hwrap]
  simp [Nat.lt_succ_of_le hseen]

/-- After an outcome has come in, it is later than what any caller of the organization saw. -/
theorem soloCaller_record {o : Outcome} (hgen : c.force = true →
      (∀ seen, c.phase.seen? = some seen → seen ≤ m.store.generation) ∧
        m.store.generation + 1 < Store.generations) :
    ({ m with store := (m.store.record m.config m.now org o).1 } : Machine).soloCaller org c =
      (m.soloCaller org c).renew := by
  obtain ⟨about, force, p⟩ := c
  cases force with
  | false => rfl
  | true =>
    obtain ⟨hseen, hwrap⟩ := hgen rfl
    refine congrArg (Caller.mk about true) (Eq.trans ?_ (Phase.blur_blur _ _ _).symm)
    exact Phase.blur_congr fun seen hp ↦ mark_record (hseen seen hp) hwrap

/-- A request of a caller about the organization comes back. -/
theorem solo_record {o : Outcome} (hc : m.callers[n]? = some c) (horg : c.org = org)
    (hgen : ∀ b ∈ m.callers, b.org = org → b.force = true →
      (∀ seen, b.phase.seen? = some seen → seen ≤ m.store.generation) ∧
        m.store.generation + 1 < Store.generations) :
    (m.record n c l o).solo org =
      ((m.solo org).record (m.place org n) (m.soloCaller org c) 0 o).renew := by
  have hsolo : (m.soloCaller org c).org = org := horg
  rw [Machine.record, Machine.record, hsolo, horg]
  simp only
  rw [renew_setPhase _ rfl,
    solo_setPhase (m := { m with store := (m.store.record m.config m.now org o).1 }) hc horg]
  congr 1
  simp only [solo, renew, Machine.mk.injEq, true_and]
  refine ⟨congrArg (Store.mk · 1) share_record, rfl, ?_⟩
  rw [List.map_map]
  refine List.map_congr_left fun b hb ↦ ?_
  obtain ⟨hmem, hborg⟩ := List.mem_filter.1 hb
  exact soloCaller_record (hgen b hmem (by simpa using hborg))

/-! ### Every step of a caller about the organization -/

/-- What has to be tidied up after a move. -/
def tidy (m : Machine) (org : String) : Move → Machine
  | .store _ => m.renew
  | .leave => m.sweep org
  | _ => m

/-- What callers that compare generations have seen is not later than the last generation, and the
next generation is later. -/
structure Timely (m : Machine) (org : String) (mv : Move) : Prop where
  /-- What is remembered is not later than the last generation. -/
  entry_le : (∃ b ∈ m.callers, b.org = org ∧ b.force = true) →
    ∀ e, m.store.entries.get? org = some e → e.generation ≤ m.store.generation
  /-- Nor is what a caller has seen, and generations do not wrap around. -/
  seen_le : ∀ b ∈ m.callers, b.org = org → b.force = true → ∀ o, mv = .store o →
    (∀ seen, b.phase.seen? = some seen → seen ≤ m.store.generation) ∧
      m.store.generation + 1 < Store.generations

/-- As long as nobody asks about another organization than before, every caller is still there. -/
theorem exists_caller_of_map_org (h : m'.callers.map Caller.org = m.callers.map Caller.org)
    (hc : m.callers[n]? = some c) : ∃ c', m'.callers[n]? = some c' ∧ c'.org = c.org := by
  refine Option.map_eq_some_iff.1 ?_
  rw [← List.getElem?_map, h, List.getElem?_map, hc]
  rfl

/-- To give a lock back does not change whom the callers ask about. -/
theorem map_org_unlock : (m.unlock l).callers.map Caller.org = m.callers.map Caller.org := by
  rw [unlock]
  split
  · exact map_org_grant
  · rfl
  · rfl

/-- To leave a flight does not change the phases of callers. -/
theorem callers_leave : (m.leave org).callers = m.callers := by
  rw [leave]
  split <;> [split <;> rfl; rfl]

/-- A caller that gives the lock back goes on to leave the flight, as it does in the view. -/
theorem solo_unlock_setPhase {answer : Option Lookup} (hm : Coherent m)
    (hc : m.callers[n]? = some c) (horg : c.org = org) (hl : m.flightLock? org = some l)
    (hlt : l < m.locks.length) : ((m.unlock l).setPhase n (.departing l answer)).solo org =
      ((m.solo org).unlock 0).setPhase (m.place org n) (.departing 0 answer) := by
  obtain ⟨c', hc', horg'⟩ := exists_caller_of_map_org (map_org_unlock (l := l)) hc
  rw [solo_setPhase hc' (horg'.trans horg), place_congr map_org_unlock, solo_unlock hm hl hlt]
  rfl

/-- A caller that leaves the flight is done, as it is in the view. -/
theorem solo_leave_setPhase {answer : Option Lookup} (hc : m.callers[n]? = some c)
    (horg : c.org = org) : ((m.leave org).setPhase n (.finished answer)).solo org =
      (((m.solo org).leave org).setPhase (m.place org n) (.finished answer)).sweep org := by
  have hcallers : (m.leave org).callers = m.callers := callers_leave
  have hplace : (m.leave org).place org = m.place org := place_congr (by rw [hcallers])
  rw [solo_setPhase (by rw [hcallers]; exact hc) horg, hplace, solo_leave]
  rfl

/-- **A move of a caller about the organization is a move of the view.** One case for each kind of
move; only the outcome that comes in has to be dated anew. -/
theorem solo_move {mv : Move} (hm : Coherent m) (ht : Timely m org mv)
    (hc : m.callers[n]? = some c) (horg : c.org = org) :
    (m.move n c c.phase mv).map (solo · org) =
      ((m.solo org).move (m.place org n) (m.soloCaller org c) (m.soloCaller org c).phase mv).map
        (tidy · org mv) := by
  have hlock : ∀ l, c.phase.ticket? = some l → m.flightLock? org = some l ∧ l < m.locks.length :=
    fun l hl ↦ by
      have hflight := horg ▸ hm.ticketed.ticket n c l hc hl
      exact ⟨hflight, hm.ticketed.lock_lt _ _ hflight⟩
  have hsolo : (m.soloCaller org c).phase = c.phase.blur (m.mark org c.force) := rfl
  rw [hsolo]
  -- In each phase there are one or two moves that it allows; the others are possible nowhere.
  cases hp : c.phase with
  | entering =>
    cases mv with
    | check =>
      refine congrArg some (solo_check hc horg fun hforce ↦ ?_)
      exact ht.entry_le ⟨c, List.mem_of_getElem? hc, horg, hforce⟩
    | _ => rfl
  | checked seen =>
    cases mv with
    | join => exact congrArg some (solo_join hc horg rfl)
    | _ => rfl
  | ticketed seen l =>
    obtain ⟨hl, hlt⟩ := hlock l (by rw [hp]; rfl)
    cases mv with
    | acquire => exact congrArg some (solo_acquire hc horg hl hlt rfl)
    | cancel => exact congrArg some (solo_setPhase hc horg _)
    | _ => rfl
  | queued seen l =>
    obtain ⟨hl, hlt⟩ := hlock l (by rw [hp]; rfl)
    cases mv with
    | cancel =>
      refine congrArg some ((solo_setPhase (m := m.dequeue n l) hc horg _).trans ?_)
      rw [solo_dequeue hm hc horg hl hlt]
      rfl
    | _ => rfl
  | holding seen l =>
    cases mv with
    | recheck => exact congrArg some (solo_recheck hc horg rfl)
    | cancel => exact congrArg some (solo_setPhase hc horg _)
    | _ => rfl
  | cleared l =>
    cases mv with
    | fetch => exact congrArg some (solo_setPhase hc horg _)
    | _ => rfl
  | fetching l =>
    cases mv with
    | store o =>
      exact congrArg some (solo_record hc horg fun b hb hborg hforce ↦
        ht.seen_le b hb hborg hforce o rfl)
    | cancel => exact congrArg some (solo_setPhase hc horg _)
    | _ => rfl
  | releasing l answer =>
    obtain ⟨hl, hlt⟩ := hlock l (by rw [hp]; rfl)
    cases mv with
    | unlock => exact congrArg some (solo_unlock_setPhase hm hc horg hl hlt)
    | _ => rfl
  | departing l answer =>
    cases mv with
    | leave =>
      subst horg
      exact congrArg some (solo_leave_setPhase hc rfl)
    | _ => rfl
  | finished answer => cases mv <;> rfl

/-- The same for whole steps. -/
theorem solo_step {mv : Move} (hm : Coherent m) (ht : Timely m org mv)
    (hc : m.callers[n]? = some c) (horg : c.org = org) :
    (m.step (.move n mv)).map (solo · org) =
      ((m.solo org).step (.move (m.place org n) mv)).map (tidy · org mv) := by
  simp only [step, hc, getElem?_solo hc horg]
  exact solo_move hm ht hc horg

/-! ### Callers that start -/

/-- Who holds the lock of a flight or waits for it is a caller. -/
theorem Coherent.lt_of_mem_soloLock {lock : Lock} (hm : Coherent m)
    (hlock : m.soloLock? org = some lock) (hk : lock.holder = some k ∨ k ∈ lock.queue) :
    k < m.callers.length := by
  obtain ⟨l, -, hl⟩ := Option.bind_eq_some_iff.1 hlock
  obtain ⟨holder, queue, -, -⟩ := hm.locked l lock hl
  have hcaller : ∃ c, m.callers[k]? = some c := by
    rcases hk with hk | hk
    · obtain ⟨c, hc, -⟩ := exists_caller_of_held? ((holder k).1 hk)
      exact ⟨c, hc⟩
    · obtain ⟨c, hc, -⟩ := exists_caller_of_awaited? ((queue k).1 hk)
      exact ⟨c, hc⟩
  obtain ⟨c, hc⟩ := hcaller
  exact (List.getElem?_eq_some_iff.1 hc).1

/-- A caller that comes has no part in the places of those before it. -/
theorem place_call (about : String) (force : Bool) (h : k ≤ m.callers.length) :
    ({ m with callers := m.callers ++ [⟨about, force, .entering⟩] } : Machine).place org k =
      m.place org k := by
  rw [place, place, List.take_append_of_le_length h]

/-- **A caller that starts** is there in the view if it asks about the organization. -/
theorem solo_call (hm : Coherent m) (about : String) (force : Bool) :
    ({ m with callers := m.callers ++ [⟨about, force, .entering⟩] } : Machine).solo org =
      { m.solo org with callers := (m.solo org).callers ++
        if about = org then [⟨about, force, .entering⟩] else [] } := by
  have hlocks : (m.soloLock? org).toList.map (Lock.rename (({ m with
      callers := m.callers ++ [⟨about, force, .entering⟩] } : Machine).place org)) =
        (m.soloLock? org).toList.map (Lock.rename (m.place org)) := by
    refine List.map_congr_left fun lock hlock ↦ Lock.rename_congr fun k hk ↦ ?_
    exact place_call about force (hm.lt_of_mem_soloLock (Option.mem_toList.1 hlock) hk).le
  simp only [solo, Machine.mk.injEq, true_and]
  refine ⟨hlocks, ?_⟩
  rw [List.filter_append, List.map_append]
  refine congrArg _ ?_
  by_cases h : about = org <;> simp [h, soloCaller, Phase.blur]

/-! ### Steps of callers about other organizations -/

/-- What counts for the view. -/
theorem solo_congr (hconfig : m'.config = m.config) (hnow : m'.now = m.now)
    (hentry : m'.store.entries.get? org = m.store.entries.get? org)
    (hflight : m'.flights.get? org = m.flights.get? org)
    (hlock : ∀ l, m.flightLock? org = some l → m'.locks[l]? = m.locks[l]?)
    (hcallers : m'.callers.filter (fun c ↦ c.org = org) = m.callers.filter fun c ↦ c.org = org)
    (horgs : m'.callers.map Caller.org = m.callers.map Caller.org) : m'.solo org = m.solo org := by
  have hmark : m'.soloCaller org = m.soloCaller org := by
    funext c
    rw [soloCaller, soloCaller]
    congr 2
    funext seen
    rw [mark, mark, hentry]
  have hsolo : m'.soloLock? org = m.soloLock? org := by
    rw [soloLock?, soloLock?, flightLock?, flightLock?, hflight]
    exact Option.bind_congr fun l hl ↦ hlock l hl
  simp only [solo, hconfig, hnow, share_congr hentry, share_congr hflight, hsolo,
    place_congr horgs, hcallers, hmark]

/-- The phase of a caller about another organization is not in the view. -/
theorem solo_setPhase_elsewhere (hc : m.callers[n]? = some c) (horg : c.org ≠ org) (p : Phase) :
    (m.setPhase n p).solo org = m.solo org :=
  solo_congr rfl rfl rfl rfl (fun _ _ ↦ rfl)
    (filter_modify_of_not hc (by simpa using horg) (by simpa using horg)) (map_org_setPhase p)

/-- Neither is it when such a caller is given a lock. -/
theorem solo_grant_elsewhere (hc : m.callers[n]? = some c) (horg : c.org ≠ org) :
    (m.grant n).solo org = m.solo org := by
  refine solo_congr rfl rfl rfl rfl (fun _ _ ↦ rfl) ?_ map_org_grant
  refine filter_modify_of_not hc (by simpa using horg) ?_
  cases c with | mk about force p => cases p <;> simpa using horg

/-- Somebody's ticket for another organization is not for the lock of the flight. -/
theorem Coherent.lock_ne {lock : Nat} (hm : Coherent m) (hc : m.callers[n]? = some c)
    (horg : c.org ≠ org) (hp : c.phase.ticket? = some lock) (hl : m.flightLock? org = some l) :
    lock ≠ l := by
  rintro rfl
  exact horg (hm.ticketed.lock_inj _ _ _ (hm.ticketed.ticket n c lock hc hp) hl)

/-- **Steps of callers about other organizations** are not seen, as long as nothing has to go to
make room for what they bring. -/
theorem solo_of_step_elsewhere {mv : Move} (hm : Coherent m) (hs : Step m (.move n mv) m')
    (hc : m.callers[n]? = some c) (horg : c.org ≠ org)
    (hroom : ∀ o, mv = .store o →
      m.store.entries.contains c.org = true ∨ m.store.entries.size < m.config.room) :
    m'.solo org = m.solo org := by
  -- The caller comes to another phase, and what changes beside it is that of its organization.
  have hrest : ∀ {m₁ : Machine} {p : Phase}, m₁.callers = m.callers → m₁.config = m.config →
      m₁.now = m.now → m₁.store.entries.get? org = m.store.entries.get? org →
      m₁.flights.get? org = m.flights.get? org →
      (∀ l, m.flightLock? org = some l → m₁.locks[l]? = m.locks[l]?) →
      (m₁.setPhase n p).solo org = m.solo org := by
    intro m₁ p hcallers hconfig hnow hentry hflight hlock
    rw [solo_setPhase_elsewhere (by rw [hcallers]; exact hc) horg]
    exact solo_congr hconfig hnow hentry hflight hlock (by rw [hcallers]) (by rw [hcallers])
  cases hs with
  | hit | miss | resign | share | clear | abandon | send | lose =>
    exact solo_setPhase_elsewhere hc horg _
  | join hc' | leave hc' =>
    obtain rfl := Option.some.inj (hc.symm.trans hc')
    exact hrest rfl rfl rfl rfl (OrderedMap.get?_insert_of_ne _ _ horg) fun _ _ ↦ rfl
  | launch hc' =>
    obtain rfl := Option.some.inj (hc.symm.trans hc')
    refine hrest rfl rfl rfl rfl (OrderedMap.get?_insert_of_ne _ _ horg) fun l hl ↦ ?_
    exact List.getElem?_append_left (hm.ticketed.lock_lt _ _ hl)
  | close hc' =>
    obtain rfl := Option.some.inj (hc.symm.trans hc')
    exact hrest rfl rfl rfl rfl (by rw [OrderedMap.get?_erase, if_neg horg]) fun _ _ ↦ rfl
  | take hc' hp | wait hc' hp | withdraw hc' hp =>
    obtain rfl := Option.some.inj (hc.symm.trans hc')
    refine hrest rfl rfl rfl rfl rfl fun l hl ↦ List.getElem?_modify_ne _ _ ?_
    exact hm.lock_ne hc horg (by rw [hp]; rfl) hl
  | free hc' hp =>
    obtain rfl := Option.some.inj (hc.symm.trans hc')
    refine hrest rfl rfl rfl rfl rfl fun l hl ↦ List.getElem?_set_ne ?_
    exact hm.lock_ne hc horg (by rw [hp]; rfl) hl
  | record hc' hp o =>
    obtain rfl := Option.some.inj (hc.symm.trans hc')
    exact hrest rfl rfl rfl (Store.get?_record_of_room horg (hroom o rfl)) rfl fun _ _ ↦ rfl
  | @pass n k lock c answer holder rest hc' hp hlock =>
    obtain rfl := Option.some.inj (hc.symm.trans hc')
    -- Who is given the lock asks about the same organization as who had it.
    have hflight := hm.ticketed.ticket n _ lock hc (by rw [hp]; rfl)
    obtain ⟨b, hb, hborg⟩ := hm.exists_waiting hflight hlock List.mem_cons_self
    have hset : ({ m with locks := m.locks.set lock ⟨some k, rest⟩ } : Machine).solo org =
        m.solo org := by
      refine solo_congr rfl rfl rfl rfl (fun l hl ↦ List.getElem?_set_ne ?_) rfl rfl
      exact hm.lock_ne hc horg (by rw [hp]; rfl) hl
    have hgrant := solo_grant_elsewhere
      (m := { m with locks := m.locks.set lock ⟨some k, rest⟩ }) hb (hborg ▸ horg)
    obtain ⟨c', hc', horg'⟩ := exists_caller_of_map_org (map_org_grant (n := k)) hc
    rw [← hset, ← hgrant]
    exact solo_setPhase_elsewhere (m := ({ m with
      locks := m.locks.set lock ⟨some k, rest⟩ } : Machine).grant k) hc' (horg' ▸ horg) _

end Licensing.Cache.Machine
