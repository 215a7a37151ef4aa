import Licensing.Proofs.Cache.Run
import Licensing.Proofs.Count
import Mathlib.Algebra.Order.Group.Nat

/-!
# Tickets

The table of flights says for each organization how many tickets are out and which lock they are
for. That this is the truth about the callers (`Ticketed`) is kept by every step. Most steps
change no ticket at all; taking a ticket and giving it back keep the lock of every flight, so
only the count has to be looked at.
-/

namespace Licensing.Cache

/-! ### Views of a phase -/

namespace Phase

/-- The lock that a caller's ticket is for. -/
def ticket? : Phase → Option Nat
  | .ticketed _ lock | .queued _ lock | .holding _ lock | .cleared lock | .fetching lock
  | .releasing lock _ | .departing lock _ => some lock
  | .entering | .checked _ | .finished _ => none

/-- The lock that a caller holds. -/
def held? : Phase → Option Nat
  | .holding _ lock | .cleared lock | .fetching lock | .releasing lock _ => some lock
  | _ => none

/-- The lock that a caller waits for. -/
def awaited? : Phase → Option Nat
  | .queued _ lock => some lock
  | _ => none

/-- A caller's request is out. -/
def isFetching : Phase → Bool
  | .fetching _ => true
  | _ => false

theorem ticket?_of_held? {p : Phase} {l : Nat} (h : p.held? = some l) : p.ticket? = some l := by
  cases p <;> simp_all [held?, ticket?]

theorem ticket?_of_awaited? {p : Phase} {l : Nat} (h : p.awaited? = some l) :
    p.ticket? = some l := by
  cases p <;> simp_all [awaited?, ticket?]

end Phase

namespace Machine

variable {m m' : Machine} {n k : Nat} {e : Event} {c : Caller} {p : Phase} {org : String}

/-! ### Counting callers -/

/-- A caller that comes to a phase counts as what it is there, and no longer as what it was. -/
theorem countP_setPhase (hc : m.callers[n]? = some c) (p : Phase) (q : Caller → Bool) :
    (m.setPhase n p).callers.countP q + (if q c then 1 else 0) =
      m.callers.countP q + if q { c with phase := p } then 1 else 0 :=
  countP_modify hc

/-- Giving a lock to a caller does not change what it counts as where both phases count alike. -/
theorem countP_grant {q : Caller → Bool} (hq : ∀ (c : Caller) (seen lock : Nat),
    q { c with phase := .holding seen lock } = q { c with phase := .queued seen lock }) :
    (m.grant n).callers.countP q = m.callers.countP q := by
  rw [grant]
  obtain hn | hn := Nat.lt_or_ge n m.callers.length
  · rw [List.modify_eq_take_cons_drop hn]
    conv_rhs => rw [← List.take_append_drop n m.callers, List.drop_eq_getElem_cons hn]
    simp only [List.countP_append, List.countP_cons]
    congr 3
    split
    · rename_i seen lock hp
      rw [hq, ← hp]
    · rfl
  · rw [List.modify_eq_self hn]

/-- How many tickets for an organization are out. -/
def tickets (m : Machine) (org : String) : Nat :=
  m.callers.countP fun c ↦ c.org = org && c.phase.ticket?.isSome

/-- How many requests about an organization are out. -/
def inFlight (m : Machine) (org : String) : Nat :=
  m.callers.countP fun c ↦ c.org = org && c.phase.isFetching

/-- The lock of the flight of an organization. -/
def flightLock? (m : Machine) (org : String) : Option Nat :=
  (m.flights.get? org).map Flight.lock

/-! ### The invariant -/

/-- The table of flights is right about the tickets. -/
structure Ticketed (m : Machine) : Prop where
  /-- A ticket is for the lock of the flight of its organization. -/
  ticket : ∀ (k : Nat) (c : Caller) (l : Nat), m.callers[k]? = some c →
    c.phase.ticket? = some l → m.flightLock? c.org = some l
  /-- A flight counts the tickets for its organization, and there is one. -/
  count : ∀ (org : String) (f : Flight), m.flights.get? org = some f →
    f.tickets = m.tickets org ∧ 0 < f.tickets
  /-- The lock of a flight has been made. -/
  lock_lt : ∀ (org : String) (l : Nat), m.flightLock? org = some l → l < m.locks.length
  /-- Two flights have two locks. -/
  lock_inj : ∀ (org₁ org₂ : String) (l : Nat), m.flightLock? org₁ = some l →
    m.flightLock? org₂ = some l → org₁ = org₂

theorem ticketed_start (cfg : Config) : Ticketed (start cfg) where
  ticket _ _ _ h := by simp [start] at h
  count _ _ h := by simp [start] at h
  lock_lt _ _ h := by simp [start, flightLock?] at h
  lock_inj _ _ _ h := by simp [start, flightLock?] at h

/-- Somebody with a ticket for an organization is counted. -/
theorem tickets_pos {l : Nat} (hc : m.callers[k]? = some c) (hl : c.phase.ticket? = some l) :
    0 < m.tickets c.org :=
  List.countP_pos_iff.2 ⟨c, List.mem_of_getElem? hc, by simp [hl]⟩

/-! ### Steps that change no ticket -/

/-- What does not change callers, flights or the locks that there are keeps the tickets. -/
theorem Ticketed.congr (h : Ticketed m) (hc : m'.callers = m.callers)
    (hf : m'.flights = m.flights) (hl : m'.locks.length = m.locks.length) : Ticketed m' := by
  obtain ⟨h₁, h₂, h₃, h₄⟩ := h
  constructor
  · simpa only [flightLock?, hc, hf] using h₁
  · simpa only [tickets, hc, hf] using h₂
  · simpa only [flightLock?, hf, hl] using h₃
  · simpa only [flightLock?, hf] using h₄

/-- A caller that keeps its ticket, or has none before and after. -/
theorem Ticketed.setPhase {m₁ : Machine} (h : Ticketed m) (hcallers : m₁.callers = m.callers)
    (hflights : m₁.flights = m.flights) (hlocks : m₁.locks.length = m.locks.length)
    (hc : m.callers[n]? = some c) (hp : p.ticket? = c.phase.ticket?) :
    Ticketed (m₁.setPhase n p) := by
  have h₁ : Ticketed m₁ := h.congr hcallers hflights hlocks
  have hc₁ : m₁.callers[n]? = some c := hcallers ▸ hc
  constructor
  · intro k c' l hk hl
    by_cases hn : n = k
    · subst hn
      rw [getElem?_setPhase_self hc₁] at hk
      obtain rfl := Option.some.inj hk
      exact h₁.ticket n c l hc₁ (hp ▸ hl)
    · rw [getElem?_setPhase_of_ne hn] at hk
      exact h₁.ticket k c' l hk hl
  · intro org f hf
    have hcount := countP_setPhase hc₁ p fun c ↦ c.org = org && c.phase.ticket?.isSome
    simp only [hp, Nat.add_right_cancel_iff] at hcount
    rw [tickets, hcount]
    exact h₁.count org f hf
  · exact h₁.lock_lt
  · exact h₁.lock_inj

theorem Ticketed.grant (h : Ticketed m) : Ticketed (m.grant n) where
  ticket k c' l hk hl := by
    obtain ⟨c, hc, horg, -, hphase⟩ := getElem?_grant hk
    rw [horg]
    refine h.ticket k c l hc ?_
    rcases hphase with hphase | ⟨seen, lock, hq, hh⟩
    · rwa [← hphase]
    · rw [hh] at hl
      rw [hq]
      exact hl
  count org f hf := by
    rw [tickets, countP_grant fun _ _ _ ↦ rfl]
    exact h.count org f hf
  lock_lt := h.lock_lt
  lock_inj := h.lock_inj

theorem Ticketed.call (h : Ticketed m) (org : String) (force : Bool) :
    Ticketed { m with callers := m.callers ++ [⟨org, force, .entering⟩] } where
  ticket k c' l hk hl := by
    rcases caller_of_step (.call org force) hk with ⟨-, -, hp⟩ | ⟨c, hc, horg, -, hb⟩
    · rw [hp] at hl
      exact absurd hl (by simp [Phase.ticket?])
    · rcases hb with hb | ⟨_, _, hq, hh⟩ | ⟨_, he, -⟩
      · rw [horg]
        exact h.ticket k c l hc (hb ▸ hl)
      · rw [hh] at hl
        exact horg ▸ h.ticket k c l hc (by rw [hq]; exact hl)
      · exact absurd he (by simp)
  count about f hf := by
    have hcount : ({ m with callers := m.callers ++ [⟨org, force, .entering⟩] } : Machine).tickets
        about = m.tickets about := by
      simp [tickets, Phase.ticket?]
    rw [hcount]
    exact h.count about f hf
  lock_lt := h.lock_lt
  lock_inj := h.lock_inj

/-! ### Taking a ticket and giving it back -/

theorem tickets_setPhase (hc : m.callers[n]? = some c) (p : Phase) (org : String) :
    (m.setPhase n p).tickets org + (if c.org = org && c.phase.ticket?.isSome then 1 else 0) =
      m.tickets org + if c.org = org && p.ticket?.isSome then 1 else 0 :=
  countP_setPhase hc p _

theorem tickets_take {l : Nat} (hc : m.callers[n]? = some c) (hp : c.phase.ticket? = none)
    (hq : p.ticket? = some l) : (m.setPhase n p).tickets c.org = m.tickets c.org + 1 := by
  simpa [hp, hq] using tickets_setPhase hc p c.org

theorem tickets_drop {l : Nat} (hc : m.callers[n]? = some c) (hp : c.phase.ticket? = some l)
    (hq : p.ticket? = none) : (m.setPhase n p).tickets c.org + 1 = m.tickets c.org := by
  simpa [hp, hq] using tickets_setPhase hc p c.org

/-- Other organizations do not count what happens to a caller's ticket. -/
theorem tickets_setPhase_of_ne (hc : m.callers[n]? = some c) (p : Phase) (h : c.org ≠ org) :
    (m.setPhase n p).tickets org = m.tickets org := by
  simpa [h] using tickets_setPhase hc p org

theorem Ticketed.tickets_eq_zero (h : Ticketed m) (hf : m.flights.get? org = none) :
    m.tickets org = 0 := by
  refine List.countP_eq_zero.2 fun c hc hq ↦ ?_
  obtain ⟨k, hk⟩ := List.mem_iff_getElem?.1 hc
  simp only [Bool.and_eq_true, decide_eq_true_eq, Option.isSome_iff_exists] at hq
  obtain ⟨rfl, l, hl⟩ := hq
  have hlock := h.ticket k c l hk hl
  rw [flightLock?, hf] at hlock
  exact absurd hlock (by simp)

theorem flightLock?_eq {f : Flight} (hf : m.flights.get? org = some f) :
    m.flightLock? org = some f.lock := by
  rw [flightLock?, hf]
  rfl

/-- A caller comes to a phase, and only the flight of its organization changes. That flight has to
count its tickets, and all of them have to be for its lock, which no other flight has. -/
theorem Ticketed.update {m₁ : Machine} (h : Ticketed m) (hc : m.callers[n]? = some c)
    (hcallers : m₁.callers = m.callers) (hlocks : m.locks.length ≤ m₁.locks.length)
    (hother : ∀ about, c.org ≠ about → m₁.flights.get? about = m.flights.get? about)
    (hown : ∀ f, m₁.flights.get? c.org = some f → f.tickets = (m.setPhase n p).tickets c.org ∧
      0 < f.tickets ∧ f.lock < m₁.locks.length ∧
        ∀ about, c.org ≠ about → m.flightLock? about ≠ some f.lock)
    (hticket : ∀ (k : Nat) (c' : Caller) (l : Nat), (m.setPhase n p).callers[k]? = some c' →
      c'.org = c.org → c'.phase.ticket? = some l → m₁.flightLock? c.org = some l) :
    Ticketed (m₁.setPhase n p) := by
  have hsame : (m₁.setPhase n p).callers = (m.setPhase n p).callers := by
    rw [Machine.setPhase, Machine.setPhase, hcallers]
  have hlock : ∀ about, c.org ≠ about → m₁.flightLock? about = m.flightLock? about := by
    intro about hne
    rw [flightLock?, hother about hne, flightLock?]
  -- The lock of the flight that changes is the lock of no other.
  have hnew : ∀ about l, c.org ≠ about → m₁.flightLock? c.org = some l →
      m.flightLock? about ≠ some l := by
    intro about l hne hl
    obtain ⟨f, hf, rfl⟩ := Option.map_eq_some_iff.1 hl
    obtain ⟨-, -, -, hdisjoint⟩ := hown f hf
    exact hdisjoint about hne
  constructor
  · intro k c' l hk hl
    show m₁.flightLock? c'.org = some l
    rw [hsame] at hk
    by_cases heq : c.org = c'.org
    · rw [← heq]
      exact hticket k c' l hk heq.symm hl
    · have hn : n ≠ k := by
        rintro rfl
        rw [getElem?_setPhase_self hc] at hk
        exact heq (Option.some.inj hk ▸ rfl)
      rw [getElem?_setPhase_of_ne hn] at hk
      rw [hlock _ heq]
      exact h.ticket k c' l hk hl
  · intro about f hf
    change m₁.flights.get? about = some f at hf
    rw [tickets, hsame, ← tickets]
    by_cases heq : c.org = about
    · subst heq
      obtain ⟨hcount, hpos, -, -⟩ := hown f hf
      exact ⟨hcount, hpos⟩
    · rw [hother about heq] at hf
      rw [tickets_setPhase_of_ne hc p heq]
      exact h.count about f hf
  · intro about l hl
    change m₁.flightLock? about = some l at hl
    show l < m₁.locks.length
    by_cases heq : c.org = about
    · subst heq
      obtain ⟨f, hf, rfl⟩ := Option.map_eq_some_iff.1 hl
      obtain ⟨-, -, hlt, -⟩ := hown f hf
      exact hlt
    · rw [hlock about heq] at hl
      exact (h.lock_lt about l hl).trans_le hlocks
  · intro org₁ org₂ l h₁ h₂
    change m₁.flightLock? org₁ = some l at h₁
    change m₁.flightLock? org₂ = some l at h₂
    by_cases heq₁ : c.org = org₁
    · by_cases heq₂ : c.org = org₂
      · exact heq₁.symm.trans heq₂
      · rw [hlock org₂ heq₂] at h₂
        exact absurd h₂ (hnew org₂ l heq₂ (heq₁ ▸ h₁))
    · rw [hlock org₁ heq₁] at h₁
      by_cases heq₂ : c.org = org₂
      · exact absurd h₁ (hnew org₁ l heq₁ (heq₂ ▸ h₂))
      · rw [hlock org₂ heq₂] at h₂
        exact h.lock_inj org₁ org₂ l h₁ h₂

/-- A flight that keeps its lock, and whose tickets are counted again. -/
theorem Ticketed.recount {f f' : Flight} (h : Ticketed m) (hc : m.callers[n]? = some c)
    (hf : m.flights.get? c.org = some f) (hlock : f'.lock = f.lock)
    (hp : ∀ l, p.ticket? = some l → l = f.lock)
    (hcount : f'.tickets = (m.setPhase n p).tickets c.org) (hpos : 0 < f'.tickets) :
    Ticketed ({ m with flights := m.flights.insert c.org f' }.setPhase n p) := by
  have hflight := flightLock?_eq hf
  refine h.update hc rfl le_rfl (fun about hne ↦ OrderedMap.get?_insert_of_ne _ _ hne) ?_ ?_
  · intro g hg
    obtain rfl := Option.some.inj ((OrderedMap.get?_insert_self _ _ _).symm.trans hg)
    refine ⟨hcount, hpos, hlock ▸ h.lock_lt c.org f.lock hflight, fun about hne hl ↦ hne ?_⟩
    exact h.lock_inj c.org about f.lock hflight (hlock ▸ hl)
  · intro k c' l hk horg hl
    show ((m.flights.insert c.org f').get? c.org).map Flight.lock = _
    rw [OrderedMap.get?_insert_self, Option.map_some, hlock]
    by_cases hn : n = k
    · subst hn
      rw [getElem?_setPhase_self hc] at hk
      obtain rfl := Option.some.inj hk
      rw [hp l hl]
    · rw [getElem?_setPhase_of_ne hn] at hk
      have hold := h.ticket k c' l hk hl
      rw [horg, hflight] at hold
      exact hold

/-- A flight that is opened with a new lock, and with one ticket. -/
theorem Ticketed.launch {seen : Nat} (h : Ticketed m) (hc : m.callers[n]? = some c)
    (hp : c.phase = .checked seen) (hf : m.flights.get? c.org = none) :
    Ticketed ({ m with
      flights := m.flights.insert c.org ⟨m.locks.length, 1⟩
      locks := m.locks ++ [Lock.mk none []] }.setPhase n (.ticketed seen m.locks.length)) := by
  refine h.update hc rfl (by simp) (fun about hne ↦ OrderedMap.get?_insert_of_ne _ _ hne) ?_ ?_
  · intro g hg
    obtain rfl := Option.some.inj ((OrderedMap.get?_insert_self _ _ _).symm.trans hg)
    have hcount := tickets_take (p := .ticketed seen m.locks.length) hc (by rw [hp]; rfl) rfl
    rw [h.tickets_eq_zero hf] at hcount
    refine ⟨hcount.symm, Nat.one_pos, by simp, fun about _ hl ↦ ?_⟩
    -- A lock that was there before is not the new one.
    exact absurd (h.lock_lt about _ hl) (lt_irrefl _)
  · intro k c' l hk horg hl
    by_cases hn : n = k
    · subst hn
      rw [getElem?_setPhase_self hc] at hk
      obtain rfl := Option.some.inj hk
      obtain rfl := Option.some.inj hl
      show ((m.flights.insert c.org ⟨m.locks.length, 1⟩).get? c.org).map Flight.lock = _
      rw [OrderedMap.get?_insert_self]
      rfl
    · rw [getElem?_setPhase_of_ne hn] at hk
      have hold := h.ticket k c' l hk hl
      rw [horg, flightLock?, hf] at hold
      exact absurd hold (by simp)

/-- A flight that is closed with its last ticket. -/
theorem Ticketed.close {lock : Nat} {answer : Option Lookup} (h : Ticketed m)
    (hc : m.callers[n]? = some c) (hp : c.phase = .departing lock answer)
    (hf : ∀ f, m.flights.get? c.org = some f → f.tickets ≤ 1) :
    Ticketed ({ m with flights := m.flights.erase c.org }.setPhase n (.finished answer)) := by
  have hnone : (m.flights.erase c.org).get? c.org = none := OrderedMap.get?_erase_self _ _
  refine h.update hc rfl le_rfl (fun about hne ↦ ?_) ?_ ?_
  · exact (OrderedMap.get?_erase _ _ _).trans (if_neg hne)
  · intro g hg
    exact absurd (hnone.symm.trans hg) (by simp)
  · intro k c' l hk horg hl
    -- The ticket that is given back was the only one, so nobody is left with one for the flight.
    have hpos := tickets_pos hk hl
    have hcount := tickets_drop (p := .finished answer) hc (by rw [hp]; rfl) rfl
    obtain ⟨f, hget, -⟩ := Option.map_eq_some_iff.1 (h.ticket n c lock hc (by rw [hp]; rfl))
    obtain ⟨heq, -⟩ := h.count c.org f hget
    have hle := hf f hget
    rw [horg] at hpos
    omega

/-! ### Every step -/

/-- A caller that releases its lock goes on doing so when another one is given a lock. -/
theorem releasing_of_grant {lock : Nat} {answer : Option Lookup} (hc : m.callers[k]? = some c)
    (hp : c.phase = .releasing lock answer) :
    ∃ c', (m.grant n).callers[k]? = some c' ∧ c'.phase = .releasing lock answer := by
  obtain ⟨c', hc'⟩ : ∃ c', (m.grant n).callers[k]? = some c' := by
    simp [Machine.grant, List.getElem?_modify, hc]
  obtain ⟨c₁, hc₁, -, -, hphase⟩ := getElem?_grant hc'
  obtain rfl := Option.some.inj (hc.symm.trans hc₁)
  rcases hphase with hphase | ⟨_, _, hq, -⟩
  · exact ⟨c', hc', hphase.trans hp⟩
  · exact absurd (hp.symm.trans hq) (by simp)

/-- **Every step keeps the tickets.** A flight counts the callers that are in it, so each step that
lets one in or out has to count it. -/
theorem Ticketed.step (h : Ticketed m) (hs : Step m e m') : Ticketed m' := by
  cases hs with
  | call org force => exact h.call org force
  | tick ms => exact h.congr rfl rfl rfl
  | hit hc hp | miss hc hp | share hc hp | clear hc hp | abandon hc hp | send hc hp | lose hc hp
  | resign hc hp | record hc hp => exact h.setPhase rfl rfl rfl hc (by rw [hp]; rfl)
  | @join n seen c f hc hp hf =>
    refine h.recount hc hf rfl (fun l hl ↦ (Option.some.inj hl).symm) ?_ (Nat.succ_pos _)
    have hcount := tickets_take (p := .ticketed seen f.lock) hc (by rw [hp]; rfl) rfl
    rw [hcount, (h.count _ _ hf).1]
  | launch hc hp hf => exact h.launch hc hp hf
  | take hc hp | wait hc hp | withdraw hc hp | free hc hp =>
    exact h.setPhase rfl rfl (by simp [dequeue]) hc (by rw [hp]; rfl)
  | @pass n next lock c answer holder rest hc hp hl =>
    have hg : Ticketed ({ m with locks := m.locks.set lock ⟨some next, rest⟩ }.grant next) :=
      Ticketed.grant (h.congr rfl rfl (by simp))
    obtain ⟨c', hc', hphase⟩ := releasing_of_grant (n := next) hc hp
    exact hg.setPhase rfl rfl rfl hc' (by rw [hphase]; rfl)
  | @leave n lock c answer f hc hp hf ht =>
    refine h.recount hc hf rfl (fun l hl ↦ absurd hl (by simp [Phase.ticket?])) ?_ ?_
    · have hcount := tickets_drop (p := .finished answer) hc (by rw [hp]; rfl) rfl
      have heq := (h.count _ _ hf).1
      show f.tickets - 1 = _
      omega
    · exact Nat.sub_pos_of_lt ht
  | close hc hp hf => exact h.close hc hp hf

end Machine

end Licensing.Cache
