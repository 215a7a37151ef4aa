import Licensing.Proofs.Cache.Tickets

/-!
# Locks

The lock of a flight knows who holds it and who waits for it. That this is the truth about the
callers (`Locked`) is kept by every step. A lock has one holder, so it is enough to follow who
holds and who waits for which lock: a move changes that for the caller that moves, and only when
a lock is passed on also for the one that gets it.
-/

namespace Licensing.Cache.Machine

variable {m m' : Machine} {n k l : Nat} {e : Event} {c : Caller} {p : Phase}

/-- The lock that a caller holds. -/
def held? (m : Machine) (caller : Nat) : Option Nat :=
  (m.phase? caller).bind Phase.held?

/-- The lock that a caller waits for. -/
def awaited? (m : Machine) (caller : Nat) : Option Nat :=
  (m.phase? caller).bind Phase.awaited?

/-! ### Who holds and who waits -/

/-- The phase of a caller, by its number. -/
theorem phase?_eq (hc : m.callers[n]? = some c) : m.phase? n = some c.phase := by
  rw [phase?, hc]
  rfl

/-- The lock that a caller holds is told by its phase. -/
theorem held?_eq (hc : m.callers[n]? = some c) : m.held? n = c.phase.held? := by
  rw [held?, phase?_eq hc]
  rfl

/-- So is the lock that it waits for. -/
theorem awaited?_eq (hc : m.callers[n]? = some c) : m.awaited? n = c.phase.awaited? := by
  rw [awaited?, phase?_eq hc]
  rfl

/-- Who holds a lock is a caller in such a phase. -/
theorem exists_caller_of_held? (h : m.held? k = some l) :
    ∃ c, m.callers[k]? = some c ∧ c.phase.held? = some l := by
  obtain ⟨p, hp, hl⟩ := Option.bind_eq_some_iff.1 h
  obtain ⟨c, hc, rfl⟩ := Option.map_eq_some_iff.1 hp
  exact ⟨c, hc, hl⟩

/-- Who waits for a lock is a caller in such a phase. -/
theorem exists_caller_of_awaited? (h : m.awaited? k = some l) :
    ∃ c, m.callers[k]? = some c ∧ c.phase.awaited? = some l := by
  obtain ⟨p, hp, hl⟩ := Option.bind_eq_some_iff.1 h
  obtain ⟨c, hc, rfl⟩ := Option.map_eq_some_iff.1 hp
  exact ⟨c, hc, hl⟩

/-- Only the caller that was meant is in another phase then. -/
theorem phase?_setPhase (hc : m.callers[n]? = some c) (p : Phase) (k : Nat) :
    (m.setPhase n p).phase? k = if n = k then some p else m.phase? k := by
  rw [phase?]
  split
  · rename_i h
    subst h
    rw [getElem?_setPhase_self hc]
    rfl
  · rw [getElem?_setPhase_of_ne ‹_›]
    rfl

/-- So only this one can hold another lock than before. -/
theorem held?_setPhase (hc : m.callers[n]? = some c) (p : Phase) (k : Nat) :
    (m.setPhase n p).held? k = if n = k then p.held? else m.held? k := by
  rw [held?, phase?_setPhase hc]
  split <;> rfl

/-- Only this one can wait for another lock than before. -/
theorem awaited?_setPhase (hc : m.callers[n]? = some c) (p : Phase) (k : Nat) :
    (m.setPhase n p).awaited? k = if n = k then p.awaited? else m.awaited? k := by
  rw [awaited?, phase?_setPhase hc]
  split <;> rfl

/-- A caller that is given the lock it waits for holds it. -/
theorem phase?_grant {seen : Nat} (hc : m.callers[n]? = some c) (hp : c.phase = .queued seen l)
    (k : Nat) : (m.grant n).phase? k = if n = k then some (.holding seen l) else m.phase? k := by
  rw [phase?, grant, List.getElem?_modify]
  split
  · rename_i h
    subst h
    simp [hc, hp]
  · simp [phase?]

/-- A caller that comes is at its beginning, and the others are where they were. -/
theorem phase?_call (org : String) (force : Bool) (k : Nat) :
    ({ m with callers := m.callers ++ [⟨org, force, .entering⟩] } : Machine).phase? k =
      if k = m.callers.length then some .entering else m.phase? k := by
  rw [phase?, phase?, List.getElem?_append]
  split
  · rename_i h
    rw [if_neg h.ne]
  · split
    · rename_i h
      simp [h]
    · rw [List.getElem?_eq_none (by simp; omega), List.getElem?_eq_none (by omega)]

/-! ### The invariant -/

/-- A lock is right about who holds it and who waits for it. -/
structure Guards (m : Machine) (l : Nat) (lock : Lock) : Prop where
  /-- Its holder is the one caller that holds it. -/
  holder : ∀ k, lock.holder = some k ↔ m.held? k = some l
  /-- Those in its queue are the callers that wait for it. -/
  queue : ∀ k, k ∈ lock.queue ↔ m.awaited? k = some l
  /-- Nobody stands in the queue twice. -/
  nodup : lock.queue.Nodup
  /-- Nobody waits for a free lock. -/
  free : lock.holder = none → lock.queue = []

/-- All locks are right. -/
def Locked (m : Machine) : Prop :=
  ∀ l lock, m.locks[l]? = some lock → m.Guards l lock

/-- At the start there are no locks to keep in order. -/
theorem locked_start (cfg : Config) : Locked (start cfg) := by
  intro l lock h
  simp [start] at h

/-- A lock is right as long as nobody else holds it or waits for it. -/
theorem Guards.congr {lock : Lock} (h : m.Guards l lock)
    (hh : ∀ k, m'.held? k = some l ↔ m.held? k = some l)
    (ha : ∀ k, m'.awaited? k = some l ↔ m.awaited? k = some l) : m'.Guards l lock where
  holder k := (h.holder k).trans (hh k).symm
  queue k := (h.queue k).trans (ha k).symm
  nodup := h.nodup
  free := h.free

/-- The locks stay in order when neither they change nor who holds and awaits them. -/
theorem Locked.congr (h : Locked m) (hl : m'.locks = m.locks) (hh : ∀ k, m'.held? k = m.held? k)
    (ha : ∀ k, m'.awaited? k = m.awaited? k) : Locked m' := by
  intro l lock hlock
  rw [hl] at hlock
  exact (h l lock hlock).congr (fun k ↦ by rw [hh]) (fun k ↦ by rw [ha])

/-- A caller that holds and waits for what it did before. -/
theorem Locked.setPhase {m₁ : Machine} (h : Locked m) (hcallers : m₁.callers = m.callers)
    (hlocks : m₁.locks = m.locks) (hc : m.callers[n]? = some c)
    (hh : p.held? = c.phase.held?) (ha : p.awaited? = c.phase.awaited?) :
    Locked (m₁.setPhase n p) := by
  refine h.congr hlocks (fun k ↦ ?_) (fun k ↦ ?_)
  · rw [held?_setPhase (hcallers ▸ hc)]
    split
    · rename_i heq
      rw [hh, ← heq, held?_eq hc]
    · rw [held?, phase?, hcallers]
      rfl
  · rw [awaited?_setPhase (hcallers ▸ hc)]
    split
    · rename_i heq
      rw [ha, ← heq, awaited?_eq hc]
    · rw [awaited?, phase?, hcallers]
      rfl

/-- They stay so when a caller comes, which has none. -/
theorem Locked.call (h : Locked m) (org : String) (force : Bool) :
    Locked { m with callers := m.callers ++ [⟨org, force, .entering⟩] } := by
  have hnone : m.phase? m.callers.length = none := by simp [phase?]
  refine h.congr rfl (fun k ↦ ?_) (fun k ↦ ?_)
  · rw [held?, phase?_call, held?]
    split
    · rename_i heq
      rw [heq, hnone]
      rfl
    · rfl
  · rw [awaited?, phase?_call, awaited?]
    split
    · rename_i heq
      rw [heq, hnone]
      rfl
    · rfl

/-! ### Locks that have been made -/

/-- A lock that somebody holds has been made. -/
theorem Ticketed.held?_lt (h : Ticketed m) (hk : m.held? k = some l) : l < m.locks.length := by
  obtain ⟨c, hc, hl⟩ := exists_caller_of_held? hk
  exact h.lock_lt _ _ (h.ticket k c l hc (Phase.ticket?_of_held? hl))

/-- A lock that somebody waits for has been made. -/
theorem Ticketed.awaited?_lt (h : Ticketed m) (hk : m.awaited? k = some l) :
    l < m.locks.length := by
  obtain ⟨c, hc, hl⟩ := exists_caller_of_awaited? hk
  exact h.lock_lt _ _ (h.ticket k c l hc (Phase.ticket?_of_awaited? hl))

/-- Nobody holds a new lock or waits for it. -/
theorem Locked.newLock (h : Locked m) (ht : Ticketed m) :
    Locked { m with locks := m.locks ++ [⟨none, []⟩] } := by
  intro l lock hl
  rcases Nat.lt_trichotomy l m.locks.length with hlt | rfl | hgt
  · rw [List.getElem?_append_left hlt] at hl
    exact (h l lock hl).congr (fun _ ↦ Iff.rfl) fun _ ↦ Iff.rfl
  · rw [List.getElem?_concat_length] at hl
    obtain rfl := Option.some.inj hl
    refine ⟨fun k ↦ ?_, fun k ↦ ?_, List.nodup_nil, fun _ ↦ rfl⟩
    · refine iff_of_false (by simp) fun hk ↦ ?_
      exact absurd (ht.held?_lt (m := m) hk) (lt_irrefl _)
    · refine iff_of_false (by simp) fun hk ↦ ?_
      exact absurd (ht.awaited?_lt (m := m) hk) (lt_irrefl _)
  · rw [List.getElem?_eq_none (by simp; omega)] at hl
    exact absurd hl (by simp)

/-! ### Steps that change a lock -/

/-- Only one lock changes, and who holds and awaits the others does not. -/
theorem Locked.update (h : Locked m) (hlocks : ∀ j, l ≠ j → m'.locks[j]? = m.locks[j]?)
    (hh : ∀ j k, l ≠ j → (m'.held? k = some j ↔ m.held? k = some j))
    (ha : ∀ j k, l ≠ j → (m'.awaited? k = some j ↔ m.awaited? k = some j))
    (hl : ∀ lock, m'.locks[l]? = some lock → m'.Guards l lock) : Locked m' := by
  intro j lock hj
  by_cases heq : l = j
  · exact heq ▸ hl lock (heq ▸ hj)
  · rw [hlocks j heq] at hj
    exact (h j lock hj).congr (hh j · heq) (ha j · heq)

/-- What a lock has to be like when a caller comes to a phase. -/
structure Guards.After (m : Machine) (n : Nat) (p : Phase) (l : Nat) (lock : Lock) : Prop where
  /-- Its holder is the caller if that holds it now, or the one that held it before. -/
  holder : ∀ k, lock.holder = some k ↔ if n = k then p.held? = some l else m.held? k = some l
  /-- Those in its queue waited for it before, the caller apart. -/
  queue : ∀ k, k ∈ lock.queue ↔ if n = k then p.awaited? = some l else m.awaited? k = some l
  /-- Nobody stands in the queue twice. -/
  nodup : lock.queue.Nodup
  /-- Nobody waits for a free lock. -/
  free : lock.holder = none → lock.queue = []

/-- A caller goes on with its ticket, and only the lock that the ticket is for changes. -/
theorem Locked.goOn {m₁ : Machine} (h : Locked m) (hc : m.callers[n]? = some c)
    (hbefore : c.phase.ticket? = some l) (hafter : p.ticket? = some l)
    (hcallers : m₁.callers = m.callers) (hlocks : ∀ j, l ≠ j → m₁.locks[j]? = m.locks[j]?)
    (hl : ∀ lock, m₁.locks[l]? = some lock → Guards.After m n p l lock) :
    Locked (m₁.setPhase n p) := by
  have held : ∀ k, (m₁.setPhase n p).held? k = if n = k then p.held? else m.held? k := by
    intro k
    rw [held?_setPhase (hcallers ▸ hc), held?, phase?, hcallers, ← phase?, ← held?]
  have awaited : ∀ k,
      (m₁.setPhase n p).awaited? k = if n = k then p.awaited? else m.awaited? k := by
    intro k
    rw [awaited?_setPhase (hcallers ▸ hc), awaited?, phase?, hcallers, ← phase?, ← awaited?]
  refine h.update (l := l) hlocks (fun j k hj ↦ ?_) (fun j k hj ↦ ?_) fun lock hlock ↦ ?_
  · rw [held]
    split
    · rename_i heq
      subst heq
      rw [held?_eq hc]
      refine iff_of_false (fun hk ↦ hj ?_) fun hk ↦ hj ?_
      · exact Option.some.inj (hafter.symm.trans (Phase.ticket?_of_held? hk))
      · exact Option.some.inj (hbefore.symm.trans (Phase.ticket?_of_held? hk))
    · exact Iff.rfl
  · rw [awaited]
    split
    · rename_i heq
      subst heq
      rw [awaited?_eq hc]
      refine iff_of_false (fun hk ↦ hj ?_) fun hk ↦ hj ?_
      · exact Option.some.inj (hafter.symm.trans (Phase.ticket?_of_awaited? hk))
      · exact Option.some.inj (hbefore.symm.trans (Phase.ticket?_of_awaited? hk))
    · exact Iff.rfl
  · obtain ⟨holder, queue, nodup, free⟩ := hl lock hlock
    refine ⟨fun k ↦ ?_, fun k ↦ ?_, nodup, free⟩
    · rw [holder, held]
      split <;> exact Iff.rfl
    · rw [queue, awaited]
      split <;> exact Iff.rfl

/-- They stay so when a caller takes a lock that is free. -/
theorem Locked.take {seen : Nat} {queue : List Nat} (h : Locked m) (hc : m.callers[n]? = some c)
    (hp : c.phase = .ticketed seen l) (hl : m.locks[l]? = some ⟨none, queue⟩) :
    Locked ({ m with locks := m.locks.modify l fun lock ↦ { lock with holder := some n } }.setPhase
      n (.holding seen l)) := by
  obtain ⟨holder, queue_iff, nodup, -⟩ := h l _ hl
  have hawaited : m.awaited? n = none := by rw [awaited?_eq hc, hp]; rfl
  refine h.goOn hc (by rw [hp]; rfl) rfl rfl (fun j hj ↦ by simp [hj]) fun lock hlock ↦ ?_
  rw [List.getElem?_modify_eq, hl] at hlock
  obtain rfl := Option.some.inj hlock
  constructor
  · intro k
    -- Nobody held the lock before.
    have hfree := (holder k).not.1 (by simp)
    grind [Phase.held?]
  · intro k
    grind [Phase.awaited?]
  · exact nodup
  · intro hnone
    exact absurd hnone (by simp)

/-- They stay so when a caller queues for a lock that somebody holds. -/
theorem Locked.wait {seen : Nat} (h : Locked m) (hc : m.callers[n]? = some c)
    (hp : c.phase = .ticketed seen l) (hl : ∀ queue, m.locks[l]? ≠ some ⟨none, queue⟩) :
    Locked ({ m with locks := m.locks.modify l fun lock ↦
      { lock with queue := lock.queue ++ [n] } }.setPhase n (.queued seen l)) := by
  have hheld : m.held? n = none := by rw [held?_eq hc, hp]; rfl
  have hawaited : m.awaited? n = none := by rw [awaited?_eq hc, hp]; rfl
  refine h.goOn hc (by rw [hp]; rfl) rfl rfl (fun j hj ↦ by simp [hj]) fun lock hlock ↦ ?_
  rw [List.getElem?_modify_eq] at hlock
  obtain ⟨⟨holder, queue⟩, hold, rfl⟩ := Option.map_eq_some_iff.1 hlock
  obtain ⟨holder_iff, queue_iff, nodup, -⟩ := h l _ hold
  constructor
  · intro k
    grind [Phase.held?]
  · intro k
    grind [Phase.awaited?]
  · have hn : n ∉ queue := by simp [queue_iff, hawaited]
    exact nodup.append (List.nodup_singleton n) (by simpa using hn)
  · intro hnone
    obtain rfl : holder = none := hnone
    exact absurd hold (hl queue)

/-- They stay so when a caller gives up its place in a queue. -/
theorem Locked.withdraw {seen : Nat} {answer : Option Lookup} (h : Locked m)
    (hc : m.callers[n]? = some c) (hp : c.phase = .queued seen l) :
    Locked ((m.dequeue n l).setPhase n (.departing l answer)) := by
  have hheld : m.held? n = none := by rw [held?_eq hc, hp]; rfl
  refine h.goOn hc (by rw [hp]; rfl) rfl rfl (fun j hj ↦ by simp [dequeue, hj])
    fun lock hlock ↦ ?_
  rw [dequeue, List.getElem?_modify_eq] at hlock
  obtain ⟨⟨holder, queue⟩, hold, rfl⟩ := Option.map_eq_some_iff.1 hlock
  obtain ⟨holder_iff, queue_iff, nodup, free⟩ := h l _ hold
  constructor
  · intro k
    grind [Phase.held?]
  · intro k
    grind [Phase.awaited?]
  · exact nodup.filter _
  · intro hnone
    have hnil : queue = [] := free hnone
    simp [hnil]

/-- A lock for which nobody waits becomes free. -/
theorem Locked.free {answer : Option Lookup} (h : Locked m) (hc : m.callers[n]? = some c)
    (hp : c.phase = .releasing l answer)
    (hl : ∀ holder k rest, m.locks[l]? ≠ some ⟨holder, k :: rest⟩) :
    Locked ({ m with locks := m.locks.set l ⟨none, []⟩ }.setPhase n (.departing l answer)) := by
  have hheld : m.held? n = some l := by rw [held?_eq hc, hp]; rfl
  refine h.goOn hc (by rw [hp]; rfl) rfl rfl (fun j hj ↦ by simp [hj]) fun lock hlock ↦ ?_
  have hlt : l < m.locks.length := by
    simpa using (List.getElem?_eq_some_iff.1 hlock).1
  simp only [List.getElem?_set_self hlt, Option.some.injEq] at hlock
  subst hlock
  obtain ⟨⟨holder, queue⟩, hget⟩ : ∃ lock, m.locks[l]? = some lock :=
    ⟨_, List.getElem?_eq_getElem hlt⟩
  obtain ⟨holder_iff, queue_iff, -, -⟩ := h l _ hget
  have hnil : queue = [] := by
    cases queue with
    | nil => rfl
    | cons k rest => exact absurd hget (hl _ _ _)
  constructor
  · intro k
    -- The caller was the only holder.
    have hholder : holder = some n := (holder_iff n).2 hheld
    grind [Phase.held?]
  · intro k
    grind [Phase.awaited?]
  · exact List.nodup_nil
  · exact fun _ ↦ rfl

/-- A lock is passed on: its holder lets go of it, and the first that waits holds it. -/
theorem Locked.pass {answer : Option Lookup} {holder : Option Nat} {rest : List Nat}
    (h : Locked m) (hc : m.callers[n]? = some c) (hp : c.phase = .releasing l answer)
    (hl : m.locks[l]? = some ⟨holder, k :: rest⟩) :
    Locked (({ m with locks := m.locks.set l ⟨some k, rest⟩ }.grant k).setPhase n
      (.departing l answer)) := by
  obtain ⟨holder_iff, queue_iff, nodup, -⟩ := h l _ hl
  have hheld : m.held? n = some l := by rw [held?_eq hc, hp]; rfl
  have hawaited : m.awaited? n = none := by rw [awaited?_eq hc, hp]; rfl
  have hk : m.awaited? k = some l := (queue_iff k).1 List.mem_cons_self
  obtain ⟨c₁, hc₁, hq⟩ := exists_caller_of_awaited? hk
  obtain ⟨seen, hq⟩ : ∃ seen, c₁.phase = .queued seen l := by
    cases hp₁ : c₁.phase <;> simp_all [Phase.awaited?]
  obtain ⟨c', hc', -⟩ := releasing_of_grant (n := k) hc hp
  have hphase : ∀ i, ((m.grant k).setPhase n (.departing l answer)).phase? i =
      if n = i then some (.departing l answer)
      else if k = i then some (.holding seen l) else m.phase? i := by
    intro i
    rw [phase?_setPhase hc', phase?_grant hc₁ hq]
  have held : ∀ i, ((m.grant k).setPhase n (.departing l answer)).held? i =
      if n = i then none else if k = i then some l else m.held? i := by
    intro i
    rw [held?, hphase, held?]
    split <;> [rfl; split <;> rfl]
  have awaited : ∀ i, ((m.grant k).setPhase n (.departing l answer)).awaited? i =
      if n = i then none else if k = i then none else m.awaited? i := by
    intro i
    rw [awaited?, hphase, awaited?]
    split <;> [rfl; split <;> rfl]
  -- Who waits for a lock holds none.
  have hkheld : m.held? k = none := by rw [held?_eq hc₁, hq]; rfl
  refine h.update (l := l) (fun j hj ↦ by simp [hj]) ?_ ?_ ?_
  · intro j i hj
    change ((m.grant k).setPhase n _).held? i = some j ↔ _
    grind
  · intro j i hj
    change ((m.grant k).setPhase n _).awaited? i = some j ↔ _
    grind
  · intro lock hlock
    obtain ⟨hlt, -⟩ := List.getElem?_eq_some_iff.1 hl
    simp only [setPhase_locks, grant_locks, List.getElem?_set_self hlt, Option.some.injEq] at hlock
    subst hlock
    constructor
    · intro i
      change _ ↔ ((m.grant k).setPhase n _).held? i = some l
      grind
    · intro i
      change _ ↔ ((m.grant k).setPhase n _).awaited? i = some l
      grind
    · exact nodup.of_cons
    · intro hnone
      exact absurd hnone (by simp)

/-! ### Every step -/

/-- **Every step keeps the locks.** Each kind of step has a lemma above; what remains is to say
which step is of which kind. -/
theorem Locked.step (h : Locked m) (ht : Ticketed m) (hs : Step m e m') : Locked m' := by
  cases hs with
  | call org force => exact h.call org force
  | tick ms => exact h.congr rfl (fun _ ↦ rfl) fun _ ↦ rfl
  | hit hc hp | miss hc hp | share hc hp | clear hc hp | abandon hc hp | send hc hp | lose hc hp
  | resign hc hp | join hc hp | record hc hp | leave hc hp | close hc hp =>
    exact h.setPhase rfl rfl hc (by rw [hp]; rfl) (by rw [hp]; rfl)
  | launch hc hp hf => exact (h.newLock ht).setPhase rfl rfl hc (by rw [hp]; rfl) (by rw [hp]; rfl)
  | take hc hp hl => exact h.take hc hp hl
  | wait hc hp hl => exact h.wait hc hp hl
  | withdraw hc hp => exact h.withdraw hc hp
  | pass hc hp hl => exact h.pass hc hp hl
  | free hc hp hl => exact h.free hc hp hl

end Licensing.Cache.Machine
