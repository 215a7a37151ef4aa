import Licensing.Cache.History
import Licensing.Proofs.Cache.Step
import Licensing.Proofs.Run

/-!
# Runs of the machine

Runs of the cache are proved about by induction (`run_induction`), with the rules of the last step.
The history of a run grows with its events (`history_append`).

The last part says what every step does to a single caller: its request stays what it was, and
only its phase changes.
-/

namespace Licensing.Cache.Machine

variable {m₀ m m' : Machine} {es es₁ es₂ : List Event} {e : Event} {n k : Nat}

/-! ### Runs -/

/-- Without events nothing happens. -/
@[simp] theorem run_nil : m.run [] = some m := rfl

/-- A run begins with its first event. -/
theorem run_cons : m.run (e :: es) = (m.step e).bind fun next ↦ next.run es := rfl

/-- A run of two lists of events goes through the machine between them. -/
theorem run_append : m.run (es₁ ++ es₂) = (m.run es₁).bind fun next ↦ next.run es₂ :=
  Run.append

/-- The last event of a run is a step from where the others lead. -/
theorem run_concat_iff :
    m₀.run (es ++ [e]) = some m' ↔ ∃ m, m₀.run es = some m ∧ m.step e = some m' :=
  Run.concat_iff

/-- **Induction along a run.** The last step is the one that counts. -/
theorem run_induction {P : List Event → Machine → Prop} (nil : P [] m₀)
    (concat : ∀ es e m m', m₀.run es = some m → P es m → Step m e m' → P (es ++ [e]) m')
    (h : m₀.run es = some m) : P es m :=
  Run.induction nil (fun es e m m' hr hP hs ↦ concat es e m m' hr hP (step_of_step hs)) h

/-- What a run brings about, one of its steps brings about. -/
theorem exists_step_of_run {P : Machine → Prop} (h : m₀.run es = some m) (h₀ : ¬ P m₀)
    (hm : P m) : ∃ es₁ e es₂ m₁ m₂, es = es₁ ++ e :: es₂ ∧ m₀.run es₁ = some m₁ ∧
      m₁.step e = some m₂ ∧ m₂.run es₂ = some m ∧ ¬ P m₁ ∧ P m₂ :=
  Run.exists_step h h₀ hm

/-! ### Histories -/

/-- Without events nothing is told. -/
@[simp] theorem history_nil : m.history [] = [] := rfl

/-- An event that can happen tells what its step tells, and then the rest is told. -/
theorem history_cons (h : m.step e = some m') :
    m.history (e :: es) = (m.signal? e).toList ++ m'.history es := by
  rw [history, h]

/-- Two lists of events that can happen one after another tell both their parts. -/
theorem history_append (h : m.run es₁ = some m') :
    m.history (es₁ ++ es₂) = m.history es₁ ++ m'.history es₂ := by
  induction es₁ generalizing m with
  | nil =>
    obtain rfl := Option.some.inj h
    rfl
  | cons e es₁ ih =>
    rw [run_cons] at h
    obtain ⟨next, hstep, hrun⟩ := Option.bind_eq_some_iff.1 h
    rw [List.cons_append, history_cons hstep, history_cons hstep, ih hrun, List.append_assoc]

/-- The last step of a run tells its part last. -/
theorem history_concat (h : m₀.run es = some m) (hs : Step m e m') :
    m₀.history (es ++ [e]) = m₀.history es ++ (m.signal? e).toList := by
  rw [history_append h, history_cons (step_of_rule hs), history_nil, List.append_nil]

/-- It also notes whose outcome it stored, if it stored one. -/
theorem storedOrgs_concat (h : m₀.run es = some m) (hs : Step m e m') :
    m₀.storedOrgs (es ++ [e]) =
      m₀.storedOrgs es ++ (m.signal? e).toList.filterMap Signal.stored? := by
  rw [storedOrgs, history_concat h hs, List.filterMap_append, ← storedOrgs]

/-! ### A caller after a step -/

/-- A caller that was set to a phase is in this phase, and otherwise as before. -/
theorem getElem?_setPhase_self {c : Caller} (hc : m.callers[n]? = some c) (p : Phase) :
    (m.setPhase n p).callers[n]? = some { c with phase := p } := by
  simp [setPhase, hc]

/-- The others are as before. -/
theorem getElem?_setPhase_of_ne (h : n ≠ k) (p : Phase) :
    (m.setPhase n p).callers[k]? = m.callers[k]? := by
  simp [setPhase, h]

/-- A caller that is given a lock held nothing else before. -/
theorem getElem?_grant {c' : Caller} (h : (m.grant n).callers[k]? = some c') :
    ∃ c, m.callers[k]? = some c ∧ c'.org = c.org ∧ c'.force = c.force ∧ (c'.phase = c.phase ∨
      ∃ seen lock, c.phase = .queued seen lock ∧ c'.phase = .holding seen lock) := by
  rw [grant, List.getElem?_modify] at h
  obtain ⟨c, hc, rfl⟩ := Option.map_eq_some_iff.1 h
  refine ⟨c, hc, ?_⟩
  by_cases hk : n = k
  · rw [if_pos hk]
    split
    · exact ⟨rfl, rfl, .inr ⟨_, _, ‹_›, rfl⟩⟩
    · exact ⟨rfl, rfl, .inl rfl⟩
  · rw [if_neg hk]
    exact ⟨rfl, rfl, .inl rfl⟩

/-- The phase that a move of its own brings a caller to. -/
inductive Turn (m : Machine) (c : Caller) : Move → Phase → Prop where
  | hit {l : Lookup} (hp : c.phase = .entering) (hf : c.force = false)
    (hl : m.lookup? c.org none = some l) : Turn m c .check (.finished (some l))
  | miss (hp : c.phase = .entering) (hl : c.force = true ∨ m.lookup? c.org none = none) :
    Turn m c .check (.checked m.store.generation)
  | join {seen : Nat} (hp : c.phase = .checked seen) (lock : Nat) :
    Turn m c .join (.ticketed seen lock)
  | take {seen lock : Nat} (hp : c.phase = .ticketed seen lock) :
    Turn m c .acquire (.holding seen lock)
  | wait {seen lock : Nat} (hp : c.phase = .ticketed seen lock) :
    Turn m c .acquire (.queued seen lock)
  | resign {seen lock : Nat} (hp : c.phase = .ticketed seen lock ∨ c.phase = .queued seen lock) :
    Turn m c .cancel (.departing lock none)
  | share {seen lock : Nat} {l : Lookup} (hp : c.phase = .holding seen lock)
    (hl : m.lookup? c.org (if c.force then some seen else none) = some l) :
    Turn m c .recheck (.releasing lock (some l))
  | clear {seen lock : Nat} (hp : c.phase = .holding seen lock)
    (hl : m.lookup? c.org (if c.force then some seen else none) = none) :
    Turn m c .recheck (.cleared lock)
  | abandon {seen lock : Nat} (hp : c.phase = .holding seen lock) :
    Turn m c .cancel (.releasing lock none)
  | send {lock : Nat} (hp : c.phase = .cleared lock) : Turn m c .fetch (.fetching lock)
  | record {lock : Nat} (hp : c.phase = .fetching lock) (o : Outcome) :
    Turn m c (.store o) (.releasing lock (some (m.store.record m.config m.now c.org o).2))
  | lose {lock : Nat} (hp : c.phase = .fetching lock) : Turn m c .cancel (.releasing lock none)
  | unlock {lock : Nat} {answer : Option Lookup} (hp : c.phase = .releasing lock answer) :
    Turn m c .unlock (.departing lock answer)
  | leave {lock : Nat} {answer : Option Lookup} (hp : c.phase = .departing lock answer) :
    Turn m c .leave (.finished answer)

/-- What a step may do to a caller: nothing, give it a lock, or bring it on by its own move. -/
def Becomes (m : Machine) (e : Event) (k : Nat) (c : Caller) (p : Phase) : Prop :=
  p = c.phase ∨ (∃ seen lock, c.phase = .queued seen lock ∧ p = .holding seen lock) ∨
    ∃ mv, e = .move k mv ∧ Turn m c mv p

/-- Who is done stays so. -/
theorem Becomes.finished {c : Caller} {answer : Option Lookup} {p : Phase} (hb : Becomes m e k c p)
    (hp : c.phase = .finished answer) : p = .finished answer := by
  rcases hb with hb | ⟨_, _, hq, -⟩ | ⟨mv, -, ht⟩
  · exact hb.trans hp
  · exact absurd (hp.symm.trans hq) (by simp)
  · cases ht with
    | resign hq => rcases hq with hq | hq <;> exact absurd (hp.symm.trans hq) (by simp)
    | hit hq | miss hq | join hq | take hq | wait hq | share hq | clear hq | abandon hq | send hq
    | record hq | lose hq | unlock hq | leave hq => exact absurd (hp.symm.trans hq) (by simp)

/-- A caller that does not move stays as it is. -/
theorem becomes_of_setPhase {m₁ : Machine} {c c' : Caller} {mv : Move} {p : Phase}
    (hm : m₁.callers = m.callers) (hc : m.callers[n]? = some c) (ht : Turn m c mv p)
    (hk : (m₁.setPhase n p).callers[k]? = some c') :
    ∃ c, m.callers[k]? = some c ∧ c'.org = c.org ∧ c'.force = c.force ∧
      Becomes m (.move n mv) k c c'.phase := by
  by_cases h : n = k
  · subst h
    rw [getElem?_setPhase_self (hm ▸ hc)] at hk
    obtain rfl := Option.some.inj hk
    exact ⟨c, hc, rfl, rfl, .inr (.inr ⟨mv, rfl, ht⟩)⟩
  · rw [getElem?_setPhase_of_ne h, hm] at hk
    exact ⟨c', hk, rfl, rfl, .inl rfl⟩

/-- **A caller after a step** has just started, or was there before with the same request. -/
theorem caller_of_step {c' : Caller} (h : Step m e m') (hk : m'.callers[k]? = some c') :
    (k = m.callers.length ∧ e = .call c'.org c'.force ∧ c'.phase = .entering) ∨
      ∃ c, m.callers[k]? = some c ∧ c'.org = c.org ∧ c'.force = c.force ∧
        Becomes m e k c c'.phase := by
  cases h with
  | call org force =>
    rcases Nat.lt_trichotomy k m.callers.length with hlt | rfl | hgt
    · rw [List.getElem?_append_left hlt] at hk
      exact .inr ⟨c', hk, rfl, rfl, .inl rfl⟩
    · rw [List.getElem?_concat_length] at hk
      obtain rfl := Option.some.inj hk
      exact .inl ⟨rfl, rfl, rfl⟩
    · rw [List.getElem?_eq_none (by simp; omega)] at hk
      exact absurd hk (by simp)
  | tick ms => exact .inr ⟨c', hk, rfl, rfl, .inl rfl⟩
  | hit hc hp hf hl => exact .inr (becomes_of_setPhase rfl hc (.hit hp hf hl) hk)
  | miss hc hp hl => exact .inr (becomes_of_setPhase rfl hc (.miss hp hl) hk)
  | join hc hp hf => exact .inr (becomes_of_setPhase rfl hc (.join hp _) hk)
  | launch hc hp hf => exact .inr (becomes_of_setPhase rfl hc (.join hp _) hk)
  | take hc hp hl => exact .inr (becomes_of_setPhase rfl hc (.take hp) hk)
  | wait hc hp hl => exact .inr (becomes_of_setPhase rfl hc (.wait hp) hk)
  | resign hc hp => exact .inr (becomes_of_setPhase rfl hc (.resign (.inl hp)) hk)
  | withdraw hc hp => exact .inr (becomes_of_setPhase rfl hc (.resign (.inr hp)) hk)
  | share hc hp hl => exact .inr (becomes_of_setPhase rfl hc (.share hp hl) hk)
  | clear hc hp hl => exact .inr (becomes_of_setPhase rfl hc (.clear hp hl) hk)
  | abandon hc hp => exact .inr (becomes_of_setPhase rfl hc (.abandon hp) hk)
  | send hc hp => exact .inr (becomes_of_setPhase rfl hc (.send hp) hk)
  | record hc hp o => exact .inr (becomes_of_setPhase rfl hc (.record hp o) hk)
  | lose hc hp => exact .inr (becomes_of_setPhase rfl hc (.lose hp) hk)
  | @pass n next lock c answer holder rest hc hp hl =>
    refine .inr ?_
    by_cases hn : n = k
    · -- The caller that passes the lock on: being granted a lock leaves it as it is.
      subst hn
      obtain ⟨c₁, hc₁⟩ : ∃ c₁, (m.grant next).callers[n]? = some c₁ := by
        simp [grant, List.getElem?_modify, hc]
      obtain ⟨c₂, hc₂, horg, hforce, -⟩ := getElem?_grant hc₁
      obtain rfl := Option.some.inj (hc.symm.trans hc₂)
      have hself := getElem?_setPhase_self
        (m := { m with locks := m.locks.set lock ⟨some next, rest⟩ }.grant next) hc₁
        (.departing lock answer)
      obtain rfl := Option.some.inj (hself.symm.trans hk)
      exact ⟨c, hc, horg, hforce, .inr (.inr ⟨_, rfl, .unlock hp⟩)⟩
    · rw [getElem?_setPhase_of_ne hn] at hk
      obtain ⟨c₁, hc₁, horg, hforce, hphase⟩ := getElem?_grant hk
      exact ⟨c₁, hc₁, horg, hforce, hphase.imp_right .inl⟩
  | free hc hp hl => exact .inr (becomes_of_setPhase rfl hc (.unlock hp) hk)
  | leave hc hp hf ht => exact .inr (becomes_of_setPhase rfl hc (.leave hp) hk)
  | close hc hp hf => exact .inr (becomes_of_setPhase rfl hc (.leave hp) hk)

/-- Callers are never forgotten. -/
theorem length_le_of_step (h : Step m e m') : m.callers.length ≤ m'.callers.length := by
  cases h <;> simp [dequeue]

/-- Only a caller that starts adds to the callers. -/
theorem length_eq_of_step (h : Step m e m') (he : ∀ org force, e ≠ .call org force) :
    m'.callers.length = m.callers.length := by
  cases h with
  | call org force => exact absurd rfl (he org force)
  | _ => simp [dequeue]

/-- A caller is there after a step, with the same request. -/
theorem exists_caller_of_step {c : Caller} (h : Step m e m') (hc : m.callers[k]? = some c) :
    ∃ c', m'.callers[k]? = some c' ∧ c'.org = c.org ∧ c'.force = c.force ∧
      Becomes m e k c c'.phase := by
  obtain ⟨hlt, -⟩ := List.getElem?_eq_some_iff.1 hc
  have hk := List.getElem?_eq_getElem (hlt.trans_le (length_le_of_step h))
  rcases caller_of_step h hk with ⟨rfl, -⟩ | ⟨c₁, hc₁, horg, hforce, hb⟩
  · exact absurd hlt (lt_irrefl _)
  · obtain rfl := Option.some.inj (hc.symm.trans hc₁)
    exact ⟨_, hk, horg, hforce, hb⟩

/-! ### What runs keep -/

/-- No step changes the configuration. -/
theorem config_of_step (h : Step m e m') : m'.config = m.config := by
  cases h <;> rfl

/-- Time does not run backwards in a step. -/
theorem now_le_of_step (h : Step m e m') : m.now ≤ m'.now := by
  cases h with
  | tick ms => exact Nat.le_add_right _ _
  | _ => exact le_rfl

/-- No run changes the configuration. -/
theorem config_of_run (h : m₀.run es = some m) : m.config = m₀.config :=
  run_induction (P := fun _ m ↦ m.config = m₀.config) rfl
    (fun _ _ _ _ _ ih hs ↦ (config_of_step hs).trans ih) h

/-- Time does not run backwards in a run. -/
theorem now_le_of_run (h : m₀.run es = some m) : m₀.now ≤ m.now :=
  run_induction (P := fun _ m ↦ m₀.now ≤ m.now) le_rfl
    (fun _ _ _ _ _ ih hs ↦ ih.trans (now_le_of_step hs)) h

/-- Callers are not forgotten in a run. -/
theorem length_le_of_run (h : m₀.run es = some m) : m₀.callers.length ≤ m.callers.length :=
  run_induction (P := fun _ m ↦ m₀.callers.length ≤ m.callers.length) le_rfl
    (fun _ _ _ _ _ ih hs ↦ ih.trans (length_le_of_step hs)) h

/-- A caller is there after a run, with the same request. -/
theorem exists_caller_of_run {c : Caller} (h : m₀.run es = some m)
    (hc : m₀.callers[k]? = some c) :
    ∃ c', m.callers[k]? = some c' ∧ c'.org = c.org ∧ c'.force = c.force := by
  refine run_induction (P := fun _ m ↦ ∃ c', m.callers[k]? = some c' ∧ c'.org = c.org ∧
    c'.force = c.force) ⟨c, hc, rfl, rfl⟩ ?_ h
  rintro es e m m' - ⟨c₁, hc₁, horg, hforce⟩ hs
  obtain ⟨c', hc', horg', hforce', -⟩ := exists_caller_of_step hs hc₁
  exact ⟨c', hc', horg'.trans horg, hforce'.trans hforce⟩

end Licensing.Cache.Machine
