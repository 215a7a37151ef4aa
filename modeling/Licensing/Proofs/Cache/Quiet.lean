import Licensing.Proofs.Cache.Alone
import Licensing.Proofs.Cache.SingleFlight

/-!
# A caller that finds the others done

When all other callers are done, a caller never waits for a lock: it goes on until it has its
answer, at most with one request in between (`Quiet.exists_ask`). The argument is that the lock of
its flight is free, as only callers that are not done hold locks, and that every step brings it
closer to its end (`Alone.exists_step`).
-/

namespace Licensing.Cache

/-! ### How far it is to an answer -/

namespace Phase

/-- How many steps a caller is away from its end. -/
def stepsLeft : Phase → Nat
  | .entering => 8
  | .checked _ => 7
  | .ticketed .. | .queued .. => 6
  | .holding .. => 5
  | .cleared _ => 4
  | .fetching _ => 3
  | .releasing .. => 2
  | .departing .. => 1
  | .finished _ => 0

/-- A caller neither waits for a lock nor was cancelled. -/
def isDue : Phase → Bool
  | .queued .. | .releasing _ none | .departing _ none | .finished none => false
  | _ => true

end Phase

namespace Machine

variable {m m₁ : Machine} {n k l : Nat} {p p' : Phase} {c : Caller} {mv : Move}

/-- All callers but one are done. -/
structure Alone (m : Machine) (n : Nat) (p : Phase) : Prop where
  /-- The flights and the locks are right. -/
  coherent : Coherent m
  /-- The one has come this far. -/
  phase : m.phase? n = some p
  /-- The others are done. -/
  others : ∀ k q, k ≠ n → m.phase? k = some q → ∃ answer, q = .finished answer

/-- All callers are done. -/
structure Quiet (m : Machine) : Prop where
  /-- The flights and the locks are right. -/
  coherent : Coherent m
  /-- Everybody is done. -/
  done : ∀ k q, m.phase? k = some q → ∃ answer, q = .finished answer

theorem quiet_start (cfg : Config) : Quiet (start cfg) :=
  ⟨coherent_start cfg, fun k q h ↦ absurd h (by simp [phase?, start])⟩

theorem Alone.exists_caller (h : Alone m n p) : ∃ c, m.callers[n]? = some c ∧ c.phase = p :=
  Option.map_eq_some_iff.1 h.phase

/-- Nobody else holds a lock. -/
theorem Alone.held?_eq (h : Alone m n p) (hk : m.held? k = some l) : k = n := by
  by_contra hne
  obtain ⟨c, hc, hl⟩ := exists_caller_of_held? hk
  obtain ⟨answer, hp⟩ := h.others k c.phase hne (phase?_eq hc)
  rw [hp] at hl
  exact absurd hl (by simp [Phase.held?])

/-- Nobody else waits for a lock. -/
theorem Alone.awaited?_eq (h : Alone m n p) (hk : m.awaited? k = some l) : k = n := by
  by_contra hne
  obtain ⟨c, hc, hl⟩ := exists_caller_of_awaited? hk
  obtain ⟨answer, hp⟩ := h.others k c.phase hne (phase?_eq hc)
  rw [hp] at hl
  exact absurd hl (by simp [Phase.awaited?])

/-- The caller comes to another phase, and nobody else does anything. -/
theorem Alone.setPhase (h : Alone m n p) (hm : Coherent (m₁.setPhase n p'))
    (hcallers : m₁.callers = m.callers) : Alone (m₁.setPhase n p') n p' := by
  obtain ⟨c, hc, -⟩ := h.exists_caller
  have hphase : ∀ k, (m₁.setPhase n p').phase? k = if n = k then some p' else m.phase? k := by
    intro k
    rw [phase?_setPhase (hcallers ▸ hc), phase?, hcallers, ← phase?]
  refine ⟨hm, by rw [hphase, if_pos rfl], fun k q hne hq ↦ ?_⟩
  rw [hphase, if_neg fun heq ↦ hne heq.symm] at hq
  exact h.others k q hne hq

/-- The lock that the caller has a ticket for is free. -/
theorem Alone.exists_lock {seen : Nat} (h : Alone m n (.ticketed seen l)) :
    ∃ queue, m.locks[l]? = some ⟨none, queue⟩ := by
  obtain ⟨c, hc, hp⟩ := h.exists_caller
  obtain ⟨-, ⟨holder, queue⟩, hlock⟩ := h.coherent.exists_lock hc (l := l) (by rw [hp]; rfl)
  cases holder with
  | none => exact ⟨queue, hlock⟩
  | some k =>
    have hheld := ((h.coherent.locked l _ hlock).holder k).1 rfl
    obtain rfl := h.held?_eq hheld
    rw [Machine.held?_eq hc, hp] at hheld
    exact absurd hheld (by simp [Phase.held?])

/-- Nobody waits for the lock that the caller lets go of. -/
theorem Alone.ne_queue {answer : Option Lookup} (h : Alone m n (.releasing l answer)) :
    ∀ holder k rest, m.locks[l]? ≠ some ⟨holder, k :: rest⟩ := by
  intro holder k rest hlock
  obtain ⟨c, hc, hp⟩ := h.exists_caller
  have hawaited := ((h.coherent.locked l _ hlock).queue k).1 List.mem_cons_self
  obtain rfl := h.awaited?_eq hawaited
  rw [Machine.awaited?_eq hc, hp] at hawaited
  exact absurd hawaited (by simp [Phase.awaited?])

/-- **Every step brings the caller closer to its end**, as it never has to wait. -/
theorem Alone.exists_step (h : Alone m n p) (hdue : p.isDue = true)
    (hmv : ownMove? p = some mv) :
    ∃ m' p', m.step (.move n mv) = some m' ∧ Alone m' n p' ∧ p'.isDue = true ∧
      p'.stepsLeft < p.stepsLeft := by
  obtain ⟨c, hc, hp⟩ := h.exists_caller
  -- Each step is a rule that changes nothing about callers but the phase of this one.
  have hrule : ∀ {m₁ : Machine} {p' : Phase}, Step m (.move n mv) (m₁.setPhase n p') →
      m₁.callers = m.callers → p'.isDue = true → p'.stepsLeft < p.stepsLeft →
        ∃ m' p', m.step (.move n mv) = some m' ∧ Alone m' n p' ∧ p'.isDue = true ∧
          p'.stepsLeft < p.stepsLeft :=
    fun hs hcallers hdue' hleft ↦
      ⟨_, _, step_of_rule hs, h.setPhase (h.coherent.step hs) hcallers, hdue', hleft⟩
  cases p with
  | entering =>
    obtain rfl := Option.some.inj hmv
    by_cases hforce : c.force = true
    · exact hrule (.miss hc hp (.inl hforce)) rfl rfl (by simp [Phase.stepsLeft])
    cases hl : m.lookup? c.org none with
    | none => exact hrule (.miss hc hp (.inr hl)) rfl rfl (by simp [Phase.stepsLeft])
    | some l =>
      have hf : c.force = false := by simpa using hforce
      exact hrule (.hit hc hp hf hl) rfl rfl (by simp [Phase.stepsLeft])
  | checked seen =>
    obtain rfl := Option.some.inj hmv
    cases hf : m.flights.get? c.org with
    | none => exact hrule (.launch hc hp hf) rfl rfl (by simp [Phase.stepsLeft])
    | some f => exact hrule (.join hc hp hf) rfl rfl (by simp [Phase.stepsLeft])
  | ticketed seen l =>
    obtain rfl := Option.some.inj hmv
    obtain ⟨queue, hlock⟩ := h.exists_lock
    exact hrule (.take hc hp hlock) rfl rfl (by simp [Phase.stepsLeft])
  | holding seen l =>
    obtain rfl := Option.some.inj hmv
    cases hl : m.lookup? c.org (if c.force then some seen else none) with
    | none => exact hrule (.clear hc hp hl) rfl rfl (by simp [Phase.stepsLeft])
    | some l => exact hrule (.share hc hp hl) rfl rfl (by simp [Phase.stepsLeft])
  | cleared l =>
    obtain rfl := Option.some.inj hmv
    exact hrule (.send hc hp) rfl rfl (by simp [Phase.stepsLeft])
  | releasing l answer =>
    obtain rfl := Option.some.inj hmv
    cases answer with
    | none => cases hdue
    | some a => exact hrule (.free hc hp h.ne_queue) rfl rfl (by simp [Phase.stepsLeft])
  | departing l answer =>
    obtain rfl := Option.some.inj hmv
    cases answer with
    | none => cases hdue
    | some a =>
      by_cases ht : ∀ f, m.flights.get? c.org = some f → f.tickets ≤ 1
      · exact hrule (.close hc hp ht) rfl rfl (by simp [Phase.stepsLeft])
      · obtain ⟨f, hf, ht⟩ : ∃ f, m.flights.get? c.org = some f ∧ ¬f.tickets ≤ 1 := by
          simpa using ht
        exact hrule (.leave hc hp hf (Nat.lt_of_not_le ht)) rfl rfl (by simp [Phase.stepsLeft])
  | queued | fetching | finished => cases hmv

/-! ### Going on to the end -/

theorem Alone.exists_proceed (steps : Nat) (h : Alone m n p) (hdue : p.isDue = true)
    (hsteps : p.stepsLeft ≤ steps) :
    ∃ p', Alone (proceed n steps m) n p' ∧ p'.isDue = true ∧ ownMove? p' = none ∧
      p'.stepsLeft ≤ p.stepsLeft := by
  induction steps generalizing m p with
  | zero =>
    refine ⟨p, h, hdue, ?_, le_rfl⟩
    cases p <;> simp_all [Phase.stepsLeft, ownMove?]
  | succ steps ih =>
    rw [proceed, h.phase, Option.bind_some]
    cases hmv : ownMove? p with
    | none => exact ⟨p, h, hdue, hmv, le_rfl⟩
    | some mv =>
      obtain ⟨m', p', hstep, halone, hdue', hlt⟩ := h.exists_step hdue hmv
      simp only [hstep]
      obtain ⟨q, hq, hqdue, hqmv, hle⟩ := ih halone hdue' (by omega)
      exact ⟨q, hq, hqdue, hqmv, by omega⟩

/-- A caller that neither waits for a lock nor goes on by itself has its answer, or a request of
it is out. -/
theorem Phase.eq_of_isDue (hdue : p.isDue = true) (hmv : ownMove? p = none) :
    (∃ l, p = .finished (some l)) ∨ ∃ l, p = .fetching l := by
  cases p with
  | finished answer =>
    cases answer with
    | none => cases hdue
    | some l => exact .inl ⟨l, rfl⟩
  | fetching l => exact .inr ⟨l, rfl⟩
  | queued => cases hdue
  | _ => cases hmv

theorem Alone.quiet {answer : Option Lookup} (h : Alone m n (.finished answer)) : Quiet m := by
  refine ⟨h.coherent, fun k q hq ↦ ?_⟩
  by_cases hk : k = n
  · subst hk
    exact ⟨answer, Option.some.inj (hq.symm.trans h.phase)⟩
  · exact h.others k q hk hq

theorem Quiet.alone (h : Quiet m) (org : String) (force : Bool) :
    Alone { m with callers := m.callers ++ [⟨org, force, .entering⟩] } m.callers.length
      .entering := by
  refine ⟨h.coherent.step (.call org force), by rw [phase?_call, if_pos rfl], fun k q hne hq ↦ ?_⟩
  rw [phase?_call, if_neg hne] at hq
  exact h.done k q hq

/-- The caller goes on to its answer, or sends a request and waits for it. -/
theorem Alone.settle (h : Alone m n p) (hdue : p.isDue = true) :
    (∃ l, Alone (m.settle n) n (.finished (some l))) ∨
      3 ≤ p.stepsLeft ∧ ∃ l, Alone (m.settle n) n (.fetching l) := by
  have hsteps : p.stepsLeft ≤ manySteps := by cases p <;> simp [Phase.stepsLeft, manySteps]
  obtain ⟨p', halone, hdue', hmv, hle⟩ := h.exists_proceed manySteps hdue hsteps
  rcases Phase.eq_of_isDue hdue' hmv with ⟨l, rfl⟩ | ⟨l, rfl⟩
  · exact .inl ⟨l, halone⟩
  · exact .inr ⟨hle, l, halone⟩

/-- A caller whose request comes back goes on to its answer. -/
theorem Alone.poke (h : Alone m n (.fetching l)) (o : Outcome) :
    ∃ answer, Alone (m.poke n (.store o)) n (.finished (some answer)) := by
  obtain ⟨c, hc, hp⟩ := h.exists_caller
  have hrecord := Step.record hc hp o
  rw [Machine.poke, step_of_rule hrecord]
  rcases (h.setPhase (h.coherent.step hrecord) rfl).settle rfl with hdone | ⟨hle, -⟩
  · exact hdone
  · exact absurd hle (by simp [Phase.stepsLeft])

/-- Time passes while the caller waits. -/
theorem Alone.tick (h : Alone m n p) (ms : Nat) : Alone { m with now := m.now + ms } n p :=
  ⟨h.coherent.step (.tick ms), h.phase, h.others⟩

/-- **Asking gives an answer** when nobody else is about, and leaves nobody about. -/
theorem Quiet.exists_ask (h : Quiet m) (org : String) (force : Bool) (delay : Nat) (o : Outcome) :
    Quiet (m.ask org force delay o).1 ∧ ∃ l, (m.ask org force delay o).2.1 = some l := by
  have hdone : ∀ {m' : Machine} {l : Lookup}, Alone m' m.callers.length (.finished (some l)) →
      Quiet m' ∧ m'.answer? m.callers.length = some l :=
    fun h' ↦ ⟨h'.quiet, by rw [answer?, h'.phase]⟩
  obtain ⟨m₁, henter, hsettled⟩ : ∃ m₁, m.enter org force = (m.callers.length, m₁) ∧
      ((∃ l, Alone m₁ m.callers.length (.finished (some l))) ∨
        ∃ l, Alone m₁ m.callers.length (.fetching l)) :=
    ⟨_, rfl, ((h.alone org force).settle rfl).imp_right And.right⟩
  rcases hsettled with ⟨l, hl⟩ | ⟨l, hl⟩
  · have hfetching : m₁.isFetching m.callers.length = false := by simp [isFetching, hl.phase]
    simp only [ask, henter, hfetching]
    exact ⟨(hdone hl).1, l, (hdone hl).2⟩
  · have hfetching : m₁.isFetching m.callers.length = true := by simp [isFetching, hl.phase]
    obtain ⟨answer, hl'⟩ := (hl.tick delay).poke o
    simp only [ask, henter, hfetching]
    exact ⟨(hdone hl').1, answer, (hdone hl').2⟩

end Machine

end Licensing.Cache
