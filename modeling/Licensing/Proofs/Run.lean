import Mathlib.Data.List.Basic
import Mathlib.Data.List.Induction

/-!
# Runs

The cache, the access token, the evaluations and the seat operations are machines: a state, and a
step for each event, which may be impossible. A run is a list of events that can happen one after
another, that is, `List.foldlM step` in `Option`. What holds at its start and is kept by every step
holds at its end (`induction`), and what does not hold at its start but at its end comes about in
one of its steps (`exists_step`).
-/

namespace Licensing.Run

variable {σ ε : Type} {step : σ → ε → Option σ} {s₀ s s' : σ} {es es₁ es₂ : List ε} {e : ε}

theorem append : (es₁ ++ es₂).foldlM step s =
    (es₁.foldlM step s).bind fun next ↦ es₂.foldlM step next := by
  rw [List.foldlM_append]
  rfl

theorem concat_iff : (es ++ [e]).foldlM step s₀ = some s' ↔
    ∃ s, es.foldlM step s₀ = some s ∧ step s e = some s' := by
  rw [append, Option.bind_eq_some_iff]
  simp only [List.foldlM_cons, List.foldlM_nil]
  exact exists_congr fun s ↦ and_congr_right' (by simp)

/-- **Induction along a run.** The last step is the one that counts. -/
theorem induction {P : List ε → σ → Prop} (nil : P [] s₀)
    (concat : ∀ es e s s', es.foldlM step s₀ = some s → P es s → step s e = some s' →
      P (es ++ [e]) s')
    (h : es.foldlM step s₀ = some s) : P es s := by
  induction es using List.reverseRecOn generalizing s with
  | nil =>
    obtain rfl := Option.some.inj h
    exact nil
  | append_singleton es e ih =>
    obtain ⟨s₁, h₁, hstep⟩ := concat_iff.1 h
    exact concat es e s₁ s h₁ (ih h₁) hstep

/-- What a run brings about, one of its steps brings about. -/
theorem exists_step {P : σ → Prop} (h : es.foldlM step s₀ = some s) (h₀ : ¬ P s₀) (hs : P s) :
    ∃ es₁ e es₂ s₁ s₂, es = es₁ ++ e :: es₂ ∧ es₁.foldlM step s₀ = some s₁ ∧
      step s₁ e = some s₂ ∧ es₂.foldlM step s₂ = some s ∧ ¬ P s₁ ∧ P s₂ := by
  induction es generalizing s₀ with
  | nil =>
    obtain rfl := Option.some.inj h
    exact absurd hs h₀
  | cons e es ih =>
    obtain ⟨next, hstep, hrun⟩ := Option.bind_eq_some_iff.1 h
    -- Either this step brings it about, or a later one does.
    by_cases hn : P next
    · exact ⟨[], e, es, s₀, next, rfl, rfl, hstep, hrun, h₀, hn⟩
    · obtain ⟨es₁, e', es₂, s₁, s₂, rfl, h₁, hs, h₂, hP₁, hP₂⟩ := ih hrun hn
      refine ⟨e :: es₁, e', es₂, s₁, s₂, rfl, ?_, hs, h₂, hP₁, hP₂⟩
      rw [List.foldlM_cons, hstep]
      exact h₁

end Licensing.Run
