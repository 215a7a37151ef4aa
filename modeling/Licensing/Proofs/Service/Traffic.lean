import Licensing.Proofs.Cache.Quiet
import Licensing.Proofs.Cache.Recency
import Licensing.Proofs.Evaluations
import Licensing.Service.Traffic

/-!
# Requests one after another

Requests that come one after another are a special case of requests that come at the same time:
each starts when all others are done, and its caller goes on to its answer
(`exists_run_answerInTurn`). As nobody is in its way, it always has one
(`Evaluations.exists_result`).
-/

namespace Licensing

open Cache (Machine Outcome)

namespace Evaluations

variable {r : Registry} {s s' : Evaluations} {e : Event} {es es' : List Event} {k : Nat}
  {ev : Evaluation}

theorem run_append (h : s.run es = some s') : s.run (es ++ es') = s'.run es' := by
  rw [run, Run.append, ← run, h]
  rfl

/-! ### What stays -/

/-- An event adds to what was started, and the cache does a step or nothing. -/
theorem exists_cache_of_step (h : s.step e = some s') : ∃ m later,
    s' = ⟨{ s.evaluator with cache := m }, s.started ++ later⟩ ∧
      (m = s.cache ∨ s.cache.step e.toCache = some m) := by
  unfold step at h
  split at h
  · split at h
    · obtain rfl := Option.some.inj h
      exact ⟨_, _, rfl, .inl rfl⟩
    · obtain ⟨m, hm, rfl⟩ := Option.map_eq_some_iff.1 h
      exact ⟨m, _, rfl, .inr hm⟩
  all_goals
    obtain ⟨m, hm, rfl⟩ := Option.map_eq_some_iff.1 h
    exact ⟨m, [], by rw [List.append_nil]; rfl, .inr hm⟩

theorem entitleAll_of_step (h : s.step e = some s') :
    s'.evaluator.entitleAll = s.evaluator.entitleAll := by
  obtain ⟨m, later, rfl, -⟩ := exists_cache_of_step h
  rfl

theorem lt_of_result? (h : s.result? k = some ev) : k < s.started.length := by
  by_contra hle
  rw [result?, List.getElem?_eq_none (Nat.not_lt.1 hle)] at h
  exact absurd h (by simp)

/-- An evaluation keeps its result. -/
theorem result?_of_step (h : s.step e = some s') (hev : s.result? k = some ev) :
    s'.result? k = some ev := by
  have hlt := lt_of_result? hev
  obtain ⟨m, later, rfl, hm⟩ := exists_cache_of_step h
  have hanswer : ∀ n l, s.cache.answer? n = some l → m.answer? n = some l := by
    intro n l hl
    rcases hm with rfl | hm
    · exact hl
    · have hrun : s.cache.run [e.toCache] = some m := by
        rw [Machine.run_cons, hm]
        rfl
      exact Machine.answer?_of_run hrun hl
  rw [result?] at hev ⊢
  rw [List.getElem?_append_left hlt]
  split at hev
  · exact hev
  · obtain ⟨l, hl, rfl⟩ := Option.map_eq_some_iff.1 hev
    exact Option.map_eq_some_iff.2 ⟨l, hanswer _ l hl, rfl⟩
  · exact absurd hev (by simp)

theorem result?_of_run (hrun : s.run es = some s') (hev : s.result? k = some ev) :
    s'.result? k = some ev :=
  Run.induction (P := fun _ s' ↦ s'.result? k = some ev) hev
    (fun _ _ _ _ _ ih hs ↦ result?_of_step hs ih) hrun

/-! ### One evaluation after another -/

/-- **Who finds nobody else about has a result**, the one of `Evaluator.evaluate`, and leaves
nobody about. -/
theorem exists_result (h : Aligned r s) (hq : Machine.Quiet s.cache) (q : EvaluationRequest)
    (delay : Nat) (o : Outcome) :
    ∃ es s', s.run es = some s' ∧ Aligned r s' ∧ Machine.Quiet s'.cache ∧
      s'.started = s.started ++ [(q, some s.cache.callers.length)] ∧
      s'.evaluator = (s.evaluator.evaluate q.identity q.filter q.force delay o).2.2 ∧
      s'.result? s.started.length =
        some (s.evaluator.evaluate q.identity q.filter q.force delay o).1 := by
  obtain ⟨es, s', hrun, hstarted, hevaluator, hvalue⟩ := exists_run_evaluate h.entitleAll_eq q
    delay o
  obtain ⟨hquiet, l, hl⟩ := hq.exists_ask q.identity.orgId q.force delay o
  have hcache : s'.cache = (s.cache.ask q.identity.orgId q.force delay o).1 := by
    rw [cache, hevaluator, Evaluator.evaluate, if_neg (by simp [h.entitleAll_eq])]
    rfl
  refine ⟨_, s', hrun, (h.run hrun).1, hcache ▸ hquiet, hstarted, hevaluator, ?_⟩
  -- The caller has an answer, so the result is not the one of an evaluation without any.
  have hanswer : s'.cache.answer? s.cache.callers.length = some l := by
    rw [hcache]
    exact hl
  have hresult : ∃ ev, s'.result? s.started.length = some ev := by
    simp only [result?, hstarted, List.getElem?_concat_length, hanswer]
    exact ⟨_, rfl⟩
  obtain ⟨ev, hev⟩ := hresult
  rw [hvalue, hev, Option.getD_some]

end Evaluations

namespace Service

variable {σ : Type} {r : Registry} {s : Evaluations}

theorem handleServices_fst (b : Backends σ) (st : State σ) (i : Identity) (query : Option String) :
    (handleServices b st i query).1 = evaluationResponse (st.evaluator.evaluate i
      (servicesQuery query).filter (servicesQuery query).fresh 0
      (b.features st.world i.orgId).1).1 :=
  rfl

theorem evaluator_handleServices (b : Backends σ) (st : State σ) (i : Identity)
    (query : Option String) : (handleServices b st i query).2.evaluator =
      (st.evaluator.evaluate i (servicesQuery query).filter (servicesQuery query).fresh 0
        (b.features st.world i.orgId).1).2.2 :=
  rfl

theorem length_answerInTurn (b : Backends σ) (st : State σ)
    (requests : List (Identity × Option String)) :
    (answerInTurn b st requests).1.length = requests.length := by
  induction requests generalizing st with
  | nil => rfl
  | cons a rest ih => exact congrArg (· + 1) (ih (handleServices b st a.1 a.2).2)

/-- **Serving one request after another is a run.** The answer to each request is the one that its
evaluation gives rise to. -/
theorem exists_run_answerInTurn (b : Backends σ) (st : State σ)
    (requests : List (Identity × Option String)) (h : Evaluations.Aligned r s)
    (hq : Machine.Quiet s.cache) (hst : st.evaluator = s.evaluator) :
    ∃ es s', s.run es = some s' ∧ s'.evaluator = (answerInTurn b st requests).2.evaluator ∧
      s'.started.map Prod.fst =
        s.started.map Prod.fst ++ requests.map (fun a ↦ evaluationRequest a.1 a.2) ∧
      ∀ k < requests.length,
        answer? s' (s.started.length + k) = (answerInTurn b st requests).1[k]? := by
  induction requests generalizing st s with
  | nil => exact ⟨[], s, rfl, hst.symm, by simp, by simp⟩
  | cons a rest ih =>
    obtain ⟨i, query⟩ := a
    obtain ⟨es₁, s₁, hrun₁, h₁, hq₁, hstarted, hevaluator, hresult⟩ :=
      Evaluations.exists_result h hq (evaluationRequest i query) 0 (b.features st.world i.orgId).1
    have hlength : s₁.started.length = s.started.length + 1 := by simp [hstarted]
    obtain ⟨es₂, s₂, hrun₂, hevaluator₂, hstarted₂, hanswers⟩ :=
      ih (handleServices b st i query).2 h₁ hq₁
        (by rw [evaluator_handleServices, hst, hevaluator]; rfl)
    refine ⟨es₁ ++ es₂, s₂, by rw [Evaluations.run_append hrun₁, hrun₂], hevaluator₂, ?_, ?_⟩
    · rw [hstarted₂, hstarted]
      simp
    · intro k hk
      cases k with
      | zero =>
        have hkept := Evaluations.result?_of_run hrun₂ hresult
        rw [Nat.add_zero, answer?, hkept]
        show _ = some (handleServices b st i query).1
        rw [handleServices_fst, hst]
        rfl
      | succ k =>
        have hanswer := hanswers k (Nat.lt_of_succ_lt_succ hk)
        rw [hlength] at hanswer
        rw [show s.started.length + (k + 1) = s.started.length + 1 + k by omega, hanswer]
        rfl

end Service

end Licensing
