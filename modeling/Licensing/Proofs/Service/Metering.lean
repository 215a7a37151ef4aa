import Licensing.Proofs.Service.Degradation
import Licensing.Proofs.Service.Serving

/-!
# Counting requests one after another

Requests that come one after another are a special case of requests that come at the same time, and
are counted like these (`InTurn`). A request that finds the others done is evaluated with at most
one request to the feature service (`Ready.exists_evaluates`), or with none where everybody is
entitled to everything (`Entitled.exists_evaluates`). So what holds of the metrics of every run
holds of the metrics that `handleServices` leaves, whatever the services behind do
(`countsServices`).
-/

namespace Licensing.Service.Serving

open Cache (Machine Move Outcome)

variable {σ : Type} {b : Backends σ} {st : State σ} {i : Identity} {query : Option String}
  {s s₁ s₂ : Serving} {es₁ es₂ : List Event} {k : Nat} {ev : Evaluation}
  {r : Registry} {cfg : Cache.Config} {requests : List (Identity × Option String)}

/-- What the service does with requests that come one after another is a run. -/
structure InTurn (b : Backends σ) (st : State σ) (requests : List (Identity × Option String))
    (s : Serving) (es : List Event) (s' : Serving) : Prop where
  /-- It is one. -/
  run : s.run es = some s'
  /-- Nobody is cancelled. -/
  cancel : ∀ n, .evaluate (.move n .cancel) ∉ es
  /-- It leaves the evaluator as the service does. -/
  evaluator : (answerInTurn b st requests).2.evaluator = s'.evaluations.evaluator
  /-- It counts what the service counts. -/
  metrics : (answerInTurn b st requests).2.metrics = s'.metrics
  /-- These are the requests. -/
  started : s'.evaluations.started.map Prod.fst =
    s.evaluations.started.map Prod.fst ++ requests.map fun a ↦ evaluationRequest a.1 a.2
  /-- It gives the answers of the service. -/
  answers : s'.answers.map Prod.snd = s.answers.map Prod.snd ++ (answerInTurn b st requests).1
  /-- It sends the requests of the service, as many as the feature service could count. -/
  fetches : ∀ count : σ → Nat, (∀ world org, count (b.features world org).2 = count world + 1) →
    count (answerInTurn b st requests).2.world = count st.world + fetchCount es
  /-- As many of them fail as the feature service could count. -/
  failures : ∀ count : σ → Nat, (∀ world org, count (b.features world org).2 =
      count world + if (b.features world org).1.isFailure then 1 else 0) →
    count (answerInTurn b st requests).2.world = count st.world + failureCount es

/-! ### One request after another -/

theorem moveCount_append (g : Move → Bool) (es₁ es₂ : List Event) :
    moveCount g (es₁ ++ es₂) = moveCount g es₁ + moveCount g es₂ := by
  simp only [moveCount, cacheEvents, evaluationEvents, List.filterMap_append, List.map_append,
    List.countP_append]

theorem moveCount_map_evaluate (g : Move → Bool) (es : List Evaluations.Event) :
    moveCount g (es.map .evaluate) =
      (es.map Evaluations.Event.toCache).countP (Cache.Event.isMove g) := by
  have hevents : evaluationEvents (es.map .evaluate) = es := by
    rw [evaluationEvents, List.filterMap_map]
    exact List.filterMap_some
  rw [moveCount, cacheEvents, hevents]

theorem InTurn.nil (hevaluator : st.evaluator = s.evaluations.evaluator)
    (hmetrics : st.metrics = s.metrics) : InTurn b st [] s [] s where
  run := rfl
  cancel := by simp
  evaluator := hevaluator
  metrics := hmetrics
  started := (List.append_nil _).symm
  answers := (List.append_nil _).symm
  fetches _ _ := rfl
  failures _ _ := rfl

/-- One request comes before others. -/
theorem InTurn.cons (h₁ : InTurn b st [(i, query)] s es₁ s₁)
    (h₂ : InTurn b (handleServices b st i query).2 requests s₁ es₂ s₂) :
    InTurn b st ((i, query) :: requests) s (es₁ ++ es₂) s₂ where
  run := by
    rw [Serving.run, Run.append, ← Serving.run, h₁.run]
    exact h₂.run
  cancel n hmem := (List.mem_append.1 hmem).elim (h₁.cancel n) (h₂.cancel n)
  evaluator := h₂.evaluator
  metrics := h₂.metrics
  started := by
    rw [h₂.started, h₁.started, List.append_assoc]
    rfl
  answers := by
    rw [h₂.answers, h₁.answers, List.append_assoc]
    rfl
  fetches count hcount := by
    rw [fetchCount, moveCount_append, ← Nat.add_assoc, ← fetchCount, ← h₁.fetches count hcount]
    exact h₂.fetches count hcount
  failures count hcount := by
    rw [failureCount, moveCount_append, ← Nat.add_assoc, ← failureCount,
      ← h₁.failures count hcount]
    exact h₂.failures count hcount

/-! ### One request -/

/-- Evaluations do in a run what an evaluator does for one request, where `v` is what it does and
`o` is the outcome of the request to the feature service. -/
structure Evaluates (s : Evaluations) (q : EvaluationRequest) (o : Outcome)
    (v : Evaluation × Bool × Evaluator) (es : List Evaluations.Event) (t : Evaluations) :
    Prop where
  /-- It is a run. -/
  run : s.run es = some t
  /-- Nobody is cancelled. -/
  cancel : ∀ n, .move n .cancel ∉ es
  /-- An evaluation starts. -/
  started : ∃ n, t.started = s.started ++ [(q, n)]
  /-- The evaluator comes to the same state. -/
  evaluator : t.evaluator = v.2.2
  /-- The evaluation has the same result. -/
  result : t.result? s.started.length = some v.1
  /-- A request is sent when the evaluator sends one. -/
  fetches : (es.map Evaluations.Event.toCache).countP (Cache.Event.isMove Move.isFetch) =
    if v.2.1 then 1 else 0
  /-- It fails when its outcome is a failure. -/
  failures : (es.map Evaluations.Event.toCache).countP (Cache.Event.isMove Move.isFailure) =
    if v.2.1 && o.isFailure then 1 else 0

/-- What an evaluator does for a request, its cache does for one caller. -/
theorem snd_evaluate {e : Evaluator} (hall : e.entitleAll = false) (i : Identity)
    (filter : BundleFilter) (force : Bool) (delay : Nat) (o : Outcome) :
    (e.evaluate i filter force delay o).2 = ((e.cache.ask i.orgId force delay o).2.2,
      { e with cache := (e.cache.ask i.orgId force delay o).1 }) := by
  rw [Evaluator.evaluate, if_neg (by simp [hall])]

/-- All evaluations have their results, which they asked the cache for. -/
structure Ready (r : Registry) (s : Evaluations) : Prop where
  /-- Every evaluation is a caller of the cache. -/
  aligned : Evaluations.Aligned r s
  /-- Nobody is about in the cache. -/
  quiet : Machine.Quiet s.cache
  /-- All callers have their answers. -/
  answered : Machine.Answered s.cache

theorem ready_start (r : Registry) (cfg : Cache.Config) : Ready r (Evaluations.start r cfg false) :=
  ⟨Evaluations.aligned_start r cfg, Machine.quiet_start cfg, Machine.answered_start cfg⟩

/-- **Who finds the others done** sends at most one request, and leaves all done. -/
theorem Ready.exists_evaluates {s : Evaluations} (h : Ready r s) (q : EvaluationRequest)
    (delay : Nat) (o : Outcome) : ∃ es t,
      Evaluates s q o (s.evaluator.evaluate q.identity q.filter q.force delay o) es t ∧
        Ready r t := by
  obtain ⟨es, t, hrun, haligned, hquiet, hstarted, hevaluator, hresult⟩ :=
    Evaluations.exists_result h.aligned h.quiet q delay o
  have hsnd := snd_evaluate h.aligned.entitleAll_eq q.identity q.filter q.force delay o
  have ht : t.cache = (s.cache.ask q.identity.orgId q.force delay o).1 := by
    rw [Evaluations.cache, hevaluator, hsnd]
    rfl
  -- The run is one of the cache in which a caller comes and gets its answer.
  obtain ⟨-, hcache⟩ := h.aligned.run hrun
  obtain ⟨-, l, hl⟩ := h.quiet.exists_ask q.identity.orgId q.force delay o
  have hlength : t.cache.callers.length = s.cache.callers.length + 1 := by
    rw [← haligned.length_eq, ← h.aligned.length_eq, hstarted, List.length_append,
      List.length_singleton]
  rw [ht] at hcache hlength
  have hanswered := h.answered.concat hcache hlength hl
  obtain ⟨hfetches, hfailures⟩ := h.answered.counts_ask hcache hlength hl
  refine ⟨es, t, ⟨hrun, fun n hmem ↦ ?_, ⟨_, hstarted⟩, hevaluator, hresult, ?_, ?_⟩, haligned,
    hquiet, ht ▸ hanswered⟩
  · exact hanswered.not_mem_cancel hcache n (List.mem_map_of_mem hmem)
  · rw [hfetches, hsnd]
    rfl
  · rw [hfailures, hsnd]
    rfl

/-- Where everybody is entitled to everything no request is sent. -/
theorem Entitled.exists_evaluates {s : Evaluations} (h : Entitled s) (q : EvaluationRequest)
    (delay : Nat) (o : Outcome) : ∃ es t,
      Evaluates s q o (s.evaluator.evaluate q.identity q.filter q.force delay o) es t ∧
        Entitled t := by
  have hvalue : s.evaluator.evaluate q.identity q.filter q.force delay o =
      (.ofAll s.evaluator.registry, false, s.evaluator) := by
    rw [Evaluator.evaluate, if_pos h.entitleAll]
  have hstep : s.step (.request q) = some (s.note q none) := by
    rw [Evaluations.step, if_pos h.entitleAll]
  rw [hvalue]
  refine ⟨[.request q], s.note q none, ⟨Option.bind_eq_some_iff.2 ⟨_, hstep, rfl⟩, by simp,
    ⟨none, rfl⟩, rfl, ?_, rfl, rfl⟩, (h.step hstep).1⟩
  rw [Evaluations.result?, Evaluations.note, List.getElem?_concat_length]

/-- What the evaluator does for a request, with what the feature service answers. -/
def evaluate (b : Backends σ) (st : State σ) (i : Identity) (query : Option String) :
    Evaluation × Bool × Evaluator :=
  st.evaluator.evaluate i (servicesQuery query).filter (servicesQuery query).fresh 0
    (b.features st.world i.orgId).1

/-- The feature service goes on when it gets a request. -/
theorem world_handleServices (b : Backends σ) (st : State σ) (i : Identity)
    (query : Option String) : (handleServices b st i query).2.world =
      if (evaluate b st i query).2.1 then (b.features st.world i.orgId).2 else st.world :=
  rfl

/-- The next request is answered with a result. -/
def finish (s : Serving) (t : Evaluations) (ev : Evaluation) : Serving where
  evaluations := t
  metrics := (finishServices t.evaluator.entitleAll s.metrics ev).2
  answers := s.answers ++ [(s.evaluations.started.length, evaluationResponse ev)]

/-- The events of a request that is answered as soon as it is evaluated. -/
def turn (s : Serving) (es : List Evaluations.Event) : List Event :=
  es.map .evaluate ++ [.answer s.evaluations.started.length]

theorem moveCount_turn (g : Move → Bool) (s : Serving) (es : List Evaluations.Event) :
    moveCount g (s.turn es) =
      (es.map Evaluations.Event.toCache).countP (Cache.Event.isMove g) := by
  rw [turn, moveCount_append, moveCount_map_evaluate]
  rfl

theorem run_turn {es : List Evaluations.Event} {t : Evaluations}
    (hkeys : s.answers.map Prod.fst = List.range s.evaluations.started.length)
    (hrun : s.evaluations.run es = some t)
    (hev : t.result? s.evaluations.started.length = some ev) :
    s.run (s.turn es) = some (s.finish t ev) := by
  refine Run.concat_iff.2 ⟨_, run_map_evaluate hrun, ?_⟩
  rw [step, answer, if_neg]
  · rw [hev]
    rfl
  · show _ ∉ s.answers.map Prod.fst
    rw [hkeys]
    exact List.not_mem_range_self

/-- **A request that is evaluated is answered.** Its turn in the service is the run of its
evaluation with the answer as last event, and it is counted as what it is. -/
theorem Evaluates.inTurn {es : List Evaluations.Event} {t : Evaluations}
    (h : Evaluates s.evaluations (evaluationRequest i query) (b.features st.world i.orgId).1
      (evaluate b st i query) es t)
    (hkeys : s.answers.map Prod.fst = List.range s.evaluations.started.length)
    (hmetrics : st.metrics = s.metrics) :
    InTurn b st [(i, query)] s (s.turn es) (s.finish t (evaluate b st i query).1) where
  run := run_turn hkeys h.run h.result
  cancel n hmem := by
    rcases List.mem_append.1 hmem with hmem | hmem
    · obtain ⟨e, he, heq⟩ := List.mem_map.1 hmem
      obtain rfl := Event.evaluate.inj heq
      exact h.cancel n he
    · simp at hmem
  evaluator := h.evaluator.symm
  metrics := by
    show (finishServices (evaluate b st i query).2.2.entitleAll st.metrics
      (evaluate b st i query).1).2 = (finishServices t.evaluator.entitleAll s.metrics _).2
    rw [h.evaluator, hmetrics]
  started := by
    obtain ⟨n, hstarted⟩ := h.started
    rw [finish, hstarted, List.map_append]
    rfl
  answers := by
    rw [finish, List.map_append]
    rfl
  fetches count hcount := by
    show count (handleServices b st i query).2.world = _
    rw [world_handleServices, fetchCount, moveCount_turn, h.fetches]
    split
    · exact hcount _ _
    · rfl
  failures count hcount := by
    show count (handleServices b st i query).2.world = _
    rw [world_handleServices, failureCount, moveCount_turn, h.failures]
    rcases (evaluate b st i query).2.1 with _ | _
    · rfl
    · exact hcount _ _

/-- All requests are answered, in the order in which they came, and so much is true of their
evaluations. -/
structure Idle (P : Evaluations → Prop) (s : Serving) : Prop where
  /-- This is what is true of them. -/
  evaluations : P s.evaluations
  /-- The numbers of the answers. -/
  keys : s.answers.map Prod.fst = List.range s.evaluations.started.length

/-- **Requests that come one after another are all answered**, when each of them can be evaluated as
the one before has left the evaluations. -/
theorem Idle.exists_inTurn {P : Evaluations → Prop}
    (hone : ∀ (s : Evaluations) (q : EvaluationRequest) (o : Outcome), P s → ∃ es t,
      Evaluates s q o (s.evaluator.evaluate q.identity q.filter q.force 0 o) es t ∧ P t)
    (h : Idle P s) (hevaluator : st.evaluator = s.evaluations.evaluator)
    (hmetrics : st.metrics = s.metrics) (requests : List (Identity × Option String)) :
    ∃ es s', InTurn b st requests s es s' ∧ Idle P s' := by
  induction requests generalizing st s with
  | nil => exact ⟨[], s, .nil hevaluator hmetrics, h⟩
  | cons a requests ih =>
    obtain ⟨es, t, hevaluates, ht⟩ := hone s.evaluations (evaluationRequest a.1 a.2)
      (b.features st.world a.1.orgId).1 h.evaluations
    rw [← hevaluator] at hevaluates
    have h₁ := hevaluates.inTurn h.keys hmetrics
    have hnext : Idle P (s.finish t (evaluate b st a.1 a.2).1) := by
      obtain ⟨n, hstarted⟩ := hevaluates.started
      refine ⟨ht, ?_⟩
      rw [finish, List.map_append, h.keys, hstarted, List.length_append, List.length_singleton,
        List.range_succ]
      rfl
    obtain ⟨es₂, s₂, h₂, hidle⟩ := ih hnext h₁.evaluator h₁.metrics
    exact ⟨_, s₂, h₁.cons h₂, hidle⟩

/-! ### All together -/

/-- What the metrics of a service say about the requests about bundles. -/
structure CountsServices (r : Registry) (cfg : Cache.Config) : Prop where
  /-- However requests are served at the same time, the metrics are right when all are answered and
  none was cancelled. -/
  together : ∀ (es : List Event) (s : Serving),
    (start r cfg false (some default)).run es = some s →
      (∀ n, .evaluate (.move n .cancel) ∉ es) → s.Complete →
        ∃ m, s.metrics = some m ∧ Accounted es s m
  /-- Where everybody is entitled to everything, nothing is counted, no answer says that features
  are not known, and the feature service gets no request. -/
  entitled : ∀ (t : Telemetry) (es : List Event) (s : Serving),
    (start r cfg true t).run es = some s →
      s.metrics = t ∧ fetchCount es = 0 ∧ ∀ a ∈ s.answers, isFlagged a.2 = false
  /-- Requests that `handleServices` answers one after another are among these, whatever the
  services behind do: it answers all of them, counts the same, and sends as many requests. -/
  inTurn : ∀ {σ : Type} (b : Backends σ) (st : State σ) (entitleAll : Bool)
    (requests : List (Identity × Option String)),
    st.evaluator = Evaluator.start r cfg entitleAll →
      ∃ es s, InTurn b st requests (start r cfg entitleAll st.metrics) es s ∧ s.Complete

/-- Requests that come one after another are all answered. -/
theorem exists_inTurn_start {σ : Type} (b : Backends σ) (st : State σ) (entitleAll : Bool)
    (requests : List (Identity × Option String))
    (hst : st.evaluator = Evaluator.start r cfg entitleAll) :
    ∃ es s, InTurn b st requests (start r cfg entitleAll st.metrics) es s ∧ s.Complete := by
  -- What is true of the evaluations at the start depends on whether the cache is asked.
  obtain ⟨P, hstart, hone⟩ : ∃ P : Evaluations → Prop, P (Evaluations.start r cfg entitleAll) ∧
      ∀ (s : Evaluations) (q : EvaluationRequest) (o : Outcome), P s → ∃ es t,
        Evaluates s q o (s.evaluator.evaluate q.identity q.filter q.force 0 o) es t ∧ P t :=
    match entitleAll with
    | false => ⟨Ready r, ready_start r cfg, fun _ q o h ↦ h.exists_evaluates q 0 o⟩
    | true => ⟨Entitled, entitled_start r cfg, fun _ q o h ↦ h.exists_evaluates q 0 o⟩
  have hidle : Idle P (start r cfg entitleAll st.metrics) := ⟨hstart, rfl⟩
  obtain ⟨es, s, hturn, hs⟩ := hidle.exists_inTurn hone hst rfl requests
  exact ⟨es, s, hturn, fun k hk ↦ hs.keys ▸ List.mem_range.2 hk⟩

/-- **The metrics account for every request about bundles and every request to the feature
service.** -/
theorem countsServices (r : Registry) (cfg : Cache.Config) : CountsServices r cfg where
  together _ _ h hcancel hdone := accounted_of_run h hcancel hdone
  entitled _ _ _ h := uncounted_of_run h
  inTurn b st entitleAll requests hst := exists_inTurn_start b st entitleAll requests hst

/-- A request fails while another one waits for it, and both are answered with what that left. When
that has expired, a request succeeds. -/
def failedThenFresh : List Event :=
  failedTogether.map .evaluate ++
    [.answer 1, .answer 0, .evaluate (.tick 1000),
      .evaluate (.request (evaluationRequest openCaller none)), .evaluate (.move 2 .check),
      .evaluate (.move 2 .join), .evaluate (.move 2 .acquire), .evaluate (.move 2 .recheck),
      .evaluate (.move 2 .fetch), .evaluate (.move 2 (.store (.ok ⟨[]⟩))),
      .evaluate (.move 2 .unlock), .evaluate (.move 2 .leave), .answer 2]

theorem countsServices_failedThenFresh : ∃ s m,
    (start default ⟨1000, 2⟩ false (some default)).run failedThenFresh = some s ∧
      s.metrics = some m ∧ Accounted failedThenFresh s m ∧ m.outcomeCount .hit = 1 ∧
      m.outcomeCount .miss = 1 ∧ m.outcomeCount .failClosed = 1 ∧ m.degraded = 2 := by
  have hrun : ((start default ⟨1000, 2⟩ false (some default)).run failedThenFresh).any (fun s ↦
      decide (∀ k < s.evaluations.started.length, k ∈ s.answers.map Prod.fst) &&
        s.metrics.any fun m ↦ decide (m.outcomeCount .hit = 1 ∧ m.degraded = 2)) = true := by
    decide
  obtain ⟨s, hs, hq⟩ := (Option.any_eq_true _ _).1 hrun
  obtain ⟨hdone, hq⟩ := Bool.and_eq_true_iff.1 hq
  rw [decide_eq_true_eq] at hdone
  obtain ⟨m, hm, hq⟩ := (Option.any_eq_true _ _).1 hq
  obtain ⟨hhit, hdegraded⟩ := of_decide_eq_true hq
  obtain ⟨m', hm', hm''⟩ := (countsServices default ⟨1000, 2⟩).together failedThenFresh s hs
    (by simp [failedThenFresh, failedTogether]) hdone
  obtain rfl := Option.some.inj (hm.symm.trans hm')
  have hfetched : fetchCount failedThenFresh = 2 := by decide
  have hfailed : failureCount failedThenFresh = 1 := by decide
  refine ⟨s, m, hs, hm, hm'', hhit, ?_, ?_, hdegraded⟩
  · have h₁ := hm''.fetched
    have h₂ := hm''.failed
    omega
  · exact hm''.failed.trans hfailed

end Licensing.Service.Serving
