import Licensing.Proofs.Cache.Census
import Licensing.Proofs.Metrics
import Licensing.Proofs.Service.Traffic
import Licensing.Service.Serving

/-!
# The metrics account for what is served

Every request about bundles is counted when it is answered, by what its evaluation says of the way
in which the features were found. When all requests are answered these counts are right about the
requests to the feature service: those that were not served from memory were sent, and those that
failed are the ones that came back as failures (`accounted_of_run`). The argument is that every
evaluation was counted once (`Served`), and that its caller of the cache is marked by the request
that it sent (`Cache.Machine.Marks`). Where everybody is entitled to everything nothing is counted
and nothing sent (`uncounted_of_run`).
-/

namespace Licensing.Service.Serving

open Cache (Lookup Machine Move)

variable {s s' : Serving} {e : Event} {es : List Event} {k : Nat} {ev : Evaluation}
  {evs : List (Nat × Evaluation)} {r : Registry} {cfg : Cache.Config}

/-! ### Runs -/

/-- Induction along a run. -/
theorem run_induction {s₀ : Serving} {P : List Event → Serving → Prop} (nil : P [] s₀)
    (concat : ∀ es e s s', P es s → s.step e = some s' → P (es ++ [e]) s')
    (h : s₀.run es = some s) : P es s :=
  Run.induction nil (fun es e s s' _ hP hs ↦ concat es e s s' hP hs) h

/-- What happens among the evaluations in a run. -/
def evaluationEvents (es : List Event) : List Evaluations.Event :=
  es.filterMap Event.evaluation?

/-- **A run of the service is a run of its evaluations.** The service adds its counters to them, and
these do not decide what can happen. -/
theorem run_evaluations {s₀ : Serving} (h : s₀.run es = some s) :
    s₀.evaluations.run (evaluationEvents es) = some s.evaluations := by
  refine run_induction
    (P := fun es s ↦ s₀.evaluations.run (evaluationEvents es) = some s.evaluations) rfl ?_ h
  intro es e s s' ih hs
  rw [evaluationEvents, List.filterMap_append, ← evaluationEvents]
  match e with
  | .evaluate e =>
    obtain ⟨next, hnext, rfl⟩ := Option.map_eq_some_iff.1 hs
    exact Run.concat_iff.2 ⟨_, ih, hnext⟩
  | .answer k =>
    rw [step, answer] at hs
    split at hs
    · exact absurd hs (by simp)
    · obtain ⟨ev, -, rfl⟩ := Option.map_eq_some_iff.1 hs
      show s₀.evaluations.run (evaluationEvents es ++ []) = some s.evaluations
      rw [List.append_nil]
      exact ih

/-- **A run of the evaluations is a run of the service**, as the counters never keep an event from
happening. -/
theorem run_map_evaluate {es : List Evaluations.Event} {t : Evaluations}
    (h : s.evaluations.run es = some t) :
    s.run (es.map .evaluate) = some { s with evaluations := t } := by
  induction es generalizing s with
  | nil =>
    obtain rfl := Option.some.inj h
    rfl
  | cons e es ih =>
    obtain ⟨next, hnext, hrest⟩ := Option.bind_eq_some_iff.1 h
    refine Option.bind_eq_some_iff.2 ⟨{ s with evaluations := next }, ?_, ih hrest⟩
    rw [step, hnext]
    rfl

/-! ### What was counted -/

/-- These evaluations were counted and their requests answered. -/
structure Served (s : Serving) (evs : List (Nat × Evaluation)) : Prop where
  /-- The answers are theirs. -/
  answers : s.answers = evs.map fun a ↦ (a.1, evaluationResponse a.2)
  /-- They are the results of evaluations. -/
  results : ∀ a ∈ evs, s.evaluations.result? a.1 = some a.2
  /-- None is counted twice. -/
  nodup : (evs.map Prod.fst).Nodup

theorem Served.map_fst (h : Served s evs) : s.answers.map Prod.fst = evs.map Prod.fst := by
  rw [h.answers, List.map_map]
  rfl

/-- What happens among the evaluations changes no result. -/
theorem Served.evaluate {e : Evaluations.Event} {next : Evaluations} (h : Served s evs)
    (hs : s.evaluations.step e = some next) : Served { s with evaluations := next } evs where
  answers := h.answers
  results a ha := Evaluations.result?_of_step hs (h.results a ha)
  nodup := h.nodup

/-- A request that is answered is the next. -/
theorem Served.answer (h : Served s evs) (hs : s.answer k = some s') :
    ∃ ev, s.evaluations.result? k = some ev ∧ s'.evaluations = s.evaluations ∧
      s'.metrics = (finishServices s.evaluations.evaluator.entitleAll s.metrics ev).2 ∧
      Served s' (evs ++ [(k, ev)]) := by
  rw [Serving.answer] at hs
  split at hs
  · exact absurd hs (by simp)
  rename_i hnew
  obtain ⟨ev, hev, rfl⟩ := Option.map_eq_some_iff.1 hs
  rw [h.map_fst] at hnew
  refine ⟨ev, hev, rfl, rfl, ?_, fun a ha ↦ ?_, ?_⟩
  · show s.answers ++ [(k, evaluationResponse ev)] = _
    rw [h.answers, List.map_append]
    rfl
  · rcases List.mem_append.1 ha with ha | ha
    · exact h.results a ha
    · obtain rfl := List.mem_singleton.1 ha
      exact hev
  · rw [List.map_append]
    refine List.nodup_append.2 ⟨h.nodup, by simp, fun i hi j hj ↦ ?_⟩
    rintro rfl
    obtain rfl := List.mem_singleton.1 hj
    exact hnew hi

/-- All requests are answered. -/
def Complete (s : Serving) : Prop :=
  ∀ k < s.evaluations.started.length, k ∈ s.answers.map Prod.fst

/-- When all requests are answered, each of them was counted. -/
theorem Served.perm (h : Served s evs) (hdone : s.Complete) :
    (evs.map Prod.fst).Perm (List.range s.evaluations.started.length) := by
  refine (List.perm_ext_iff_of_nodup h.nodup List.nodup_range).2 fun k ↦ ?_
  rw [List.mem_range, ← h.map_fst]
  refine ⟨fun hk ↦ ?_, hdone k⟩
  rw [h.map_fst] at hk
  obtain ⟨a, ha, rfl⟩ := List.mem_map.1 hk
  exact Evaluations.lt_of_result? (h.results a ha)

/-- What is counted over the evaluations can be counted over their results. -/
theorem Served.countP_eq (h : Served s evs) (hdone : s.Complete) (f : Evaluation → Bool) :
    (evs.map Prod.snd).countP f = (List.range s.evaluations.started.length).countP fun k ↦
      (s.evaluations.result? k).any f := by
  rw [← (h.perm hdone).countP_eq, List.countP_map, List.countP_map]
  refine List.countP_congr fun a ha ↦ ?_
  simp [h.results a ha]

/-! ### Requests that ask the cache -/

/-- These evaluations were counted, as what they are. -/
structure Tallied (s : Serving) (evs : List (Nat × Evaluation)) (m : Metrics) : Prop where
  /-- Their requests were answered. -/
  served : Served s evs
  /-- Not everybody is entitled to everything. -/
  entitleAll : s.evaluations.evaluator.entitleAll = false
  /-- These are the metrics. -/
  metrics : s.metrics = some m
  /-- They say so. -/
  tally : Metrics.Tally (evs.map Prod.snd) m

theorem Tallied.step {m : Metrics} (h : Tallied s evs m) (hs : s.step e = some s') :
    ∃ evs' m', Tallied s' evs' m' := by
  match e with
  | .evaluate e =>
    obtain ⟨next, hnext, rfl⟩ := Option.map_eq_some_iff.1 hs
    exact ⟨evs, m, h.served.evaluate hnext,
      (Evaluations.entitleAll_of_step hnext).trans h.entitleAll, h.metrics, h.tally⟩
  | .answer k =>
    obtain ⟨ev, -, hsame, hmetrics, hserved⟩ := h.served.answer hs
    obtain ⟨m', hm', htally⟩ := h.tally.finishServices ev
    refine ⟨_, m', hserved, hsame ▸ h.entitleAll, ?_, ?_⟩
    · rw [hmetrics, h.entitleAll, h.metrics, hm']
    · rw [List.map_append]
      exact htally

/-- The requests that were answered in a run were counted. -/
theorem exists_tallied (h : (start r cfg false (some default)).run es = some s) :
    ∃ evs m, Tallied s evs m :=
  run_induction (P := fun _ s ↦ ∃ evs m, Tallied s evs m)
    ⟨[], default, ⟨rfl, by simp, by simp⟩, rfl, rfl, Metrics.tally_default⟩
    (fun _ _ _ _ ⟨_, _, hevs⟩ hs ↦ hevs.step hs) h

section Complete

variable (h : Served s evs) (hdone : s.Complete) (ha : Evaluations.Aligned r s.evaluations)

include h hdone ha

/-- When all requests are answered, all callers have their answers. -/
theorem Served.exists_answer {c : Cache.Caller} (hc : s.evaluations.cache.callers[k]? = some c) :
    ∃ i filter l, c.phase.answer? = some l ∧
      s.evaluations.result? k = some (.ofLookup r i filter l) := by
  have hlt : k < s.evaluations.started.length := by
    rw [ha.length_eq]
    exact (List.getElem?_eq_some_iff.1 hc).1
  obtain ⟨⟨q, n⟩, hq⟩ : ∃ a, s.evaluations.started[k]? = some a :=
    ⟨_, List.getElem?_eq_getElem hlt⟩
  obtain ⟨⟨j, ev⟩, hmem, rfl⟩ := List.mem_map.1 (h.map_fst ▸ hdone k hlt)
  have hev : s.evaluations.result? j = some ev := h.results _ hmem
  obtain ⟨c', l, hc', -, hl, rfl⟩ := ha.exists_lookup hq hev
  obtain rfl := Option.some.inj (hc.symm.trans hc')
  exact ⟨_, _, l, hl, hev⟩

/-- What is counted over the evaluations can be counted over the callers of the cache. -/
theorem Served.countP_eq_count {f : Evaluation → Bool} {g : Cache.Phase → Bool}
    (hfg : ∀ p i filter l, p.answer? = some l → f (.ofLookup r i filter l) = g p) :
    (evs.map Prod.snd).countP f = s.evaluations.cache.count g := by
  rw [h.countP_eq hdone, ha.length_eq, Machine.count,
    ← countP_range fun c : Cache.Caller ↦ g c.phase]
  refine List.countP_congr fun k hk ↦ ?_
  obtain ⟨c, hc⟩ : ∃ c, s.evaluations.cache.callers[k]? = some c :=
    ⟨_, List.getElem?_eq_getElem (List.mem_range.1 hk)⟩
  obtain ⟨i, filter, l, hl, hev⟩ := h.exists_answer hdone ha hc
  rw [hev, hc, Option.any_some, Option.any_some, hfg _ i filter l hl]

end Complete

/-! ### What the metrics say -/

/-- What happens to the cache in a run. -/
def cacheEvents (es : List Event) : List Cache.Event :=
  (evaluationEvents es).map Evaluations.Event.toCache

/-- How many moves of some kind its callers did. -/
def moveCount (g : Move → Bool) (es : List Event) : Nat :=
  (cacheEvents es).countP (Cache.Event.isMove g)

/-- How many requests the feature service got in a run. -/
def fetchCount (es : List Event) : Nat :=
  moveCount Move.isFetch es

/-- How many of them failed. -/
def failureCount (es : List Event) : Nat :=
  moveCount Move.isFailure es

/-- An answer says that the features are not known. -/
def isFlagged (r : Response) : Bool :=
  r.headers.any fun h ↦ h.1 = degradedHeader

/-- The metrics are right about a run. -/
structure Accounted (es : List Event) (s : Serving) (m : Metrics) : Prop where
  /-- Every request was answered once. -/
  answers : (s.answers.map Prod.fst).Perm (List.range s.evaluations.started.length)
  /-- Every request was counted once. -/
  total : m.outcomeCount .hit + m.outcomeCount .miss + m.outcomeCount .failClosed =
    s.evaluations.started.length
  /-- Those that were not served from memory were sent to the feature service, and no others. -/
  fetched : m.outcomeCount .miss + m.outcomeCount .failClosed = fetchCount es
  /-- Those that were served without features were the ones that failed. -/
  failed : m.outcomeCount .failClosed = failureCount es
  /-- They were counted for the feature service too. -/
  failure : m.failureCount featureService = failureCount es
  /-- The answers that say that the features are not known were counted. -/
  degraded : m.degraded = s.answers.countP fun a ↦ isFlagged a.2

theorem isFlagged_evaluationResponse (ev : Evaluation) :
    isFlagged (evaluationResponse ev) = ev.isDegraded := by
  rw [evaluationResponse, Evaluation.isDegraded]
  rcases ev.degradedStatus with _ | status <;>
    simp [isFlagged, Response.json, degradedHeader]

theorem not_mem_cancel (h : ∀ n, .evaluate (.move n .cancel) ∉ es) (n : Nat) :
    .move n .cancel ∉ cacheEvents es := by
  intro hmem
  obtain ⟨e, he, hcache⟩ := List.mem_map.1 hmem
  obtain ⟨x, hx, hxe⟩ := List.mem_filterMap.1 he
  match x, e with
  | .evaluate (.move k mv), _ =>
    obtain rfl := Option.some.inj hxe
    obtain ⟨rfl, rfl⟩ := Cache.Event.move.inj hcache
    exact h _ hx
  | .evaluate (.request q), _ | .evaluate (.tick ms), _ =>
    obtain rfl := Option.some.inj hxe
    exact absurd hcache (by simp [Evaluations.Event.toCache])

/-! The answer that a caller has tells how its evaluation is counted. -/

theorem cacheHit_ofLookup {p : Cache.Phase} {l : Lookup} (h : p.answer? = some l) (i : Identity)
    (filter : BundleFilter) : (!(Evaluation.ofLookup r i filter l).cacheHit) = p.hasAsked := by
  match p, h with
  | .releasing .., h | .departing .., h | .finished _, h =>
    simp [Cache.Phase.hasAsked, Cache.Phase.isFetching, h, Evaluation.ofLookup]

theorem outcome_ofLookup {p : Cache.Phase} {l : Lookup} (h : p.answer? = some l) (i : Identity)
    (filter : BundleFilter) :
    decide ((Evaluation.ofLookup r i filter l).outcome = .failClosed) = p.hasFailed := by
  rw [Cache.Phase.hasFailed, h, Option.any_some, Evaluation.outcome, Evaluation.isDegraded]
  rcases hhit : l.hit with _ | _ <;> rcases hdegraded : l.degraded with _ | _ <;>
    simp [Evaluation.ofLookup, hhit, hdegraded]

/-- **The metrics account for every request**, when all of them are answered and none is
cancelled. -/
theorem accounted_of_run (h : (start r cfg false (some default)).run es = some s)
    (hcancel : ∀ n, .evaluate (.move n .cancel) ∉ es) (hdone : s.Complete) :
    ∃ m, s.metrics = some m ∧ Accounted es s m := by
  obtain ⟨evs, m, hserved, -, hm, htally⟩ := exists_tallied h
  obtain ⟨ha, hrun⟩ := (Evaluations.aligned_start r cfg).run (run_evaluations h)
  -- Nobody calls the cache at the start, so that all who are marked came to be so in the run.
  have hasked : s.evaluations.cache.count Cache.Phase.hasAsked = 0 + fetchCount es :=
    Cache.Machine.marks_hasAsked.count_of_run hrun (not_mem_cancel hcancel)
  have hfailed : s.evaluations.cache.count Cache.Phase.hasFailed = 0 + failureCount es :=
    Cache.Machine.marks_hasFailed.count_of_run hrun (not_mem_cancel hcancel)
  have hfails : m.outcomeCount .failClosed = failureCount es := by
    rw [htally.outcome, hserved.countP_eq_count hdone ha (g := Cache.Phase.hasFailed)
      fun p i filter l hl ↦ outcome_ofLookup hl i filter, hfailed, Nat.zero_add]
  refine ⟨m, hm, ?_, ?_, ?_, hfails, htally.failure.trans hfails, ?_⟩
  · rw [hserved.map_fst]
    exact hserved.perm hdone
  · have hlength := (hserved.perm hdone).length_eq
    rw [List.length_map, List.length_range] at hlength
    rw [htally.total, List.length_map, hlength]
  · rw [htally.missed, hserved.countP_eq_count hdone ha (g := Cache.Phase.hasAsked)
      fun p i filter l hl ↦ cacheHit_ofLookup hl i filter, hasked, Nat.zero_add]
  · rw [htally.degraded, hserved.answers, List.countP_map, List.countP_map]
    exact List.countP_congr fun a _ ↦ by simp [isFlagged_evaluationResponse]

/-! ### Where everybody is entitled to everything -/

/-- Everybody is entitled to everything, so that nobody calls the cache. -/
structure Entitled (s : Evaluations) : Prop where
  /-- Everybody is. -/
  entitleAll : s.evaluator.entitleAll = true
  /-- Nobody calls it. -/
  callers : s.cache.callers = []
  /-- All evaluations know that. -/
  started : ∀ a ∈ s.started, a.2 = none

theorem entitled_start (r : Registry) (cfg : Cache.Config) :
    Entitled (Evaluations.start r cfg true) :=
  ⟨rfl, rfl, by simp [Evaluations.start]⟩

/-- Nothing happens to the cache. -/
theorem Entitled.step {s s' : Evaluations} {e : Evaluations.Event} (h : Entitled s)
    (hs : s.step e = some s') : Entitled s' ∧ ∀ n mv, e ≠ .move n mv := by
  match e with
  | .request q =>
    rw [Evaluations.step, if_pos h.entitleAll] at hs
    obtain rfl := Option.some.inj hs
    refine ⟨⟨h.entitleAll, h.callers, fun a ha ↦ ?_⟩, by simp⟩
    rcases List.mem_append.1 ha with ha | ha
    · exact h.started a ha
    · obtain rfl := List.mem_singleton.1 ha
      rfl
  | .move n mv =>
    obtain ⟨m, hm, -⟩ := Option.map_eq_some_iff.1 hs
    simp [Evaluations.Event.toCache, Machine.step, h.callers] at hm
  | .tick ms =>
    rw [Evaluations.step] at hs
    obtain ⟨m, hm, rfl⟩ := Option.map_eq_some_iff.1 hs
    obtain rfl := Option.some.inj hm
    exact ⟨⟨h.entitleAll, h.callers, h.started⟩, by simp⟩

theorem Entitled.isDegraded {s : Evaluations} (h : Entitled s) (hev : s.result? k = some ev) :
    ev.isDegraded = false := by
  rw [Evaluations.result?] at hev
  split at hev
  · obtain rfl := Option.some.inj hev
    rfl
  · exact absurd (h.started _ (List.mem_of_getElem? ‹_›)) (by simp)
  · exact absurd hev (by simp)

/-- These requests were answered without asking the cache, and were not counted. -/
structure Uncounted (t : Telemetry) (es : List Event) (s : Serving)
    (evs : List (Nat × Evaluation)) : Prop where
  /-- They were answered. -/
  served : Served s evs
  /-- Everybody is entitled to everything. -/
  entitled : Entitled s.evaluations
  /-- The metrics say what they said. -/
  metrics : s.metrics = t
  /-- The cache has no callers that could move. -/
  moves : ∀ n mv, .move n mv ∉ evaluationEvents es

theorem Uncounted.step {t : Telemetry} (h : Uncounted t es s evs) (hs : s.step e = some s') :
    ∃ evs', Uncounted t (es ++ [e]) s' evs' := by
  match e with
  | .evaluate e =>
    obtain ⟨next, hnext, rfl⟩ := Option.map_eq_some_iff.1 hs
    obtain ⟨hentitled, hmove⟩ := h.entitled.step hnext
    refine ⟨evs, h.served.evaluate hnext, hentitled, h.metrics, fun n mv hmem ↦ ?_⟩
    rw [evaluationEvents, List.filterMap_append] at hmem
    rcases List.mem_append.1 hmem with hmem | hmem
    · exact h.moves n mv hmem
    · exact hmove n mv (List.mem_singleton.1 hmem).symm
  | .answer k =>
    obtain ⟨ev, hev, hsame, hmetrics, hserved⟩ := h.served.answer hs
    refine ⟨_, hserved, hsame ▸ h.entitled, ?_, fun n mv hmem ↦ ?_⟩
    · rw [hmetrics, h.entitled.entitleAll, finishServices, h.entitled.isDegraded hev]
      exact h.metrics
    · rw [evaluationEvents, List.filterMap_append] at hmem
      exact h.moves n mv ((List.mem_append.1 hmem).resolve_right List.not_mem_nil)

/-- **Where everybody is entitled to everything nothing is counted**, and the feature service gets
no requests. -/
theorem uncounted_of_run {t : Telemetry} (h : (start r cfg true t).run es = some s) :
    s.metrics = t ∧ fetchCount es = 0 ∧ ∀ a ∈ s.answers, isFlagged a.2 = false := by
  obtain ⟨evs, hserved, hentitled, ht, hmoves⟩ : ∃ evs, Uncounted t es s evs :=
    run_induction (P := fun es s ↦ ∃ evs, Uncounted t es s evs)
      ⟨[], ⟨rfl, by simp, by simp⟩, entitled_start r cfg, rfl, by simp [evaluationEvents]⟩
      (fun _ _ _ _ ⟨_, hevs⟩ hs ↦ hevs.step hs) h
  refine ⟨ht, List.countP_eq_zero.2 fun e he ↦ ?_, fun a ha ↦ ?_⟩
  · obtain ⟨e', he', rfl⟩ := List.mem_map.1 he
    match e' with
    | .request q | .tick ms => simp [Evaluations.Event.toCache, Cache.Event.isMove]
    | .move n mv => exact absurd he' (hmoves n mv)
  · rw [hserved.answers] at ha
    obtain ⟨b, hb, rfl⟩ := List.mem_map.1 ha
    rw [isFlagged_evaluationResponse, hentitled.isDegraded (hserved.results b hb)]

end Licensing.Service.Serving
