import Licensing.Proofs.OrderedMap
import Licensing.Service.Handlers

/-!
# What the counters say

A counter that was never incremented stands at zero. How an evaluation is counted is one of three
outcomes (`Evaluation.outcome`). Each evaluation that is counted adds to the counter of its own
outcome (`Metrics.Tally.finishServices`), so that these add up to the evaluations
(`Metrics.Tally.total`).
-/

namespace Licensing

/-! ### Counters -/

namespace Metrics

/-- Where a counter stands. -/
def counter (m : OrderedMap Nat) (k : String) : Nat :=
  (m.get? k).getD 0

/-- How often features were found in a way. -/
def outcomeCount (m : Metrics) (o : CacheOutcome) : Nat :=
  counter m.outcomes o.label

/-- How often a service failed. -/
def failureCount (m : Metrics) (service : String) : Nat :=
  counter m.remoteFailures service

/-- To increment a counter adds one to it and nothing to the others. -/
theorem counter_increment (m : OrderedMap Nat) (k k' : String) :
    counter (increment m k) k' = counter m k' + if k = k' then 1 else 0 := by
  rw [counter, increment, OrderedMap.get?_insert]
  split
  · rename_i h
    subst h
    rfl
  · rfl

end Metrics

/-- Outcomes are counted apart, for no two have the same label. -/
theorem CacheOutcome.label_inj {o o' : CacheOutcome} : o.label = o'.label ↔ o = o' := by
  cases o <;> cases o' <;> decide

/-! ### Counting evaluations -/

/-- How the features for an evaluation were found. -/
def Evaluation.outcome (e : Evaluation) : CacheOutcome :=
  if e.cacheHit then .hit else if e.isDegraded then .failClosed else .miss

namespace Metrics

variable {m m' : Metrics} {e : Evaluation} {es : List Evaluation}

/-- An answer of the cache is counted by its outcome. -/
@[simp] theorem outcomeCount_recordCache (m : Metrics) (o o' : CacheOutcome) :
    (m.recordCache o).outcomeCount o' = m.outcomeCount o' + if o = o' then 1 else 0 := by
  simp only [outcomeCount, recordCache, counter_increment, CacheOutcome.label_inj]

/-- A degraded answer is counted apart from the outcomes of the cache. -/
@[simp] theorem outcomeCount_recordDegraded (m : Metrics) (o : CacheOutcome) :
    m.recordDegraded.outcomeCount o = m.outcomeCount o := rfl

/-- So is the failure of a service. -/
@[simp] theorem outcomeCount_recordRemoteFailure (m : Metrics) (service : String)
    (o : CacheOutcome) : (m.recordRemoteFailure service).outcomeCount o = m.outcomeCount o := rfl

/-- An answer of the cache is no failure of a service. -/
@[simp] theorem failureCount_recordCache (m : Metrics) (o : CacheOutcome) (service : String) :
    (m.recordCache o).failureCount service = m.failureCount service := rfl

/-- Neither is a degraded answer. -/
@[simp] theorem failureCount_recordDegraded (m : Metrics) (service : String) :
    m.recordDegraded.failureCount service = m.failureCount service := rfl

/-- The failure of a service is counted for this service. -/
@[simp] theorem failureCount_recordRemoteFailure (m : Metrics) (service service' : String) :
    (m.recordRemoteFailure service).failureCount service' =
      m.failureCount service' + if service = service' then 1 else 0 := by
  simp only [failureCount, recordRemoteFailure, counter_increment]

/-- An answer of the cache alone is not counted as degraded. -/
@[simp] theorem degraded_recordCache (m : Metrics) (o : CacheOutcome) :
    (m.recordCache o).degraded = m.degraded := rfl

/-- A degraded answer is counted once. -/
@[simp] theorem degraded_recordDegraded (m : Metrics) :
    m.recordDegraded.degraded = m.degraded + 1 := rfl

/-- The failure of a service alone is not counted as degraded. -/
@[simp] theorem degraded_recordRemoteFailure (m : Metrics) (service : String) :
    (m.recordRemoteFailure service).degraded = m.degraded := rfl

/-- What the counters say after some evaluations. -/
structure Tally (es : List Evaluation) (m : Metrics) : Prop where
  /-- Each of them was counted as what it is. -/
  outcome : ∀ o, m.outcomeCount o = es.countP fun e ↦ e.outcome = o
  /-- The feature service failed where the features are not known. -/
  failure : m.failureCount featureService = m.outcomeCount .failClosed
  /-- The answers without features were counted. -/
  degraded : m.degraded = es.countP Evaluation.isDegraded

/-- Nothing is counted before anything was answered. -/
theorem tally_default : Tally [] default where
  outcome _ := rfl
  failure := rfl
  degraded := rfl

/-- One more answer is counted by its outcome, as a failure of the feature service if it was one,
and as degraded if it is. -/
theorem Tally.concat (h : Tally es m)
    (ho : ∀ o, m'.outcomeCount o = m.outcomeCount o + if e.outcome = o then 1 else 0)
    (hf : m'.failureCount featureService =
      m.failureCount featureService + if e.outcome = .failClosed then 1 else 0)
    (hd : m'.degraded = m.degraded + if e.isDegraded then 1 else 0) : Tally (es ++ [e]) m' where
  outcome o := by
    rw [ho, h.outcome, List.countP_append, List.countP_singleton]
    simp only [decide_eq_true_eq]
  failure := by rw [hf, ho, h.failure]
  degraded := by rw [hd, h.degraded, List.countP_append, List.countP_singleton]

/-- **One more evaluation is counted** as what it is. -/
theorem Tally.finishServices (h : Tally es m) (e : Evaluation) :
    ∃ m', (Service.finishServices false (some m) e).2 = some m' ∧ Tally (es ++ [e]) m' := by
  rcases hhit : e.cacheHit with _ | _ <;> rcases hdegraded : e.isDegraded with _ | _ <;>
    simp only [Service.finishServices, Service.countEvaluation, hhit, hdegraded] <;>
    exact ⟨_, rfl, h.concat (by simp [Evaluation.outcome, hhit, hdegraded])
      (by simp [Evaluation.outcome, hhit, hdegraded]) (by simp [hdegraded])⟩

/-- Every evaluation is one of three. -/
theorem Tally.total (h : Tally es m) :
    m.outcomeCount .hit + m.outcomeCount .miss + m.outcomeCount .failClosed = es.length := by
  simp only [h.outcome]
  clear h
  induction es with
  | nil => rfl
  | cons e es ih =>
    simp only [List.countP_cons, List.length_cons]
    rcases e.outcome <;> simp <;> omega

/-- Those that are not served from memory are the other two. -/
theorem Tally.missed (h : Tally es m) :
    m.outcomeCount .miss + m.outcomeCount .failClosed = es.countP fun e ↦ !e.cacheHit := by
  simp only [h.outcome]
  clear h
  induction es with
  | nil => rfl
  | cons e es ih =>
    have hone : ((if e.outcome = .miss then 1 else 0) + if e.outcome = .failClosed then 1 else 0) =
        if (!e.cacheHit) = true then 1 else 0 := by
      rcases hhit : e.cacheHit with _ | _ <;> rcases hdegraded : e.isDegraded with _ | _ <;>
        simp [Evaluation.outcome, hhit, hdegraded]
    simp only [List.countP_cons, decide_eq_true_eq]
    omega

end Metrics

end Licensing
