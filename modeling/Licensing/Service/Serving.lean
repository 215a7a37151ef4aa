import Licensing.Service.Traffic

/-!
# Counting what is served

Requests about bundles that are served at the same time share the metrics too. A request is counted
when its evaluation has its decisions, together with its answer; so the answers come in another
order than the requests.

This is a machine on top of the one for evaluations: an event is something that happens among the
evaluations, or a request is answered.
-/

namespace Licensing.Service

/-- Requests about bundles that are served at the same time. -/
structure Serving where
  /-- Their evaluations, by number. -/
  evaluations : Evaluations
  /-- What counts. -/
  metrics : Telemetry
  /-- The answers with the numbers of their requests, in the order in which they were given. -/
  answers : List (Nat × Response)
deriving Inhabited

namespace Serving

/-- Something that happens. -/
inductive Event where
  /-- Something happens among the evaluations, such as the start of another one. -/
  | evaluate (e : Evaluations.Event)
  /-- A request is answered. -/
  | answer (k : Nat)

/-- What happens among the evaluations. -/
def Event.evaluation? : Event → Option Evaluations.Event
  | .evaluate e => some e
  | .answer _ => none

/-- A service before the first request. -/
def start (r : Registry) (c : Cache.Config) (entitleAll : Bool) (t : Telemetry) : Serving :=
  ⟨Evaluations.start r c entitleAll, t, []⟩

/-- Answers a request that has no answer yet, once its evaluation has its decisions. -/
def answer (s : Serving) (k : Nat) : Option Serving :=
  if k ∈ s.answers.map Prod.fst then none
  else (s.evaluations.result? k).map fun e ↦
    let (response, metrics) := finishServices s.evaluations.evaluator.entitleAll s.metrics e
    { s with metrics := metrics, answers := s.answers ++ [(k, response)] }

/-- What happens next, if it can happen. -/
def step (s : Serving) : Event → Option Serving
  | .evaluate e => (s.evaluations.step e).map fun next ↦ { s with evaluations := next }
  | .answer k => s.answer k

/-- The state after a list of events, if they can happen one after another. -/
def run (s : Serving) (es : List Event) : Option Serving :=
  es.foldlM step s

end Serving

end Licensing.Service
