import Licensing.Evaluations
import Licensing.Service.Handlers

/-!
# Requests about bundles that share the service

Any number of requests about bundles are served at the same time, by evaluations that share the
evaluator. A request that finds the service to itself is served by `handleServices`, and so is one
after another (`answerInTurn`).
-/

namespace Licensing.Service

variable {σ : Type}

/-- The evaluation that a request asks for. -/
def evaluationRequest (i : Identity) (query : Option String) : EvaluationRequest :=
  ⟨i, (servicesQuery query).filter, (servicesQuery query).fresh⟩

/-- The answer to the request of an evaluation, once it has its decisions. -/
def answer? (s : Evaluations) (k : Nat) : Option Response :=
  (s.result? k).map evaluationResponse

/-- The answers to requests that come one after another. -/
def answerInTurn (b : Backends σ) (s : State σ) :
    List (Identity × Option String) → List Response × State σ
  | [] => ([], s)
  | (i, query) :: rest =>
    let (answer, s) := handleServices b s i query
    let (answers, s) := answerInTurn b s rest
    (answer :: answers, s)

end Licensing.Service
