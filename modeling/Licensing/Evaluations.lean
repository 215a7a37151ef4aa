import Licensing.Evaluator

/-!
# Evaluations that share an evaluator

Any number of evaluations go on at the same time. Each asks the cache once, as a caller with a
number of its own, and has its decisions as soon as that caller is done. An evaluation that is
cancelled has none.
-/

namespace Licensing

/-- What an evaluation is about. -/
structure EvaluationRequest where
  /-- Who calls. -/
  identity : Identity
  /-- The bundles that the caller asks about. -/
  filter : BundleFilter
  /-- Whether only features that come in after it started will do. -/
  force : Bool
deriving DecidableEq, Inhabited

/-- An evaluator with all its evaluations. -/
structure Evaluations where
  /-- The evaluator. -/
  evaluator : Evaluator
  /-- The evaluations that ever started, by number, with their callers of the cache. One that asks
  nobody has none. -/
  started : List (EvaluationRequest × Option Nat)
deriving Inhabited

namespace Evaluations

/-- Something that happens. -/
inductive Event where
  /-- Another evaluation starts. -/
  | request (q : EvaluationRequest)
  /-- A caller of the cache does a step. -/
  | move (caller : Nat) (m : Cache.Move)
  /-- Time passes. -/
  | tick (ms : Nat)

/-- What happens to the cache. -/
def Event.toCache : Event → Cache.Event
  | .request q => .call q.identity.orgId q.force
  | .move caller m => .move caller m
  | .tick ms => .tick ms

/-- The evaluations of an evaluator before the first one. -/
def start (r : Registry) (c : Cache.Config) (entitleAll : Bool) : Evaluations :=
  ⟨Evaluator.start r c entitleAll, []⟩

/-- The cache of the evaluator. -/
def cache (s : Evaluations) : Cache.Machine :=
  s.evaluator.cache

/-- Another state of the cache. -/
def setCache (s : Evaluations) (m : Cache.Machine) : Evaluations :=
  { s with evaluator := { s.evaluator with cache := m } }

/-- Another evaluation. -/
def note (s : Evaluations) (q : EvaluationRequest) (caller : Option Nat) : Evaluations :=
  { s with started := s.started ++ [(q, caller)] }

/-- What happens next, if it can happen. -/
def step (s : Evaluations) (e : Event) : Option Evaluations :=
  match e with
  | .request q =>
    if s.evaluator.entitleAll then some (s.note q none)
    else (s.cache.step e.toCache).map fun m ↦ (s.note q (some s.cache.callers.length)).setCache m
  | .move .. | .tick _ => (s.cache.step e.toCache).map s.setCache

/-- The state after a list of events, if they can happen one after another. -/
def run (s : Evaluations) (es : List Event) : Option Evaluations :=
  es.foldlM step s

/-- The decisions of an evaluation, once it has them. -/
def result? (s : Evaluations) (k : Nat) : Option Evaluation :=
  match s.started[k]? with
  | some (_, none) => some (.ofAll s.evaluator.registry)
  | some (q, some caller) =>
    (s.cache.answer? caller).map (.ofLookup s.evaluator.registry q.identity q.filter)
  | none => none

end Evaluations

end Licensing
