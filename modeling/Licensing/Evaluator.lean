import Licensing.Cache.Machine
import Licensing.Decision

/-!
# The evaluator

The decisions about a caller's bundles, made with what the cache answers about the features of
the caller's organization. An evaluator can be told to entitle everybody to everything; then it
asks nobody.
-/

namespace Licensing

open Cache (Lookup)

/-- The decisions about a caller's bundles. -/
structure Evaluation where
  /-- The decisions by bundle. -/
  decisions : OrderedMap Decision
  /-- The status of the failure for which the features are not known. -/
  degradedStatus : Option Nat
  /-- The features were remembered. -/
  cacheHit : Bool
deriving Inhabited

namespace Evaluation

/-- The features are not known. -/
def isDegraded (e : Evaluation) : Bool :=
  e.degradedStatus.isSome

/-- Everybody is entitled to everything. -/
def ofAll (r : Registry) : Evaluation :=
  ⟨r.bundles.map fun _ _ ↦ .entitled, none, false⟩

/-- The decisions made with an answer of the cache. -/
def ofLookup (r : Registry) (i : Identity) (filter : BundleFilter) (l : Lookup) : Evaluation :=
  ⟨evaluateBundles i filter r l.snapshot l.degraded, if l.degraded then some l.status else none,
    l.hit⟩

end Evaluation

/-- The evaluator. -/
structure Evaluator where
  /-- The bundles. -/
  registry : Registry
  /-- Everybody is entitled to everything. -/
  entitleAll : Bool
  /-- The cache of the feature service. -/
  cache : Cache.Machine
deriving Inhabited

/-- An evaluator whose cache is empty. -/
def Evaluator.start (r : Registry) (c : Cache.Config) (entitleAll : Bool) : Evaluator :=
  ⟨r, entitleAll, Cache.Machine.start c⟩

/-- Evaluates for one caller when there are no others. A request to the feature service takes
`delay` and has an outcome. Also tells whether one was sent. -/
def Evaluator.evaluate (e : Evaluator) (i : Identity) (filter : BundleFilter) (force : Bool)
    (delay : Nat) (outcome : Cache.Outcome) : Evaluation × Bool × Evaluator :=
  if e.entitleAll then (.ofAll e.registry, false, e)
  else
    let (cache, answer, fetched) := e.cache.ask i.orgId force delay outcome
    let lookup := answer.getD ⟨.empty, 503, false⟩
    (.ofLookup e.registry i filter lookup, fetched, { e with cache := cache })

end Licensing
