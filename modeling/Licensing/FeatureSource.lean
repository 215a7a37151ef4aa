import Licensing.Cache.Store

/-!
# A feature service in memory

It holds a snapshot for each organization it knows and one for all others, and it can be told
to fail and to take its time.
-/

namespace Licensing

/-- The feature service. -/
structure FeatureSource where
  /-- The snapshot of every organization without its own. -/
  snapshot : Snapshot
  /-- The snapshots of organizations. -/
  orgs : OrderedMap Snapshot
  /-- The failure of every request. -/
  failure : Option RemoteError
  /-- How long a request takes, in milliseconds. -/
  delay : Nat
deriving Inhabited

/-- The outcome of a request about an organization. -/
def FeatureSource.answer (s : FeatureSource) (org : String) : Cache.Outcome :=
  match s.failure with
  | some e => .error e
  | none => .ok ((s.orgs.get? org).getD s.snapshot)

/-- A change of the feature service. -/
inductive SourceChange where
  /-- Every request fails from now on, or no longer does. -/
  | failure (e : Option RemoteError)
  /-- An organization has another snapshot. -/
  | org (org : String) (s : Snapshot)
  /-- Requests take another time. -/
  | delay (ms : Nat)

/-- The feature service after a change. -/
def FeatureSource.apply (s : FeatureSource) : SourceChange → FeatureSource
  | .failure e => { s with failure := e }
  | .org org snapshot => { s with orgs := s.orgs.insert org snapshot }
  | .delay ms => { s with delay := ms }

end Licensing
