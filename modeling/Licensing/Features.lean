import Licensing.Json.Record

/-!
# Feature snapshots

What the feature service says about one organization: for each feature, whether the
organization is entitled to it and whether that is a trial. A snapshot is a JSON object whose
list of features may be missing.
-/

namespace Licensing

open Json (Document Value)

/-- The name of the feature service among the services behind. -/
def featureService : String := "feature-status"

/-- The state of a feature. -/
structure Feature where
  /-- The name, which is that of a bundle. -/
  name : String
  /-- Whether the organization only tries it. -/
  isEval : Bool
  /-- Whether the organization is entitled to it. -/
  entitled : Bool
deriving DecidableEq, Inhabited

/-- The features of one organization. -/
structure Snapshot where
  /-- The features, in the order of the service. -/
  features : List Feature
deriving DecidableEq, Inhabited

/-- The snapshot without features, which entitles to nothing. -/
def Snapshot.empty : Snapshot :=
  ⟨[]⟩

/-- The first feature of a name. -/
def Snapshot.find? (s : Snapshot) (name : String) : Option Feature :=
  s.features.find? fun f ↦ f.name = name

/-- A feature of a document. -/
def Feature.ofDocument? (d : Document) : Option Feature :=
  match d.fields? ["name", "isEval", "entitled"] with
  | some [name, isEval, entitled] => do
    some ⟨← Document.required? Document.text? name,
      ← Document.default? false Document.bool? isEval,
      ← Document.default? false Document.bool? entitled⟩
  | _ => none

/-- The snapshot of a document. -/
def Snapshot.ofDocument? (d : Document) : Option Snapshot :=
  match d.fields? ["features"] with
  | some [features] => (Document.default? [] (Document.list? Feature.ofDocument?) features).map .mk
  | _ => none

/-- A feature as a JSON value. -/
def Feature.toValue (f : Feature) : Value :=
  .object [("name", .text f.name), ("isEval", .bool f.isEval), ("entitled", .bool f.entitled)]

/-- A snapshot as a JSON value. -/
def Snapshot.toValue (s : Snapshot) : Value :=
  .object [("features", .list (s.features.map Feature.toValue))]

end Licensing
