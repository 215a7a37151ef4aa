import Licensing.Bundle.Registry
import Licensing.Features
import Licensing.Identity.Basic
import Licensing.Text.Split

/-!
# Which bundles a caller is entitled to

A bundle without products is decided by the identity of the caller alone. For every other
bundle the feature of its name has to say so too, and while the features are not known nobody is
entitled to it.
-/

namespace Licensing

/-- Whether a caller is entitled to a bundle, and whether that is a trial. -/
structure Decision where
  /-- The caller is entitled. -/
  isEntitled : Bool
  /-- It is a trial. -/
  isTrial : Bool
deriving DecidableEq, Inhabited

namespace Decision

/-- Entitled without a trial. -/
def entitled : Decision := ⟨true, false⟩

/-- Not entitled. -/
def denied : Decision := ⟨false, false⟩

/-- A decision as a JSON value. -/
def toValue (d : Decision) : Json.Value :=
  .object [("is_entitled", .bool d.isEntitled), ("is_trial", .bool d.isTrial)]

end Decision

/-! ### Filters -/

/-- The bundles that a caller asks about. -/
structure BundleFilter where
  /-- The only bundles that are meant, ascending; empty for all of them. -/
  included : List String
  /-- The bundles that are not meant, ascending. -/
  excluded : List String
deriving DecidableEq, Inhabited

namespace BundleFilter

/-- The names in a list with commas, trimmed, without blank ones. -/
def names (list : String) : List String :=
  ascending (((Text.splitText ',' list).map Text.trim).filter (· ≠ ""))

/-- The filter of two lists with commas. -/
def ofLists (included excluded : Option String) : BundleFilter :=
  ⟨(included.map names).getD [], (excluded.map names).getD []⟩

/-- The filter lets a name through. Where names are included, the excluded ones do not
matter. -/
def admits (f : BundleFilter) (name : String) : Bool :=
  if f.included.isEmpty then !f.excluded.contains name else f.included.contains name

end BundleFilter

/-! ### Decisions -/

/-- The decision about one bundle. `degraded` tells that the features are not known. -/
def decideBundle (i : Identity) (b : Bundle) (s : Snapshot) (degraded : Bool) : Decision :=
  if !b.isSkuBased then ⟨i.satisfies b.attributes, false⟩
  else if degraded then .denied
  else match s.find? b.name with
    | some f => ⟨i.satisfies b.attributes && f.entitled, f.isEval⟩
    | none => .denied

/-- The decisions about all bundles that a filter lets through. -/
def evaluateBundles (i : Identity) (filter : BundleFilter) (r : Registry) (s : Snapshot)
    (degraded : Bool) : OrderedMap Decision :=
  (r.bundles.filter fun name _ ↦ filter.admits name).map fun _ b ↦ decideBundle i b s degraded

end Licensing
