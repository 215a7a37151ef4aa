import Licensing.Bundle.Definition
import Licensing.OrderedMap
import Licensing.Text.Blank

/-!
# The registry of bundles

A definition with products that are paid for or on trial makes two bundles: one with all of its
products, and its *paid variant*, whose name has a suffix and which holds only the products
that are paid for. The registry holds the bundles of all definitions by their names. It is
built once; two bundles of one name are an error, and so is a blank name.
-/

namespace Licensing

/-- A bundle of the registry. -/
structure Bundle where
  /-- The name, which no other bundle has. -/
  name : String
  /-- What the bundle asks of the caller. -/
  attributes : Attributes
  /-- The products that count for the bundle, strictly ascending. -/
  skus : List String
  /-- The products that have to be paid for, strictly ascending. -/
  paidSkus : List String
  /-- The products on trial, strictly ascending. -/
  evalSkus : List String
  /-- Whether this is the paid variant of another bundle. -/
  paidVariant : Bool
deriving DecidableEq, Inhabited

namespace Bundle

/-- A bundle has products that are paid for or on trial. -/
def isPaid (b : Bundle) : Bool :=
  !b.paidSkus.isEmpty || !b.evalSkus.isEmpty

/-- Whether a caller is entitled to a bundle depends on the feature service, and not only on
the caller's identity. For a paid variant it does even when no product is left in it. -/
def isSkuBased (b : Bundle) : Bool :=
  !b.skus.isEmpty || b.isPaid || b.paidVariant

end Bundle

/-- The texts of a list without repetitions, strictly ascending. -/
def ascending (texts : List String) : List String :=
  (OrderedMap.ofList (texts.map fun t ↦ (t, ()))).keys

namespace Definition

/-- The bundle of all the products of a definition. -/
def base (d : Definition) : Bundle where
  name := d.name
  attributes := d.attributes
  skus := ascending (d.skus ++ d.paidSkus ++ d.evalSkus)
  paidSkus := ascending d.paidSkus
  evalSkus := ascending d.evalSkus
  paidVariant := false

/-- The paid variant of a definition's bundle. -/
def paidVariant (d : Definition) (suffix : String) : Bundle where
  name := d.name ++ suffix
  attributes := d.attributes
  skus := ascending d.paidSkus
  paidSkus := ascending d.paidSkus
  evalSkus := []
  paidVariant := true

/-- The bundles that a definition makes. -/
def expand (d : Definition) (suffix : String) : List Bundle :=
  if d.base.isPaid then [d.base, d.paidVariant suffix] else [d.base]

end Definition

/-- Why a registry cannot be built. -/
inductive BundleError where
  /-- The file cannot be read. -/
  | io (message : String)
  /-- The document is no list of definitions. -/
  | parse
  /-- Something about the document or a definition in it is refused. -/
  | invalid (message : String)
  /-- Two bundles have one name. -/
  | duplicate (name : String)
deriving DecidableEq, Inhabited

/-- The error in words. -/
def BundleError.message : BundleError → String
  | .io message => "bundle file io error: " ++ message
  | .parse => "bundle file parse error: not a list of bundle definitions"
  | .invalid message => "invalid bundle definition: " ++ message
  | .duplicate name => "duplicate bundle name: " ++ name

/-- The bundles by their names. -/
structure Registry where
  /-- The bundles. -/
  bundles : OrderedMap Bundle
deriving Inhabited

namespace Registry

/-- The registry without bundles. -/
def empty : Registry :=
  ⟨∅⟩

/-- The bundle of a name. -/
def get? (r : Registry) (name : String) : Option Bundle :=
  r.bundles.get? name

/-- All bundles, in ascending order of their names. -/
def all (r : Registry) : List Bundle :=
  r.bundles.values

/-- The names of the bundles that depend on the feature service, ascending. -/
def skuBasedNames (r : Registry) : List String :=
  (r.all.filter Bundle.isSkuBased).map Bundle.name

/-- How many bundles there are. -/
def size (r : Registry) : Nat :=
  r.bundles.size

/-- Adds a bundle, whose name may not be taken. -/
def add (r : Registry) (b : Bundle) : Except BundleError Registry :=
  if r.bundles.contains b.name then .error (.duplicate b.name)
  else .ok ⟨r.bundles.insert b.name b⟩

/-- Adds the bundles of a definition, whose name may not be blank. -/
def addDefinition (suffix : String) (r : Registry) (d : Definition) : Except BundleError Registry :=
  if Text.isBlank d.name then .error (.invalid "bundle name must not be empty")
  else (d.expand suffix).foldlM add r

/-- The registry of a list of definitions. -/
def ofDefinitions (ds : List Definition) (suffix : String) : Except BundleError Registry :=
  if suffix = "" then .error (.invalid "paid suffix must not be empty")
  else ds.foldlM (addDefinition suffix) empty

end Registry

end Licensing
