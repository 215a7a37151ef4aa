import Licensing.Yaml.Node

/-!
# Bundle definitions

A bundle groups product identifiers, and says what it asks of the caller's identity. The
definitions are the entries of a YAML list. An entry is a mapping: keys that it does not know
are skipped with whatever stands below them, a key it knows may stand only once, and everything
but the name may be missing.
-/

namespace Licensing

/-- What a bundle asks of the identity of the caller. -/
structure Attributes where
  /-- A valid account number. -/
  useValidAccNum : Bool
  /-- A valid organization. -/
  useValidOrgId : Bool
  /-- An internal caller. -/
  useIsInternal : Bool
deriving DecidableEq, Inhabited

/-- A definition of a bundle. -/
structure Definition where
  /-- The name of the bundle. -/
  name : String
  /-- What it asks of the caller. -/
  attributes : Attributes
  /-- The products of the bundle. -/
  skus : List String
  /-- The products that have to be paid for. -/
  paidSkus : List String
  /-- The products on trial. -/
  evalSkus : List String
deriving DecidableEq, Inhabited

namespace Yaml.Document

variable (d : Document)

/-! ### Values -/

/-- The text of a scalar, as it was written. -/
def text? (n : Node) : Option String :=
  match d.resolve n with
  | .scalar text _ _ => some text
  | _ => none

/-- The full name of the tag for truth values. -/
def boolTag : String := "tag:yaml.org,2002:bool"

/-- The truth value of a plain scalar, or of a literal one with the tag for it. -/
def bool? (n : Node) : Option Bool :=
  match d.resolve n with
  | .scalar text style tag =>
    if style ≠ .plain && !(style = .literal && tag = some boolTag) then none
    else if text = "true" || text = "True" || text = "TRUE" then some true
    else if text = "false" || text = "False" || text = "FALSE" then some false
    else none
  | _ => none

/-- The items of a list; a missing node is a list without items. -/
def items? (n : Node) : Option (List Node) :=
  match d.resolve n with
  | .list items => some items
  | .scalar text style _ => if text = "" && style = .plain then some [] else none
  | _ => none

/-- The texts of a list of scalars. -/
def texts? (n : Node) : Option (List String) :=
  (d.items? n).bind fun items ↦ items.mapM d.text?

/-- The members of a mapping whose keys are scalars, by those. -/
def members? (n : Node) : Option (List (String × Node)) :=
  match d.resolve n with
  | .mapping members => members.mapM fun m ↦ (d.text? m.1).map fun key ↦ (key, m.2)
  | _ => none

end Yaml.Document

/-! ### Definitions -/

namespace Definition

open Yaml (Node Document)

/-- What a mapping has under a key, or a value for its absence; none when the key stands twice. -/
def member? {α : Type} (members : List (String × Node)) (key : String) (absent : Option α)
    (value : Node → Option α) : Option α :=
  match members.filter fun m ↦ m.1 = key with
  | [] => absent
  | [m] => value m.2
  | _ => none

/-- The definition that a node of a document holds. -/
def ofNode? (d : Document) (n : Node) : Option Definition := do
  let members ← d.members? n
  let flag (key : String) := member? members key (some false) d.bool?
  let texts (key : String) := member? members key (some []) d.texts?
  let name ← member? members "name" none d.text?
  let useValidAccNum ← flag "use_valid_acc_num"
  let useValidOrgId ← flag "use_valid_org_id"
  let useIsInternal ← flag "use_is_internal"
  let skus ← texts "skus"
  let paidSkus ← texts "paid_skus"
  let evalSkus ← texts "eval_skus"
  some ⟨name, ⟨useValidAccNum, useValidOrgId, useIsInternal⟩, skus, paidSkus, evalSkus⟩

/-- The definitions of a document. -/
def ofDocument? (d : Document) : Option (List Definition) :=
  (d.items? d.root).bind fun items ↦ items.mapM (ofNode? d)

/-- The definitions in a text. -/
def readAll (text : String) : Option (List Definition) :=
  (Document.read text.toList).bind ofDocument?

end Definition

end Licensing
