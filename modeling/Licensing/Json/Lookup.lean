import Licensing.Json.Document

/-!
# Looking into a document

A path of names leads into objects that stand inside each other. Of members with one name the first
counts here; a reader of records refuses an object in which a name that it knows stands twice, so
for what it accepts there is only one.
-/

namespace Licensing.Json.Document

/-- The value of the first member of a name. -/
def member? (name : String) : Document → Option Document
  | .object members => (members.find? fun m ↦ textOf m.1 = some name).map (·.2)
  | _ => none

/-- The value that stands in objects inside each other, under these names. -/
def valueAt : List String → Document → Option Document
  | [], d => some d
  | name :: path, d => (d.member? name).bind (valueAt path)

/-- The text that a value is, empty if there is none. -/
def textOrEmpty : Option Document → String
  | some (.text raw) => (textOf raw).getD ""
  | _ => ""

end Licensing.Json.Document
