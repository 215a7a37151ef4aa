import Licensing.Bundle.Registry
import Licensing.Files

/-!
# Loading the registry

The registry is loaded from a document or from the file that holds it. A document without
definitions is an error unless an empty registry is allowed, and then a missing file counts as
one.
-/

namespace Licensing.Registry

/-- The suffix of paid variants where none is stated. -/
def defaultSuffix : String := "_paid"

/-- The size in bytes that a document may have. -/
def maxFileBytes : Nat := 4 * 1024 * 1024

/-- The registry of a document. -/
def ofText (text suffix : String) (allowEmpty : Bool) : Except BundleError Registry :=
  let definitions := if Text.isBlank text then some [] else Definition.readAll text
  match definitions with
  | none => .error .parse
  | some ds =>
    if ds.isEmpty && !allowEmpty then .error (.invalid "bundle file defines no bundles")
    else ofDefinitions ds suffix

/-- The registry of the document in a file. -/
def load (files : FileReader) (path suffix : String) (allowEmpty : Bool) :
    Except BundleError Registry :=
  match files path with
  | .error e =>
    if allowEmpty && e = .notFound then .ok empty else .error (.io (path ++ ": " ++ e.message))
  | .ok bytes =>
    if bytes.size > maxFileBytes then .error (.invalid "bundle file exceeds size limit")
    else match String.fromUTF8? bytes with
      | none => .error (.invalid "bundle file must be utf-8")
      | some text => ofText text suffix allowEmpty

end Licensing.Registry
