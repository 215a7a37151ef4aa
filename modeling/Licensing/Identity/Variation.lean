import Licensing.Identity.Header
import Licensing.Json.Grammar
import Licensing.Json.Lookup

/-!
# Variations of an identity document

Of the members of an identity document some are read, and which ones depends on the part of the
document in which they stand: `org_id` is read in the identity and in its internal part, but not in
the part about a user. Anything may be added that is not read where it stands, and members may come
in any order, in every object of the document and in what nobody reads.
-/

namespace Licensing

open Json (Document)
open Utf8 (Bytes)

namespace Identity

/-! ### Parts -/

/-- The parts of a document, told apart by what is read in them. -/
inductive Part where
  /-- The whole document. -/
  | document
  /-- The identity that it wraps. -/
  | identity
  /-- The internal part of the identity. -/
  | internal
  /-- The part about a user. -/
  | user
  /-- The part about a service account. -/
  | serviceAccount
  /-- Any other value, of which no member is read. -/
  | other
deriving DecidableEq, Repr

namespace Part

/-- The names of the members that are read in a part. -/
def names : Part → List String
  | document => ["identity"]
  | identity => ["account_number", "org_id", "type", "internal", "user", "service_account"]
  | internal => ["org_id"]
  | user => ["username", "email", "is_internal", "is_org_admin"]
  | serviceAccount => ["username"]
  | other => []

/-- The part that the member of a name is. -/
def member : Part → String → Part
  | document, "identity" => identity
  | identity, "internal" => internal
  | identity, "user" => user
  | identity, "service_account" => serviceAccount
  | _, _ => other

/-- The part that a member is, by its name as written. -/
def memberAt (p : Part) (raw : Bytes) : Part :=
  match Json.textOf raw with
  | some name => p.member name
  | none => other

/-- A member is not read in a part, by its name as written. -/
def Ignores (p : Part) (raw : Bytes) : Prop :=
  p = other ∨ ∃ name, Json.textOf raw = some name ∧ name ∉ p.names

/-- Where in a document the parts stand. -/
def paths : List (List String) :=
  [[], ["identity"], ["identity", "internal"], ["identity", "user"],
    ["identity", "service_account"]]

end Part

/-- No part of a document is a list. (A record may be given as the list of its fields, and then no
name says what is read.) -/
def BuiltOfObjects (d : Document) : Prop :=
  ∀ path ∈ Part.paths, ∀ items, d.valueAt path ≠ some (.list items)

/-! ### Edits -/

/-- One edit of what stands as a part of a document. -/
inductive Edit : Part → Document → Document → Prop where
  /-- A member is added that is not read there, with any value. -/
  | add {p : Part} {raw : Bytes} {d : Document} {members : List (Bytes × Document)}
    (h : p.Ignores raw) : Edit p (.object members) (.object ((raw, d) :: members))
  /-- The members come in another order. -/
  | permute {p : Part} {members members' : List (Bytes × Document)} (h : members.Perm members') :
    Edit p (.object members) (.object members')
  /-- The value of a member is edited. -/
  | within {p : Part} {raw : Bytes} {d d' : Document} {members : List (Bytes × Document)}
    (h : Edit (p.memberAt raw) d d') :
    Edit p (.object ((raw, d) :: members)) (.object ((raw, d') :: members))
  /-- An item of a list that is no part is edited. -/
  | item {d d' : Document} {before after : List Document} (h : Edit .other d d') :
    Edit .other (.list (before ++ d :: after)) (.list (before ++ d' :: after))

/-! ### Headers -/

/-- The text of a header is the Base64 form of a way to write a document, blanks around it
aside. -/
def Presents (text : String) (d : Document) : Prop :=
  ∃ bytes, Base64.decode (Text.trim text).toList = some bytes ∧ Json.Writes d bytes

end Identity

end Licensing
