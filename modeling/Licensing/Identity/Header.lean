import Licensing.Identity.Basic
import Licensing.Json.Record
import Licensing.Text.Base64
import Licensing.Text.Blank

/-!
# The identity in a request

A request states the identity of its caller in a header: a JSON document in Base64. The
document has parts for internal data, for a user and for a service account, and everything in
it may be missing but the identity itself.
-/

namespace Licensing

open Json (Document)

/-- Why a request has no identity. -/
inductive IdentityError where
  /-- There is no header. -/
  | missing
  /-- The header is not Base64. -/
  | encoding
  /-- The document is not an identity. -/
  | document
deriving DecidableEq, Inhabited

namespace Identity

/-- The name of the header. -/
def headerName : String := "x-rh-identity"

end Identity

/-- The error in words. -/
def IdentityError.message : IdentityError → String
  | .missing => "missing " ++ Identity.headerName ++ " header"
  | .encoding => Identity.headerName ++ " header is not valid base64"
  | .document => Identity.headerName ++ " header is not a valid identity: not an identity document"

namespace Identity

/-! ### Parts of the document -/

/-- What a document states about a user. -/
structure UserPart where
  /-- The login. -/
  username : String
  /-- The mail address. -/
  email : String
  /-- Whether the user is marked as internal. -/
  isInternal : Bool
  /-- Whether the user administers the organization. -/
  isOrgAdmin : Bool
deriving DecidableEq, Inhabited

/-- A text that may be missing, and then is empty. -/
def textField (d : Option Document) : Option String :=
  Document.default? "" Document.text? d

/-- A flag that may be missing, and then is off. -/
def flagField (d : Option Document) : Option Bool :=
  Document.default? false Document.bool? d

/-- A part that may be missing. -/
def partField {α : Type} (part : Document → Option α) (d : Option Document) : Option (Option α) :=
  Document.default? none (Document.optional? part) d

/-- A part that holds one text. -/
def textPart? (name : String) (d : Document) : Option String :=
  match d.fields? [name] with
  | some [text] => textField text
  | _ => none

/-- The part about a user. -/
def UserPart.ofDocument? (d : Document) : Option UserPart :=
  match d.fields? ["username", "email", "is_internal", "is_org_admin"] with
  | some [username, email, isInternal, isOrgAdmin] => do
    some ⟨← textField username, ← textField email, ← flagField isInternal, ← flagField isOrgAdmin⟩
  | _ => none

/-! ### Putting the parts together -/

/-- The kind of caller that a document names. -/
def principalOf (name : String) : Principal :=
  if name = "ServiceAccount" then .serviceAccount else .user

/-- The login: that of the service account if the caller is one and the document has it. -/
def loginOf (p : Principal) (user : UserPart) (account : Option String) : String :=
  match p, account with
  | .serviceAccount, some name => name
  | _, _ => user.username

/-- The identity of a document. The organization may stand in the internal part. -/
def ofBody? (d : Document) : Option Identity :=
  match d.fields? ["account_number", "org_id", "type", "internal", "user", "service_account"] with
  | some [accountNumber, orgId, type, internal, user, account] => do
    let accountNumber ← textField accountNumber
    let orgId ← textField orgId
    let type ← textField type
    let internal ← partField (textPart? "org_id") internal
    let user ← partField UserPart.ofDocument? user
    let account ← partField (textPart? "username") account
    let user := user.getD default
    let principal := principalOf type
    some
      { accountNumber := accountNumber
        orgId := if orgId = "" then internal.getD "" else orgId
        isInternal := user.isInternal
        email := user.email
        username := loginOf principal user account
        principal := principal
        orgAdmin := user.isOrgAdmin }
  | _ => none

/-- The identity of a document that wraps it. -/
def ofDocument? (d : Document) : Option Identity :=
  match d.fields? ["identity"] with
  | some [identity] => Document.required? ofBody? identity
  | _ => none

/-- The identity that the text of a header states. -/
def ofHeaderText (text : String) : Except IdentityError Identity :=
  match Base64.decode (Text.trim text).toList with
  | none => .error .encoding
  | some bytes => match Json.readAs ofDocument? bytes with
    | some i => .ok i
    | none => .error .document

/-- A byte that may stand in the text of a header: a tab or a printable character of ASCII. -/
def isHeaderByte (b : UInt8) : Bool :=
  b.toNat = 9 || (32 ≤ b.toNat && b.toNat ≤ 126)

/-- The identity that a header states, if there is one. -/
def ofHeader (value : Option Utf8.Bytes) : Except IdentityError Identity :=
  match value with
  | none => .error .missing
  | some bytes =>
    if bytes.all isHeaderByte then ofHeaderText (String.ofList (Utf8.decodeLossy bytes))
    else .error .encoding

end Identity

end Licensing
