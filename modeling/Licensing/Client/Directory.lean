import Licensing.Client.Build
import Licensing.Seat.Types

/-!
# The client of the user directory
-/

namespace Licensing.Client

open Json (Document Value)

/-- The client of the user directory. -/
structure DirectoryClient where
  /-- The address. -/
  endpoint : Url
  /-- The token for the directory. -/
  token : String
  /-- The identifier of the client. -/
  clientId : String
  /-- The environment that is asked about. -/
  environment : String
deriving Inhabited

namespace DirectoryClient

/-- The name of the service. -/
abbrev service : String := RemoteError.directoryService

/-- The client for an address. -/
def create (base clientId token environment : String) : Except InitError DirectoryClient :=
  (buildUrl service base "/v3/users" []).map fun url ↦ ⟨url, token, clientId, environment⟩

/-- The request about a user. -/
def request (c : DirectoryClient) (username : String) : Request where
  method := "POST"
  url := c.endpoint
  headers := [("x-rh-apitoken", c.token), ("x-rh-clientid", c.clientId),
    ("x-rh-insights-env", c.environment), jsonType]
  body := Utf8.encodeText (Value.object [("users", .texts [username])]).compact

/-- A user of a document. -/
def user? (d : Document) : Option DirectoryUser :=
  match d.fields? ["username", "org_id", "email", "is_org_admin"] with
  | some [username, org, email, admin] => do
    some ⟨← Document.required? Document.text? username, ← Document.default? "" Document.text? org,
      ← Document.default? "" Document.text? email, ← Document.default? false Document.bool? admin⟩
  | _ => none

/-- What the reply says about a user. -/
def understand (username : String) (status : Nat) (body : Utf8.Bytes) :
    Except RemoteError DirectoryUser := do
  if !isSuccess status then .error (.directory status (excerpt body))
  match (← decodeBody service (Document.list? user?) body).head? with
  | some u => .ok u
  | none => .error (.directory 404 ("user " ++ username ++ " not found"))

/-- Asks about a user. -/
def ask {σ : Type} (network : Network σ) (c : DirectoryClient) (s : σ) (username : String) :
    Except RemoteError DirectoryUser × σ :=
  match fetch network service s (c.request username) with
  | (.error e, s) => (.error e, s)
  | (.ok (status, body), s) => (understand username status body, s)

end DirectoryClient

end Licensing.Client
