import Licensing.Client.Build

/-!
# The client of the screening service

The service screens a user and answers with a status and a JSON document, which are passed on as
they are.
-/

namespace Licensing

open Json (Value)

/-- Who is to be screened. -/
structure ScreeningRequest where
  /-- The login. -/
  login : String
  /-- The mail address. -/
  email : String
deriving DecidableEq, Inhabited

/-- The answer of the screening service. -/
structure ScreeningResult where
  /-- The status. -/
  status : Nat
  /-- The document. -/
  body : Value
deriving Inhabited

namespace Client

/-- The client of the screening service. -/
structure ScreeningClient where
  /-- The address. -/
  endpoint : Url
deriving Inhabited

namespace ScreeningClient

/-- The name of the service. -/
def service : String := "compliance"

/-- The client for a host. -/
def create (host : String) : Except InitError ScreeningClient :=
  (buildUrl service host "/v1/screening" []).map .mk

/-- The request about a user. -/
def request (c : ScreeningClient) (r : ScreeningRequest) : Request where
  method := "POST"
  url := c.endpoint
  headers := [jsonType]
  body := Utf8.encodeText <| Value.compact <| .object
    [("user", .object [("login", .text r.login)]),
      ("account", .object [("primary_email", .text r.email)])]

/-- Has a user screened. -/
def ask {σ : Type} (network : Network σ) (c : ScreeningClient) (s : σ) (r : ScreeningRequest) :
    Except RemoteError ScreeningResult × σ :=
  match fetch network service s (c.request r) with
  | (.error e, s) => (.error e, s)
  | (.ok (status, body), s) =>
    ((decodeBody service Json.Document.value? body).map fun v ↦ ⟨status, v⟩, s)

end ScreeningClient

end Client

end Licensing
