import Licensing.Client.Access
import Licensing.Client.Build
import Licensing.Seat.Memory

/-!
# The client of the accounts system

Every question of the seat operations but the one for a user is a request to the accounts
system. The identifiers in it are segments of the path or values of the query, and are escaped
as such. With credentials every request carries an access token.
-/

namespace Licensing.Client

open Utf8 (Bytes)
open Json (Document)

/-- What access tokens are asked for with. -/
structure Credentials where
  /-- The identifier of the client. -/
  clientId : String
  /-- The secret of the client. -/
  clientSecret : String
  /-- Where tokens are granted. -/
  tokenUrl : String
deriving DecidableEq, Inhabited

/-- The client of the accounts system. -/
structure AccountsClient where
  /-- The address of the accounts system. -/
  host : Url
  /-- The credentials, if there are any. -/
  credentials : Option Credentials
  /-- The access token. -/
  access : Access.Machine
deriving Inhabited

namespace AccountsClient

/-- The name of the service. -/
abbrev service : String := Accounts.service

/-- The client for a host. -/
def create (host : String) (credentials : Option Credentials) : Except InitError AccountsClient :=
  match Url.parse host with
  | .ok url =>
    if url.isOpaque then .error (.client ("invalid accounts host " ++ host))
    else .ok ⟨url, credentials, .start⟩
  | .error _ => .error (.client ("invalid accounts host " ++ host))

/-! ### Requests -/

/-- The URL of something below the accounts system's interface. -/
def endpoint (c : AccountsClient) (segments : List String) (query : List (String × String)) : Url :=
  (c.host.extendPath (["api", "accounts_mgmt", "v1"] ++ segments)).extendQuery query

/-- The search for an organization by its name outside of the accounts system. -/
def orgSearch (org : String) : String :=
  "external_id='" ++ org ++ "'"

/-- The request that asks a question. -/
def request (c : AccountsClient) : SeatCall → Request
  | .quotaCost org search =>
    ⟨"GET", c.endpoint ["organizations", org, "quota_cost"] [("search", search)], [], []⟩
  | .subscriptions q =>
    ⟨"GET", c.endpoint ["subscriptions"] [("search", q.search), ("page", toString q.page),
      ("size", toString q.size), ("fetchAccounts", "true")], [], []⟩
  | .subscription id =>
    ⟨"GET", c.endpoint ["subscriptions", id] [("fetchAccounts", "true")], [], []⟩
  | .deleteSubscription id => ⟨"DELETE", c.endpoint ["subscriptions", id] [], [], []⟩
  | .authorize r =>
    ⟨"POST", c.endpoint ["quota_authorizations"] [], [jsonType],
      Utf8.encodeText r.toValue.compact⟩
  | .convertOrg org =>
    ⟨"GET", c.endpoint ["organizations"] [("search", orgSearch org)], [], []⟩
  | .user _ => ⟨"GET", c.host, [], []⟩

/-- The request for an access token. -/
def tokenRequest (credentials : Credentials) (url : Url) : Request where
  method := "POST"
  url := url
  headers := [("content-type", "application/x-www-form-urlencoded")]
  body := Utf8.encodeText <| Form.encode [("grant_type", "client_credentials"),
    ("client_id", credentials.clientId), ("client_secret", credentials.clientSecret)]

/-! ### Replies -/

/-- The items of a list in a document. -/
def items? {α : Type} (item : Document → Option α) (d : Document) : Option (List α) :=
  match d.fields? ["items"] with
  | some [items] => Document.default? [] (Document.list? item) items
  | _ => none

/-- A text that may be missing or null. -/
def maybeText (d : Option Document) : Option (Option String) :=
  Document.default? none (Document.optional? Document.text?) d

/-- A quota of a document. -/
def quota? (d : Document) : Option Quota :=
  match d.fields? ["quota_id", "allowed", "consumed", "version"] with
  | some [id, allowed, consumed, version] => do
    some ⟨← Document.default? "" Document.text? id, ← Document.default? 0 Document.int64? allowed,
      ← Document.default? 0 Document.int64? consumed, ← maybeText version⟩
  | _ => none

/-- A creator of a document. -/
def creator? (d : Document) : Option Creator :=
  match d.fields? ["username", "first_name", "last_name", "email"] with
  | some [username, firstName, lastName, email] => do
    some ⟨← maybeText username, ← maybeText firstName, ← maybeText lastName, ← maybeText email⟩
  | _ => none

/-- A subscription of a document. -/
def subscription? (d : Document) : Option Subscription :=
  match d.fields? ["id", "organization_id", "status", "creator"] with
  | some [id, org, status, creator] => do
    some ⟨← Document.required? Document.text? id, ← maybeText org,
      ← Document.default? "" Document.text? status,
      ← Document.default? none (Document.optional? creator?) creator⟩
  | _ => none

/-- The identifier of a document. -/
def id? (d : Document) : Option String :=
  match d.fields? ["id"] with
  | some [id] => Document.required? Document.text? id
  | _ => none

/-- An authorization of a document. -/
def authorization? (d : Document) : Option Authorization :=
  match d.fields? ["allowed", "excess_resources", "subscription"] with
  | some [allowed, excess, subscription] => do
    let excess ← Document.default? [] (Document.list? Document.value?) excess
    some ⟨← Document.default? false Document.bool? allowed, excess.length,
      ← Document.default? none (Document.optional? id?) subscription⟩
  | _ => none

/-- A token of a document. -/
def grant? (d : Document) : Option Grant :=
  match d.fields? ["access_token", "expires_in"] with
  | some [token, expires] => do
    some ⟨← Document.required? Document.text? token,
      ← Document.default? none (Document.optional? (Document.nat? Decimal.maxU64)) expires⟩
  | _ => none

/-- An error that a document states: identifier, code, reason and operation. -/
def statedError? (status : Nat) (d : Document) : Option RemoteError :=
  match d.fields? ["id", "code", "reason", "operation_id"] with
  | some [id, code, reason, operation] => do
    let id ← maybeText id
    let code ← maybeText code
    let reason ← maybeText reason
    let operation ← maybeText operation
    code.map fun code ↦ .api service status code id operation (reason.getD "")
  | _ => none

/-- The failure that a reply states. -/
def apiError (status : Nat) (body : Bytes) : RemoteError :=
  (Json.readAs (statedError? status) body).getD (statusError service status body)

/-- The failure for an organization that is not there. -/
def orgNotFound (org : String) : RemoteError :=
  .client service 404 ("organization " ++ org ++ " not found")

/-- What the reply to a question says. -/
def understand (status : Nat) (body : Bytes) : (c : SeatCall) → c.Answer
  | .quotaCost .. => do
    if !isSuccess status then .error (apiError status body)
    return (← decodeBody service (items? quota?) body).head?
  | .subscriptions _ => do
    if !isSuccess status then .error (apiError status body)
    decodeBody service (items? subscription?) body
  | .subscription _ => do
    if !isSuccess status then .error (apiError status body)
    decodeBody service subscription? body
  | .deleteSubscription _ =>
    if isSuccess status then .ok () else .error (apiError status body)
  | .authorize _ => do
    if !isSuccess status then .error (apiError status body)
    decodeBody service authorization? body
  | .convertOrg org => do
    if !isSuccess status then .error (apiError status body)
    match (← decodeBody service (items? id?) body).head? with
    | some id => .ok id
    | none => .error (orgNotFound org)
  | .user username => .error (.directory 404 ("user '" ++ username ++ "' not found"))

/-- What the reply to a request for a token says. -/
def understandGrant (status : Nat) (body : Bytes) : Except RemoteError Grant :=
  if isSuccess status then decodeBody service grant? body
  else .error (statusError service status body)

/-! ### Asking -/

/-- Asks for a token. -/
def fetchGrant {σ : Type} (network : Network σ) (credentials : Credentials) (s : σ) :
    Except RemoteError Grant × σ :=
  match Url.parse credentials.tokenUrl with
  | .error _ => (.error (.transport service "builder error"), s)
  | .ok url => match fetch network service s (tokenRequest credentials url) with
    | (.error e, s) => (.error e, s)
    | (.ok (status, body), s) => (understandGrant status body, s)

/-- Why a call has no reply. -/
inductive Stop where
  /-- The service failed. -/
  | failed (e : RemoteError)
  /-- The call crashed: the clock cannot show the end of its token. -/
  | crashed
deriving DecidableEq, Inhabited

/-- The token for a call when there are no others, with the number of the call. -/
def bearer {σ : Type} (network : Network σ) (c : AccountsClient) (s : σ) :
    Except Stop (Option (Nat × String)) × AccountsClient × σ :=
  match c.credentials with
  | none => (.ok none, c, s)
  | some credentials =>
    let (call, access) := c.access.enter
    let (access, s) :=
      match access.phase? call with
      | some .requesting =>
        let (outcome, s) := fetchGrant network credentials s
        (access.poke call (.receive outcome), s)
      | _ => (access, s)
    let result := match access.phase? call with
      | some (.ready token) => .ok (some (call, token))
      | some (.failed e) => .error (.failed e)
      | _ => .error .crashed
    (result, { c with access := access }, s)

/-- Sends the request of a question, with a token if there is one. -/
def send {σ : Type} (network : Network σ) (c : AccountsClient) (s : σ) (r : Request) :
    Except Stop (Nat × Bytes) × AccountsClient × σ :=
  match c.bearer network s with
  | (.error stop, c, s) => (.error stop, c, s)
  | (.ok none, c, s) =>
    let (reply, s) := fetch network service s r
    (reply.mapError .failed, c, s)
  | (.ok (some (call, token)), c, s) =>
    let access := c.access.poke call .send
    let r := { r with headers := ("authorization", "Bearer " ++ token) :: r.headers }
    let (reply, s) := fetch network service s r
    (reply.mapError .failed, { c with access := access.poke call .reply }, s)

/-- What stands in place of the answer to a call without a reply. Who waits for a call that
crashes is gone with it, so in this case nobody sees it. -/
def Stop.notice : Stop → RemoteError
  | .failed e => e
  | .crashed => .transport service "overflow when adding duration to instant"

/-- The question that is refused without a request. -/
def refused? : SeatCall → Option RemoteError
  | .convertOrg org =>
    if org.toList.contains (Char.ofNat 0x27)
    then some (.client service 400 "org id must not contain quotes") else none
  | _ => none

/-- Asks a question. -/
def ask {σ : Type} (network : Network σ) (c : AccountsClient) (s : σ) (call : SeatCall) :
    call.Answer × AccountsClient × σ :=
  match refused? call with
  | some e => (.error e, c, s)
  | none => match c.send network s (c.request call) with
    | (.error stop, c, s) => (.error stop.notice, c, s)
    | (.ok (status, body), c, s) => (understand status body call, c, s)

end AccountsClient

end Licensing.Client
