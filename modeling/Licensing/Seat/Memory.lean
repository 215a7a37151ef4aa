import Licensing.Identity.Basic
import Licensing.OrderedMap
import Licensing.Seat.Dialogue

/-!
# An accounts system and a user directory in memory

They hold quotas, subscriptions and users, answer by them and change them, and note what they
were asked. The accounts system can be told to fail, and to answer every request for an
authorization in one way.
-/

namespace Licensing

/-- What the accounts system was asked. -/
structure AccountsLog where
  /-- The questions for subscriptions. -/
  subscriptionQueries : List SubscriptionQuery
  /-- The questions for quotas: the organization and the search expression. -/
  quotaSearches : List (String × String)
  /-- The requests for authorizations. -/
  authorizationRequests : List AuthorizationRequest
  /-- The subscriptions that were deleted. -/
  deleted : List String
deriving DecidableEq, Inhabited

/-- The accounts system and the user directory. -/
structure Accounts where
  /-- The names of organizations in the accounts system. -/
  orgNames : OrderedMap String
  /-- The quotas of organizations. -/
  quotas : OrderedMap Quota
  /-- The subscriptions by their identifiers. -/
  subscriptions : OrderedMap Subscription
  /-- The answer to every request for an authorization. -/
  scripted : Option Authorization
  /-- The failure of every question to the accounts system. -/
  failure : Option RemoteError
  /-- The users by their logins. -/
  users : OrderedMap DirectoryUser
  /-- How many subscriptions were made. Their identifiers show the last 64 bits of it. -/
  made : Nat
  /-- What the accounts system was asked. -/
  log : AccountsLog
deriving Inhabited

namespace Accounts

/-- The name of the accounts system among the services. -/
def service : String := "accounts"

/-- What the name of an organization starts with in the accounts system. -/
def orgMark : String := "AMSORG"

/-- The failure for what is not there. -/
def notFound (what id : String) : RemoteError :=
  .client service 404 (what ++ " '" ++ id ++ "' not found")

/-- The name of an organization in the accounts system. -/
def convertOrg (a : Accounts) (org : String) : Except RemoteError String :=
  match a.orgNames.get? org with
  | some name => .ok name
  | none => if isValidId org then .ok (orgMark ++ org) else .error (notFound "organization" org)

/-- A page of the subscriptions, in ascending order of their identifiers. -/
def page (a : Accounts) (q : SubscriptionQuery) : List Subscription :=
  (a.subscriptions.values.drop (Decimal.capU64 ((q.page - 1) * q.size))).take q.size

/-- The quota with one seat fewer in use. -/
def release (q : Quota) : Quota :=
  { q with consumed := max (q.consumed - 1) 0 }

/-- The accounts system without a subscription. -/
def delete (a : Accounts) (id : String) (s : Subscription) : Accounts :=
  let quotas := match s.organizationId with
    | none => a.quotas
    | some org => match a.quotas.get? org with
      | some q => a.quotas.insert org (release q)
      | none => a.quotas
  { a with
    quotas := quotas
    subscriptions := a.subscriptions.erase id
    log := { a.log with deleted := a.log.deleted ++ [id] } }

/-- The first organization whose quota has the version that a request names. -/
def versionHolder (a : Accounts) (r : AuthorizationRequest) : Option (String × Quota) :=
  a.quotas.entries.find? fun e ↦ e.2.version.isSome && e.2.version == r.quotaVersion

/-- How many numbers there are for subscriptions. -/
def numbers : Nat := 0x10000000000000000

/-- The identifier of a subscription that is made, by its number. -/
def madeId (n : Nat) : String :=
  "sub-" ++ toString (n % numbers)

/-- Grants a request against the quota of an organization. -/
def grant (a : Accounts) (r : AuthorizationRequest) (org : String) (q : Quota) :
    Authorization × Accounts :=
  let id := madeId (a.made + 1)
  let creator : Creator := ⟨some r.accountUsername, none, none, none⟩
  (⟨true, 0, some id⟩, { a with
    quotas := a.quotas.insert org { q with consumed := q.consumed + 1 }
    subscriptions := a.subscriptions.insert id ⟨id, some org, "Active", some creator⟩
    made := a.made + 1 })

/-- Answers a request for an authorization. -/
def authorize (a : Accounts) (r : AuthorizationRequest) : Authorization × Accounts :=
  match a.scripted with
  | some answer => (answer, a)
  | none => match a.versionHolder r with
    | none => (⟨false, 0, none⟩, a)
    | some (org, q) =>
      if q.allowed ≤ q.consumed then (⟨false, max r.resources.length 1, none⟩, a)
      else a.grant r org q

/-- Answers a question to the accounts system when it does not fail. -/
def serve (a : Accounts) : (c : SeatCall) → c.Answer × Accounts
  | .quotaCost org search =>
    (.ok (a.quotas.get? org),
      { a with log := { a.log with quotaSearches := a.log.quotaSearches ++ [(org, search)] } })
  | .subscriptions q =>
    (.ok (a.page q),
      { a with log := { a.log with subscriptionQueries := a.log.subscriptionQueries ++ [q] } })
  | .subscription id => match a.subscriptions.get? id with
    | some s => (.ok s, a)
    | none => (.error (notFound "subscription" id), a)
  | .deleteSubscription id => match a.subscriptions.get? id with
    | some s => (.ok (), a.delete id s)
    | none => (.error (notFound "subscription" id), a)
  | .authorize r =>
    let a := { a with
      log := { a.log with authorizationRequests := a.log.authorizationRequests ++ [r] } }
    let (answer, a) := a.authorize r
    (.ok answer, a)
  | .convertOrg org => (a.convertOrg org, a)
  | .user username => match a.users.get? username with
    | some u => (.ok u, a)
    | none => (.error (.directory 404 ("user '" ++ username ++ "' not found")), a)

/-- Answers a question. The user directory does not fail with the accounts system. -/
def answer (a : Accounts) (c : SeatCall) : c.Answer × Accounts :=
  match c, a.failure with
  | .user username, _ => a.serve (.user username)
  | _, some e => (.error e, a)
  | c, none => a.serve c

end Accounts

end Licensing
