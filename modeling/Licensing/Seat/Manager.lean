import Licensing.Identity.Basic
import Licensing.Seat.Dialogue
import Licensing.Seat.Search

/-!
# The seat operations

Seats are listed, assigned and revoked for the organization of the caller. Only an
administrator of the organization changes anything, a seat is assigned only to a user of the
organization, and a seat is revoked only when its subscription belongs to the organization. What
is put into a search expression is refused when it holds a single quote.
-/

namespace Licensing.Seat

/-- The product whose seats are managed, which is also the plan of their subscriptions. -/
def productId : String := "AnsibleWisdom"

/-- The pattern of the quotas for seats. -/
def quotaPattern : String := "seat|ansible.wisdom%"

/-- What stands for a name that is not known. -/
def placeholder : String := "UNKNOWN"

/-- A text holds a single quote. -/
def hasQuote (s : String) : Bool :=
  s.toList.contains (Char.ofNat 0x27)

/-! ### Questions -/

/-- The search for the quota of seats. -/
def quotaSearch : String :=
  (Search.empty.like "quota_id" quotaPattern).text

/-- The search for the subscriptions of seats. -/
def subscriptionSearch (org : String) (statuses : List String) : String :=
  let s := ((Search.empty.like "plan.id" productId).and).equals "organization_id" org
  (if statuses.isEmpty then s else s.and.oneOf "status" statuses).text

/-- The request for one seat. -/
def seatRequest (username : String) (version : Option String) : AuthorizationRequest where
  accountUsername := username
  productId := productId
  quotaVersion := version
  reserve := true
  resources := [⟨"ansible.wisdom", "seat", "standard", productId, 1⟩]

/-- The name of the caller's organization in the accounts system. -/
def convertOrg (i : Identity) : Dialogue String := do
  Dialogue.require (!hasQuote i.orgId) (.badRequest "org id must not contain quotes")
  let org ← Dialogue.call (.convertOrg i.orgId)
  Dialogue.require (!hasQuote org)
    (.internal ("accounts system returned an unusable org id for " ++ i.orgId))
  return org

/-- The caller has to administer the organization. -/
def requireAdmin (i : Identity) : Dialogue Unit :=
  Dialogue.require i.orgAdmin (.forbidden "caller is not an organization administrator")

/-! ### Listing -/

/-- The limit and the offset of a question, or what is wrong with them. -/
def validatePaging (q : SeatQuery) : Except SeatError (Nat × Nat) :=
  if q.limit ≤ 0 then .error (.badRequest "limit must be greater than 0")
  else if q.offset < 0 then .error (.badRequest "offset must not be negative")
  else .ok (q.limit.toNat, q.offset.toNat)

/-- The seat behind a subscription. -/
def ofSubscription (s : Subscription) : Seat :=
  let creator := s.creator.getD default
  { subscriptionId := s.id
    accountUsername := creator.username.getD placeholder
    firstName := creator.firstName.getD placeholder
    lastName := creator.lastName.getD placeholder
    email := creator.email.getD ""
    status := s.status }

/-- The page of seats made of what the accounts system answered. -/
def page (limit offset : Nat) (statuses : List String) (subscriptions : List Subscription)
    (quota : Option Quota) : SeatPage :=
  let seats := subscriptions.map ofSubscription
  { count := seats.length
    links := Paging.links limit offset statuses
    seats := seats
    allowed := (quota.map Quota.allowed).getD 0
    consumed := (quota.map Quota.consumed).getD 0 }

/-- Lists a page of the seats of the caller's organization. The subscriptions and the quota are
asked for at once. -/
def list (i : Identity) (q : SeatQuery) : Dialogue SeatPage :=
  match validatePaging q with
  | .error e => .fail e
  | .ok (limit, offset) => do
    Dialogue.require (!q.statuses.any hasQuote)
      (.badRequest "status filter must not contain quotes")
    let org ← convertOrg i
    let (subscriptions, quota) ← Dialogue.both
      (.subscriptions ⟨subscriptionSearch org q.statuses, Paging.pageForOffset offset limit, limit⟩)
      (.quotaCost org quotaSearch)
    return page limit offset q.statuses subscriptions quota

/-! ### Assigning -/

/-- The seat that an authorization grants. -/
def granted (i : Identity) (username : String) (a : Authorization) : Dialogue AssignedSeat :=
  if a.allowed then match a.subscriptionId with
    | some id => .done ⟨id, username⟩
    | none => .fail (.internal "quota authorization returned no subscription")
  else if 0 < a.excessResources
  then .fail (.conflict ("no seats available for organization " ++ i.orgId))
  else .fail (.forbidden ("seat assignment for '" ++ username ++ "' was denied"))

/-- Assigns a seat to a user of the caller's organization. -/
def assign (i : Identity) (accountUsername : String) : Dialogue AssignedSeat := do
  requireAdmin i
  let username := Text.trim accountUsername
  Dialogue.require (username ≠ "") (.badRequest "account_username is required")
  let user ← Dialogue.call (.user username)
  Dialogue.require (user.orgId = i.orgId)
    (.forbidden ("user '" ++ username ++ "' does not belong to organization " ++ i.orgId))
  let org ← convertOrg i
  let quota ← Dialogue.call (.quotaCost org quotaSearch)
  let answer ← Dialogue.call (.authorize (seatRequest username (quota.bind Quota.version)))
  granted i username answer

/-! ### Revoking -/

/-- Revokes the seat behind a subscription of the caller's organization. -/
def revoke (i : Identity) (id : String) : Dialogue Unit := do
  requireAdmin i
  let subscription ← Dialogue.call (.subscription id)
  match subscription.organizationId.filter (· ≠ "") with
  | none => .fail (.internal ("subscription " ++ id ++ " has no organization"))
  | some owner =>
    let org ← convertOrg i
    Dialogue.require (org = owner) (.forbidden ("subscription organization " ++ owner
      ++ " does not match caller organization " ++ org))
    Dialogue.call (.deleteSubscription id)

end Licensing.Seat
