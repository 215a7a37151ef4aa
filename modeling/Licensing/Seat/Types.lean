import Licensing.Json.Value
import Licensing.Seat.Paging

/-!
# Seats and what they are made of

A seat is a subscription of one plan in the accounts system, and the accounts system says how
many of them an organization may have. These are the records of that system and of the user
directory, and what callers are shown of them.
-/

namespace Licensing

open Json (Value)

/-! ### Records of the accounts system -/

/-- How many seats an organization may assign and has assigned. -/
structure Quota where
  /-- The identifier of the quota. -/
  quotaId : String
  /-- The seats that may be assigned. -/
  allowed : Int
  /-- The seats that are assigned. -/
  consumed : Int
  /-- The version that an authorization has to name. -/
  version : Option String
deriving DecidableEq, Inhabited

/-- The account that created a subscription. -/
structure Creator where
  /-- The login. -/
  username : Option String
  /-- The first name. -/
  firstName : Option String
  /-- The last name. -/
  lastName : Option String
  /-- The mail address. -/
  email : Option String
deriving DecidableEq, Inhabited

/-- A subscription. -/
structure Subscription where
  /-- The identifier. -/
  id : String
  /-- The organization that owns it, as the accounts system names it. -/
  organizationId : Option String
  /-- The status. -/
  status : String
  /-- The account that created it. -/
  creator : Option Creator
deriving DecidableEq, Inhabited

/-- A question for a page of subscriptions. -/
structure SubscriptionQuery where
  /-- The search expression. -/
  search : String
  /-- The number of the page, counted from one. -/
  page : Nat
  /-- The size of the page. -/
  size : Nat
deriving DecidableEq, Inhabited

/-- A resource to be authorized. -/
structure QuotaResource where
  /-- The name. -/
  resourceName : String
  /-- The kind. -/
  resourceType : String
  /-- How it is paid for. -/
  billingModel : String
  /-- The product. -/
  product : String
  /-- How many. -/
  count : Nat
deriving DecidableEq, Inhabited

/-- A request to authorize resources for a user. -/
structure AuthorizationRequest where
  /-- The login of the user. -/
  accountUsername : String
  /-- The product. -/
  productId : String
  /-- The version of the quota that was seen before. -/
  quotaVersion : Option String
  /-- Whether the resources are reserved when they are authorized. -/
  reserve : Bool
  /-- The resources. -/
  resources : List QuotaResource
deriving DecidableEq, Inhabited

/-- The answer to such a request. -/
structure Authorization where
  /-- It is granted. -/
  allowed : Bool
  /-- How many of the resources exceed the quota. -/
  excessResources : Nat
  /-- The subscription that was made. -/
  subscriptionId : Option String
deriving DecidableEq, Inhabited

/-! ### Records of the user directory -/

/-- A user. -/
structure DirectoryUser where
  /-- The login. -/
  username : String
  /-- The organization. -/
  orgId : String
  /-- The mail address. -/
  email : String
  /-- Whether the user administers the organization. -/
  isOrgAdmin : Bool
deriving DecidableEq, Inhabited

/-! ### What callers ask for and are shown -/

/-- A question for a page of seats. -/
structure SeatQuery where
  /-- How many seats a page has. -/
  limit : Int
  /-- How many seats come before. -/
  offset : Int
  /-- The statuses of the seats; empty for all. -/
  statuses : List String
deriving DecidableEq, Inhabited

/-- A seat. -/
structure Seat where
  /-- The subscription behind it. -/
  subscriptionId : String
  /-- The login of its holder. -/
  accountUsername : String
  /-- The first name of its holder. -/
  firstName : String
  /-- The last name of its holder. -/
  lastName : String
  /-- The mail address of its holder. -/
  email : String
  /-- The status of the subscription. -/
  status : String
deriving DecidableEq, Inhabited

/-- A page of seats. -/
structure SeatPage where
  /-- How many seats the page has. -/
  count : Nat
  /-- The links to other pages. -/
  links : Paging.Links
  /-- The seats. -/
  seats : List Seat
  /-- The seats that the organization may assign. -/
  allowed : Int
  /-- The seats that the organization has assigned. -/
  consumed : Int
deriving DecidableEq, Inhabited

/-- A seat that has been assigned. -/
structure AssignedSeat where
  /-- The subscription behind it. -/
  subscriptionId : String
  /-- The login of its holder. -/
  accountUsername : String
deriving DecidableEq, Inhabited

/-! ### As JSON values -/

/-- A quota as a JSON value. -/
def Quota.toValue (q : Quota) : Value :=
  .object [("quota_id", .text q.quotaId), ("allowed", .int q.allowed),
    ("consumed", .int q.consumed), ("version", .optText q.version)]

/-- A creator as a JSON value. -/
def Creator.toValue (c : Creator) : Value :=
  .object [("username", .optText c.username), ("first_name", .optText c.firstName),
    ("last_name", .optText c.lastName), ("email", .optText c.email)]

/-- A subscription as a JSON value. -/
def Subscription.toValue (s : Subscription) : Value :=
  .object [("id", .text s.id), ("organization_id", .optText s.organizationId),
    ("status", .text s.status), ("creator", (s.creator.map Creator.toValue).getD .null)]

/-- A question for subscriptions as a JSON value. -/
def SubscriptionQuery.toValue (q : SubscriptionQuery) : Value :=
  .object [("search", .text q.search), ("page", .nat q.page), ("size", .nat q.size)]

/-- A resource as a JSON value. -/
def QuotaResource.toValue (r : QuotaResource) : Value :=
  .object [("resource_name", .text r.resourceName), ("resource_type", .text r.resourceType),
    ("billing_model", .text r.billingModel), ("product", .text r.product), ("count", .nat r.count)]

/-- A request for an authorization as a JSON value, without a version that is not known. -/
def AuthorizationRequest.toValue (r : AuthorizationRequest) : Value :=
  .present [("account_username", some (.text r.accountUsername)),
    ("product_id", some (.text r.productId)), ("quota_version", r.quotaVersion.map .text),
    ("reserve", some (.bool r.reserve)),
    ("resources", some (.list (r.resources.map QuotaResource.toValue)))]

/-- An authorization as a JSON value. -/
def Authorization.toValue (a : Authorization) : Value :=
  .object [("allowed", .bool a.allowed), ("excess_resources", .nat a.excessResources),
    ("subscription_id", .optText a.subscriptionId)]

/-- A user as a JSON value. -/
def DirectoryUser.toValue (u : DirectoryUser) : Value :=
  .object [("username", .text u.username), ("org_id", .text u.orgId), ("email", .text u.email),
    ("is_org_admin", .bool u.isOrgAdmin)]

/-- A seat as a JSON value. -/
def Seat.toValue (s : Seat) : Value :=
  .object [("subscription_id", .text s.subscriptionId),
    ("account_username", .text s.accountUsername), ("first_name", .text s.firstName),
    ("last_name", .text s.lastName), ("email", .text s.email), ("status", .text s.status)]

/-- A page of seats as a JSON value. -/
def SeatPage.toValue (p : SeatPage) : Value :=
  .object [("meta", .object [("count", .nat p.count)]),
    ("links", .object [("first", .text p.links.first), ("previous", .text p.links.previous),
      ("next", .text p.links.next)]),
    ("data", .list (p.seats.map Seat.toValue)), ("allowed", .int p.allowed),
    ("consumed", .int p.consumed)]

/-- An assigned seat as a JSON value. -/
def AssignedSeat.toValue (s : AssignedSeat) : Value :=
  .object [("subscription_id", .text s.subscriptionId),
    ("account_username", .text s.accountUsername)]

end Licensing
