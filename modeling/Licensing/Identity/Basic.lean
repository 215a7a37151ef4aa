import Licensing.Bundle.Definition

/-!
# The identity of a caller

Who calls, and for which account and organization. An identifier is valid when it is there and
is not the mark for an unknown one.
-/

namespace Licensing

/-- The kind of caller. -/
inductive Principal where
  | user
  | serviceAccount
deriving DecidableEq, Inhabited

/-- The identity of a caller. -/
structure Identity where
  /-- The number of the account. -/
  accountNumber : String
  /-- The organization. -/
  orgId : String
  /-- Whether the caller is marked as internal. -/
  isInternal : Bool
  /-- The mail address. -/
  email : String
  /-- The login. -/
  username : String
  /-- The kind of caller. -/
  principal : Principal
  /-- Whether the caller administers the organization. -/
  orgAdmin : Bool
deriving DecidableEq, Inhabited

/-- The identifier that stands for an unknown one. -/
def unknownId : String := "-1"

/-- An identifier is there and known. -/
def isValidId (id : String) : Bool :=
  id ≠ "" && id ≠ unknownId

/-- The end of the mail addresses of internal callers. -/
def internalDomain : String := "@redhat.com"

namespace Identity

/-- The account number is valid. -/
def hasValidAccount (i : Identity) : Bool :=
  isValidId i.accountNumber

/-- The organization is valid. -/
def hasValidOrg (i : Identity) : Bool :=
  isValidId i.orgId

/-- The caller is marked as internal and has a mail address that shows it. -/
def isInternalUser (i : Identity) : Bool :=
  i.isInternal && internalDomain.toList.isSuffixOf i.email.toList

/-- The caller has all that a bundle asks for. -/
def satisfies (i : Identity) (a : Attributes) : Bool :=
  (!a.useValidAccNum || i.hasValidAccount) && (!a.useValidOrgId || i.hasValidOrg)
    && (!a.useIsInternal || i.isInternalUser)

end Identity

end Licensing
