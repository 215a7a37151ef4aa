import Licensing.Form
import Licensing.Text.Decimal

/-!
# Pages and offsets

Callers ask for seats by an offset and a limit, the accounts system by the number of a page and
its size. An offset is in the page that holds it, and a page starts at the multiple of its size.
All numbers are natural ones of 64 bits; what exceeds them counts as the greatest.
-/

namespace Licensing.Paging

/-- The page, counted from one, that holds an offset. -/
def pageForOffset (offset limit : Nat) : Nat :=
  if limit = 0 then 1 else Decimal.capU64 (offset / limit + 1)

/-- The offset that a page starts at. -/
def offsetForPage (page limit : Nat) : Nat :=
  Decimal.capU64 ((page - 1) * limit)

/-! ### Links -/

/-- Where seats are listed. -/
def seatsPath : String := "/api/entitlements/v1/seats"

/-- The query for a page. -/
def pageQuery (limit offset : Nat) (statuses : List String) : List (String × String) :=
  [("limit", toString limit), ("offset", toString offset)] ++ statuses.map (("status", ·))

/-- The link to a page. -/
def pageLink (limit offset : Nat) (statuses : List String) : String :=
  seatsPath ++ "?" ++ Form.encode (pageQuery limit offset statuses)

/-- The links of a page of seats. Nothing tells how many seats there are, so the next page
may be empty. -/
structure Links where
  /-- The first page. -/
  first : String
  /-- The page before. -/
  previous : String
  /-- The page behind. -/
  next : String
deriving DecidableEq, Inhabited

/-- The links of the page at an offset. -/
def links (limit offset : Nat) (statuses : List String) : Links where
  first := pageLink limit 0 statuses
  previous := pageLink limit (offset - limit) statuses
  next := pageLink limit (Decimal.capU64 (offset + limit)) statuses

end Licensing.Paging
