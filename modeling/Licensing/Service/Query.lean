import Licensing.Decision
import Licensing.Seat.Types
import Licensing.Service.Message

/-!
# Queries of requests

Parameters that are not known do not matter, and one that may be repeated counts every time.
-/

namespace Licensing.Service

/-- The pairs of a query, of which there are none without a query. -/
def queryPairs (query : Option String) : List (String × String) :=
  (query.map Form.decode).getD []

/-! ### Bundles -/

/-- What is asked about bundles. -/
structure ServicesQuery where
  /-- The only bundles that are meant, as a list with commas. -/
  included : Option String
  /-- The bundles that are not meant, as a list with commas. -/
  excluded : Option String
  /-- Whether the features have to be asked for anew. -/
  fresh : Bool
deriving DecidableEq, Inhabited

/-- The values of a parameter as one list with commas. -/
def joinValues (name : String) (pairs : List (String × String)) : Option String :=
  match (pairs.filter fun p ↦ p.1 = name).map (·.2) with
  | [] => none
  | values => some (",".intercalate values)

/-- A text stands for yes. -/
def meansYes (s : String) : Bool :=
  s.toList.map Char.toLower = "true".toList || s = "1"

/-- What a query asks about bundles. Of several values for fresh features the last counts. -/
def servicesQuery (query : Option String) : ServicesQuery :=
  let pairs := queryPairs query
  { included := joinValues "include_bundles" pairs
    excluded := joinValues "exclude_bundles" pairs
    fresh := match (pairs.filter fun p ↦ p.1 = "trial_activated").getLast? with
      | some p => meansYes p.2
      | none => false }

/-- The filter of a query. -/
def ServicesQuery.filter (q : ServicesQuery) : BundleFilter :=
  .ofLists q.included q.excluded

/-! ### Seats -/

/-- The integer of a parameter, or what is wrong with it. -/
def integer (name value : String) : Except String Int :=
  match Decimal.readInt? (Text.trim value) with
  | some n => .ok n
  | none => .error (name ++ " must be an integer")

/-- What is asked about seats with one more pair. -/
def addSeatPair (q : SeatQuery) (p : String × String) : Except String SeatQuery :=
  if p.1 = "limit" then (integer "limit" p.2).map fun n ↦ { q with limit := n }
  else if p.1 = "offset" then (integer "offset" p.2).map fun n ↦ { q with offset := n }
  else if p.1 = "status" && !Text.isBlank p.2
  then .ok { q with statuses := q.statuses ++ [p.2] }
  else .ok q

/-- What is asked about seats where nothing is stated: the first ten. -/
def firstSeats : SeatQuery :=
  ⟨10, 0, []⟩

/-- What a query asks about seats. -/
def seatQuery (query : Option String) : Except String SeatQuery :=
  (queryPairs query).foldlM addSeatPair firstSeats

end Licensing.Service
