import Licensing.Json.Document

/-!
# Typed reading of JSON documents

A value of a type is read from a document or the document is refused. A record is read from an
object, in which members that the record does not know are skipped and a member it knows may
stand only once; or from a list that holds the fields in the order of the record, where fields
at the end may be missing. Which fields may be missing is up to the reader of each field.
-/

namespace Licensing.Json

open Utf8 (Bytes)

/-! ### Numbers -/

/-- The integer that a number without point and exponent stands for. A negative zero is no
integer. -/
def Numeral.int? (n : Numeral) : Option Int :=
  if !n.whole then none
  else if n.negative then (if n.digits = 0 then none else some (-(n.digits : Int)))
  else some n.digits

/-- The power of ten above which a number is out of range whatever its digits. -/
def exponentBound : Int := 400

/-- A number as a value: an integer of 64 bits, or the nearest floating-point number, none
when that would be infinite. -/
def Numeral.value? (n : Numeral) : Option Value :=
  let integer := n.int?.filter fun i ↦ Decimal.minI64 ≤ i ∧ i ≤ (Decimal.maxU64 : Int)
  match integer with
  | some i => some (.int i)
  | none =>
    let power := n.exponent - n.places
    let size := (Nat.toDigits 10 n.digits).length + power
    if n.digits ≠ 0 ∧ exponentBound < size then none
    else
      let magnitude :=
        if n.digits = 0 ∨ size < -exponentBound then 0.0
        else Float.ofScientific n.digits (power < 0) power.natAbs
      if magnitude.isInf then none
      else some (.real (if n.negative then -magnitude else magnitude).toBits)

namespace Document

/-- A text. -/
def text? : Document → Option String
  | .text raw => textOf raw
  | _ => none

/-- A truth value. -/
def bool? : Document → Option Bool
  | .bool b => some b
  | _ => none

/-- A signed 64-bit integer. -/
def int64? : Document → Option Int
  | .number n => n.int?.filter fun i ↦ Decimal.minI64 ≤ i ∧ i ≤ Decimal.maxI64
  | _ => none

/-- A natural number up to `most`. -/
def nat? (most : Nat) : Document → Option Nat
  | .number n => (n.int?.filter fun i ↦ 0 ≤ i ∧ i ≤ (most : Int)).map Int.toNat
  | _ => none

/-- A list whose items are all readable. -/
def list? {α : Type} (item : Document → Option α) : Document → Option (List α)
  | .list items => items.mapM item
  | _ => none

/-- A value, or null in its absence. -/
def optional? {α : Type} (value : Document → Option α) : Document → Option (Option α)
  | .null => some none
  | d => (value d).map some

/-! ### Records -/

/-- The members of an object with their names decoded, none when a name is no text. -/
def namedMembers (members : List (Bytes × Document)) : Option (List (String × Document)) :=
  members.mapM fun m ↦ (textOf m.1).map (·, m.2)

/-- The value of the member of a name; none when the name stands twice. -/
def field? (members : List (String × Document)) (name : String) : Option (Option Document) :=
  match members.filter fun m ↦ m.1 = name with
  | [] => some none
  | [m] => some (some m.2)
  | _ => none

/-- The fields of a record of the given names, in that order, each none where it is missing. -/
def fields? (names : List String) : Document → Option (List (Option Document))
  | .object members => match namedMembers members with
    | some members => names.mapM (field? members)
    | none => none
  | .list items =>
    if items.length ≤ names.length
    then some (items.map some ++ List.replicate (names.length - items.length) none) else none
  | _ => none

/-- A field that has to be there. -/
def required? {α : Type} (value : Document → Option α) : Option Document → Option α
  | some d => value d
  | none => none

/-- A field with a value for its absence. -/
def default? {α : Type} (absent : α) (value : Document → Option α) : Option Document → Option α
  | some d => value d
  | none => some absent

/-! ### Untyped reading -/

/-- How deep an untyped value may be nested. -/
def maxDepth : Nat := 127

mutual

/-- A value of any kind, nested at most `depth` levels. Of members with one name the last
counts. -/
def valueWithin? : Nat → Document → Option Value
  | _, .null => some .null
  | _, .bool b => some (.bool b)
  | _, .number n => n.value?
  | _, .text raw => (textOf raw).map .text
  | 0, .list _ => none
  | 0, .object _ => none
  | depth + 1, .list items => (valuesWithin? depth items).map .list
  | depth + 1, .object members => (membersWithin? depth members).map .object

/-- The values of a list's items. -/
def valuesWithin? : Nat → List Document → Option (List Value)
  | _, [] => some []
  | depth, d :: ds => match valueWithin? depth d with
    | some v => (valuesWithin? depth ds).map (v :: ·)
    | none => none

/-- The members of an object, without those that a later one of the same name replaces. -/
def membersWithin? : Nat → List (Bytes × Document) → Option (List (String × Value))
  | _, [] => some []
  | depth, (raw, d) :: ms => match textOf raw, valueWithin? depth d, membersWithin? depth ms with
    | some name, some v, some rest =>
      some (if rest.any fun m ↦ m.1 = name then rest else (name, v) :: rest)
    | _, _, _ => none

end

/-- A value of any kind. -/
def value? (d : Document) : Option Value :=
  valueWithin? maxDepth d

end Document

/-- Reads a value of a type from the document that fills a byte sequence. -/
def readAs {α : Type} (value : Document → Option α) (bs : Bytes) : Option α :=
  (Document.read bs).bind value

end Licensing.Json
