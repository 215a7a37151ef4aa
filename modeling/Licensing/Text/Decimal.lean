/-!
# Decimal integers in text

An integer is read from an optional sign and one or more ASCII digits, without separators or
blanks, and only when it lies in a stated range. A minus sign is a sign only where the range
holds negative numbers; for the others even `-0` is no number.
-/

namespace Licensing.Decimal

/-- The greatest 16-bit natural number. -/
def maxU16 : Nat := 0xFFFF

/-- The greatest 64-bit natural number. -/
def maxU64 : Nat := 0xFFFFFFFFFFFFFFFF

/-- The least 64-bit signed integer. -/
def minI64 : Int := -0x8000000000000000

/-- The greatest 64-bit signed integer. -/
def maxI64 : Int := 0x7FFFFFFFFFFFFFFF

/-- The value of an ASCII digit. -/
def digit? (c : Char) : Option Nat :=
  if '0' ≤ c ∧ c ≤ '9' then some (c.toNat - 48) else none

/-- The value of digits read after `acc`, none where another character stands. -/
def digitsFrom (acc : Nat) : List Char → Option Nat
  | [] => some acc
  | c :: cs => match digit? c with
    | some d => digitsFrom (acc * 10 + d) cs
    | none => none

/-- The value of one or more digits. -/
def digits? : List Char → Option Nat
  | [] => none
  | cs => digitsFrom 0 cs

/-- A natural number up to `most`, with or without a plus sign. -/
def readNat? (most : Nat) (s : String) : Option Nat :=
  let cs := match s.toList with
    | '+' :: rest => rest
    | cs => cs
  (digits? cs).filter fun n ↦ n ≤ most

/-- A signed 64-bit integer. -/
def readInt? (s : String) : Option Int :=
  let value := match s.toList with
    | '-' :: rest => (digits? rest).map fun n ↦ -(n : Int)
    | '+' :: rest => (digits? rest).map fun n ↦ (n : Int)
    | cs => (digits? cs).map fun n ↦ (n : Int)
  value.filter fun n ↦ minI64 ≤ n ∧ n ≤ maxI64

/-- A number no greater than the greatest 64-bit one. -/
def capU64 (n : Nat) : Nat :=
  min n maxU64

end Licensing.Decimal
