import Licensing.Text.Utf8

/-!
# Base64

Three bytes are four characters of an alphabet of 64. The last group may hold one or two bytes;
equals signs fill it up, and the bits that are left over have to be zero, so that no two texts
stand for the same bytes.
-/

namespace Licensing.Base64

open Utf8 (Bytes)

/-- The value of a character. -/
def value? (c : Char) : Option Nat :=
  if 'A' ≤ c ∧ c ≤ 'Z' then some (c.toNat - 65)
  else if 'a' ≤ c ∧ c ≤ 'z' then some (c.toNat - 71)
  else if '0' ≤ c ∧ c ≤ '9' then some (c.toNat + 4)
  else if c = '+' then some 62
  else if c = '/' then some 63
  else none

/-- The byte of a number. -/
def byte (n : Nat) : UInt8 :=
  UInt8.ofNat n

/-- The bytes of the last group. -/
def lastGroup? (a b c d : Char) : Option Bytes :=
  match value? a, value? b, value? c, value? d with
  | some a, some b, some c, some d =>
    some [byte (a * 4 + b / 16), byte (b % 16 * 16 + c / 4), byte (c % 4 * 64 + d)]
  | some a, some b, some c, none =>
    if d = '=' && c % 4 = 0 then some [byte (a * 4 + b / 16), byte (b % 16 * 16 + c / 4)] else none
  | some a, some b, none, none =>
    if c = '=' && d = '=' && b % 16 = 0 then some [byte (a * 4 + b / 16)] else none
  | _, _, _, _ => none

/-- The bytes of a group that is not the last. -/
def group? (a b c d : Char) : Option Bytes :=
  if d = '=' then none else lastGroup? a b c d

/-- The bytes that a text stands for. -/
def decode : List Char → Option Bytes
  | [] => some []
  | [a, b, c, d] => lastGroup? a b c d
  | a :: b :: c :: d :: rest => match group? a b c d, decode rest with
    | some bytes, some more => some (bytes ++ more)
    | _, _ => none
  | _ => none

end Licensing.Base64
