import Licensing.Text.Utf8

/-!
# Percent-encoding

A byte that may not stand for itself is written as a percent sign and two hexadecimal digits.
Which bytes may is up to the place. Decoding takes a percent sign without two digits behind it
as itself.
-/

namespace Licensing.Percent

open Utf8 (Bytes)

/-- The digit of a number below sixteen, in upper case. -/
def hexDigit (n : Nat) : Char :=
  if n < 10 then Char.ofNat (48 + n) else Char.ofNat (55 + n)

/-- The value of a byte that is a hexadecimal digit. -/
def hexValue? (b : UInt8) : Option Nat :=
  let n := b.toNat
  if 48 ≤ n ∧ n ≤ 57 then some (n - 48)
  else if 65 ≤ n ∧ n ≤ 70 then some (n - 55)
  else if 97 ≤ n ∧ n ≤ 102 then some (n - 87)
  else none

/-- A byte written with a percent sign. -/
def escape (b : UInt8) : List Char :=
  ['%', hexDigit (b.toNat / 16), hexDigit (b.toNat % 16)]

/-- A byte where those of a kind are escaped. The others have to be ASCII. -/
def encodeByte (escaped : UInt8 → Bool) (b : UInt8) : List Char :=
  if escaped b then escape b else [Char.ofNat b.toNat]

/-- Characters whose bytes of a kind are escaped. -/
def encode (escaped : UInt8 → Bool) (cs : List Char) : List Char :=
  (Utf8.encode cs).flatMap (encodeByte escaped)

/-- The percent sign as a byte. -/
def sign : UInt8 := 0x25

/-- The bytes that stand in a sequence, escaped or not. -/
def decode : Bytes → Bytes
  | [] => []
  | [a] => [a]
  | [a, b] => [a, b]
  | a :: b :: c :: bs =>
    match hexValue? b, hexValue? c with
    | some high, some low =>
      if a = sign then UInt8.ofNat (16 * high + low) :: decode bs else a :: decode (b :: c :: bs)
    | _, _ => a :: decode (b :: c :: bs)

end Licensing.Percent
