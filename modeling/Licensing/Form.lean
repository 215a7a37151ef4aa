import Licensing.Text.Percent
import Licensing.Text.Split

/-!
# Form queries

A list of names with values as one line: pairs joined by ampersands, each a name, an equals
sign and a value. Letters, digits and a few marks of ASCII stand for themselves, a space is a
plus sign, and every other byte is escaped.
-/

namespace Licensing.Form

open Utf8 (Bytes)

/-- The bytes that stand for themselves: letters, digits and `*`, `-`, `.`, `_`. -/
def isPlain (b : UInt8) : Bool :=
  let n := b.toNat
  (48 ≤ n && n ≤ 57) || (65 ≤ n && n ≤ 90) || (97 ≤ n && n ≤ 122)
    || n = 0x2A || n = 0x2D || n = 0x2E || n = 0x5F

/-- A byte in a form. -/
def encodeByte (b : UInt8) : List Char :=
  if b.toNat = 0x20 then ['+'] else Percent.encodeByte (fun b ↦ !isPlain b) b

/-- A text in a form. -/
def encodeChars (s : String) : List Char :=
  (Utf8.encodeText s).flatMap encodeByte

/-- A name with its value. -/
def encodePair (p : String × String) : List Char :=
  encodeChars p.1 ++ '=' :: encodeChars p.2

/-- The pairs joined by ampersands. -/
def joinPairs : List (List Char) → List Char
  | [] => []
  | [p] => p
  | p :: ps => p ++ '&' :: joinPairs ps

/-- The pairs as one line. -/
def encode (pairs : List (String × String)) : String :=
  String.ofList (joinPairs (pairs.map encodePair))

/-- The text that stands in a form. -/
def decodeBytes (bs : Bytes) : String :=
  let spaced := bs.map fun b ↦ if b.toNat = 0x2B then 0x20 else b
  String.ofList (Utf8.decodeLossy (Percent.decode spaced))

/-- The pair that stands in a piece, which has no value without an equals sign. -/
def decodePair (bs : Bytes) : String × String :=
  let parts := Text.cut (0x3D : UInt8) bs
  (decodeBytes parts.1, decodeBytes (parts.2.getD []))

/-- The pairs of a line. Empty pieces are no pairs. -/
def decode (line : String) : List (String × String) :=
  ((Text.split (0x26 : UInt8) (Utf8.encodeText line)).filter (!·.isEmpty)).map decodePair

end Licensing.Form
