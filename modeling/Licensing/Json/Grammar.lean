import Licensing.Json.Document

/-!
# The grammar of JSON documents

A document is written as its tokens one behind the other, with any number of blanks before, between
and behind them. A number may be written in several ways, a text in its own only, and the members
of an object come in the order in which the document has them.
-/

namespace Licensing.Json

open Utf8 (Bytes)

/-- Bytes that may stand between any two tokens. -/
def AreBlank (bs : Bytes) : Prop :=
  ∀ b ∈ bs, isBlankByte b = true

/-- One or more decimal digits. -/
def AreDigits (bs : Bytes) : Prop :=
  bs ≠ [] ∧ ∀ b ∈ bs, isDigitByte b = true

/-! ### Texts -/

/-- What may stand between the quotes of a text. -/
inductive IsRaw : Bytes → Prop where
  /-- Nothing has to. -/
  | nil : IsRaw []
  /-- A byte that is none of a control character, a quote and a backslash. -/
  | plain {b : UInt8} {raw : Bytes} (hb : 0x20 ≤ b) (hquote : b ≠ quoteByte)
    (hback : b ≠ backslash) (h : IsRaw raw) : IsRaw (b :: raw)
  /-- An escape by a letter or a sign. -/
  | escape {e : UInt8} {raw : Bytes} (he : isSimpleEscape e = true) (h : IsRaw raw) :
    IsRaw (backslash :: e :: raw)
  /-- An escape by code unit. -/
  | unit {a b c d : UInt8} {raw : Bytes} (hhex : ∀ x ∈ [a, b, c, d], (hexValue? x).isSome = true)
    (h : IsRaw raw) : IsRaw (backslash :: letterU :: a :: b :: c :: d :: raw)

/-! ### Numbers -/

/-- The digits behind the point of a number, and how they are written. -/
inductive WritesFraction : Bytes → Bytes → Prop where
  /-- There are none. -/
  | absent : WritesFraction [] []
  /-- They follow a point. -/
  | present {ds : Bytes} (h : AreDigits ds) : WritesFraction ds (point :: ds)

/-- The exponent of a number, and how it is written. -/
inductive WritesExponent : Option Int → Bytes → Prop where
  /-- There is none. -/
  | absent : WritesExponent none []
  /-- It has no sign. -/
  | unsigned {e : UInt8} {ds : Bytes} (he : e = letterE ∨ e = capitalE) (h : AreDigits ds) :
    WritesExponent (some (digitsValue ds : Int)) (e :: ds)
  /-- It has a plus sign. -/
  | plus {e : UInt8} {ds : Bytes} (he : e = letterE ∨ e = capitalE) (h : AreDigits ds) :
    WritesExponent (some (digitsValue ds : Int)) (e :: Json.plus :: ds)
  /-- It has a minus sign. -/
  | minus {e : UInt8} {ds : Bytes} (he : e = letterE ∨ e = capitalE) (h : AreDigits ds) :
    WritesExponent (some (-(digitsValue ds : Int))) (e :: Json.minus :: ds)

/-- The sign of a number. -/
def signBytes (negative : Bool) : Bytes :=
  if negative then [minus] else []

/-- A number, and how it is written. No zero stands in front of other digits. -/
inductive WritesNumber : Numeral → Bytes → Prop where
  /-- The sign, the digits before the point, the fraction and the exponent. -/
  | parts {negative : Bool} {whole fraction fractionBytes exponentBytes : Bytes}
    {exponent : Option Int} (hwhole : AreDigits whole)
    (hzero : whole.head? = some 0x30 → whole.length = 1)
    (hfraction : WritesFraction fraction fractionBytes)
    (hexponent : WritesExponent exponent exponentBytes) :
    WritesNumber
      { negative
        digits := digitsValue (whole ++ fraction)
        places := fraction.length
        exponent := exponent.getD 0
        whole := fraction.isEmpty && exponent.isNone }
      (signBytes negative ++ (whole ++ (fractionBytes ++ exponentBytes)))

/-! ### Documents -/

/-- Parts with commas between them. -/
def commaJoined (parts : List Bytes) : Bytes :=
  [comma].intercalate parts

/-- A member of an object as it is written. -/
structure Entry where
  /-- The blanks before the name. -/
  lead : Bytes
  /-- The name as written between its quotes. -/
  name : Bytes
  /-- The blanks between the name and the colon. -/
  gap : Bytes
  /-- The value. -/
  value : Document
  /-- The value as it is written. -/
  written : Bytes

/-- The bytes of a member. -/
def Entry.bytes (e : Entry) : Bytes :=
  e.lead ++ quoteByte :: (e.name ++ quoteByte :: (e.gap ++ colon :: e.written))

/-- The member itself. -/
def Entry.member (e : Entry) : Bytes × Document :=
  (e.name, e.value)

/-- The name is one, and only blanks are around it. -/
structure Entry.IsProper (e : Entry) : Prop where
  /-- Blanks are before the name. -/
  lead : AreBlank e.lead
  /-- The name may stand between quotes. -/
  name : IsRaw e.name
  /-- Blanks are behind the name. -/
  gap : AreBlank e.gap

/-- A document, and how it is written. -/
inductive Writes : Document → Bytes → Prop where
  /-- The word for null. -/
  | null : Writes .null (Utf8.encodeText "null")
  /-- The word for true. -/
  | yes : Writes (.bool true) (Utf8.encodeText "true")
  /-- The word for false. -/
  | no : Writes (.bool false) (Utf8.encodeText "false")
  /-- A number. -/
  | number {n : Numeral} {bs : Bytes} (h : WritesNumber n bs) : Writes (.number n) bs
  /-- A text between quotes. -/
  | text {raw : Bytes} (h : IsRaw raw) : Writes (.text raw) (quoteByte :: (raw ++ [quoteByte]))
  /-- A list without items. -/
  | noItems {gap : Bytes} (h : AreBlank gap) : Writes (.list []) (openList :: (gap ++ [closeList]))
  /-- A list of items, each given with how it is written. -/
  | items {items : List (Document × Bytes)} (hne : items ≠ []) (h : ∀ i ∈ items, Writes i.1 i.2) :
    Writes (.list (items.map Prod.fst))
      (openList :: (commaJoined (items.map Prod.snd) ++ [closeList]))
  /-- An object without members. -/
  | noMembers {gap : Bytes} (h : AreBlank gap) :
    Writes (.object []) (openObject :: (gap ++ [closeObject]))
  /-- An object with members. -/
  | members {entries : List Entry} (hne : entries ≠ []) (hproper : ∀ e ∈ entries, e.IsProper)
    (h : ∀ e ∈ entries, Writes e.value e.written) :
    Writes (.object (entries.map Entry.member))
      (openObject :: (commaJoined (entries.map Entry.bytes) ++ [closeObject]))
  /-- Blanks may stand before and behind. -/
  | spaced {d : Document} {lead bs trail : Bytes} (hlead : AreBlank lead) (htrail : AreBlank trail)
    (h : Writes d bs) : Writes d (lead ++ (bs ++ trail))

end Licensing.Json
