import Licensing.Json.Value
import Licensing.Text.Utf8
import Licensing.Text.Decimal

/-!
# JSON documents as they are read

A document is read from bytes into a tree that keeps every member in its place, also members
with equal names, and that keeps texts as they were written, escapes included. Whether a text
is well formed beyond its escapes matters only to a reader who wants its characters
(`textOf`); a part that nobody reads may hold any bytes there.
-/

namespace Licensing.Json

open Utf8 (Bytes)

/-! ### Bytes with a meaning -/

/-- The quote around a text. -/
@[match_pattern] def quoteByte : UInt8 := 0x22

/-- The backslash that starts an escape. -/
@[match_pattern] def backslash : UInt8 := 0x5C

/-- The comma between items. -/
@[match_pattern] def comma : UInt8 := 0x2C

/-- The colon between a name and its value. -/
@[match_pattern] def colon : UInt8 := 0x3A

/-- The bracket that opens a list. -/
@[match_pattern] def openList : UInt8 := 0x5B

/-- The bracket that closes a list. -/
@[match_pattern] def closeList : UInt8 := 0x5D

/-- The brace that opens an object. -/
@[match_pattern] def openObject : UInt8 := 0x7B

/-- The brace that closes an object. -/
@[match_pattern] def closeObject : UInt8 := 0x7D

/-- The minus sign. -/
@[match_pattern] def minus : UInt8 := 0x2D

/-- The plus sign. -/
@[match_pattern] def plus : UInt8 := 0x2B

/-- The decimal point. -/
@[match_pattern] def point : UInt8 := 0x2E

/-- The letter that starts an escape by code unit. -/
@[match_pattern] def letterU : UInt8 := 0x75

/-- The letter that starts an exponent. -/
@[match_pattern] def letterE : UInt8 := 0x65

/-- The capital letter that starts an exponent. -/
@[match_pattern] def capitalE : UInt8 := 0x45

/-- The first letter of null. -/
@[match_pattern] def letterN : UInt8 := 0x6E

/-- The first letter of true. -/
@[match_pattern] def letterT : UInt8 := 0x74

/-- The first letter of false. -/
@[match_pattern] def letterF : UInt8 := 0x66

/-- Space, tab, line feed and carriage return, which may stand between any two tokens. -/
def isBlankByte (b : UInt8) : Bool :=
  b = 0x20 || b = 0x09 || b = 0x0A || b = 0x0D

/-- The bytes from the first that is not blank. -/
def skipBlanks (bs : Bytes) : Bytes :=
  bs.dropWhile isBlankByte

/-- Whether a byte is a decimal digit. -/
def isDigitByte (b : UInt8) : Bool :=
  0x30 ≤ b && b ≤ 0x39

/-- The value of a hexadecimal digit. -/
def hexValue? (b : UInt8) : Option Nat :=
  let n := b.toNat
  if 48 ≤ n ∧ n ≤ 57 then some (n - 48)
  else if 65 ≤ n ∧ n ≤ 70 then some (n - 55)
  else if 97 ≤ n ∧ n ≤ 102 then some (n - 87)
  else none

/-! ### Trees -/

/-- A number as it was written. -/
structure Numeral where
  /-- Whether a minus sign was written. -/
  negative : Bool
  /-- The digits before and after the point, as one number. -/
  digits : Nat
  /-- How many digits stand after the point. -/
  places : Nat
  /-- The written exponent. -/
  exponent : Int
  /-- Whether neither a point nor an exponent was written. -/
  whole : Bool
deriving DecidableEq, Repr

/-- A document. Texts are kept as written between their quotes. -/
inductive Document where
  | null
  | bool (b : Bool)
  | number (n : Numeral)
  | text (raw : Bytes)
  | list (items : List Document)
  | object (members : List (Bytes × Document))
deriving Inhabited

/-! ### Reading -/

/-- The number that a run of digits stands for. -/
def digitsValue (bs : Bytes) : Nat :=
  bs.foldl (fun n b ↦ n * 10 + (b.toNat - 48)) 0

/-- Whether four hexadecimal digits come next. -/
def fourHexAhead (bs : Bytes) : Bool :=
  (bs.take 4).length = 4 && (bs.take 4).all fun b ↦ (hexValue? b).isSome

/-- Whether a byte makes an escape by itself. -/
def isSimpleEscape (b : UInt8) : Bool :=
  [0x22, 0x5C, 0x2F, 0x62, 0x66, 0x6E, 0x72, 0x74].contains b

/-- The rest of a text up to its closing quote, `acc` holding what was read of it in reverse,
and what follows the quote. -/
def readText (acc : Bytes) : Bytes → Option (Bytes × Bytes)
  | [] => none
  | quoteByte :: rest => some (acc.reverse, rest)
  | backslash :: e :: rest =>
    if isSimpleEscape e || e == letterU && fourHexAhead rest
    then readText (e :: backslash :: acc) rest else none
  | b :: rest => if b < 0x20 || b == backslash then none else readText (b :: acc) rest

/-- The digits that come next, at least one of them. -/
def readDigits (bs : Bytes) : Option (Bytes × Bytes) :=
  match bs.takeWhile isDigitByte with
  | [] => none
  | ds => some (ds, bs.dropWhile isDigitByte)

/-- The fraction that comes next, none of it when no point does. -/
def readFraction (bs : Bytes) : Option (Bytes × Bytes) :=
  match bs with
  | point :: rest => readDigits rest
  | _ => some ([], bs)

/-- The exponent that comes next, if one does. -/
def readExponent (bs : Bytes) : Option (Option Int × Bytes) :=
  let signed (rest : Bytes) : Option (Option Int × Bytes) := match rest with
    | minus :: rest => (readDigits rest).map fun r ↦ (some (-(digitsValue r.1 : Int)), r.2)
    | plus :: rest => (readDigits rest).map fun r ↦ (some (digitsValue r.1 : Int), r.2)
    | rest => (readDigits rest).map fun r ↦ (some (digitsValue r.1 : Int), r.2)
  match bs with
  | letterE :: rest => signed rest
  | capitalE :: rest => signed rest
  | _ => some (none, bs)

/-- The number that comes next. It has no superfluous zero in front. -/
def readNumber (bs : Bytes) : Option (Numeral × Bytes) := do
  let negative := bs.head? == some minus
  let (whole, rest) ← readDigits (if negative then bs.drop 1 else bs)
  if whole.head? == some 0x30 && whole.length != 1 then none else
  let (fraction, rest) ← readFraction rest
  let (exponent, rest) ← readExponent rest
  return ({ negative
            digits := digitsValue (whole ++ fraction)
            places := fraction.length
            exponent := exponent.getD 0
            whole := fraction.isEmpty && exponent.isNone }, rest)

/-- What follows a word, when that word comes next. -/
def afterWord (word : String) (bs : Bytes) : Option Bytes :=
  let w := Utf8.encodeText word
  if w.isPrefixOf bs then some (bs.drop w.length) else none

mutual

/-- The value that comes next, blanks before it skipped. -/
def readValue : Nat → Bytes → Option (Document × Bytes)
  | 0, _ => none
  | fuel + 1, bs => match skipBlanks bs with
    | quoteByte :: rest => (readText [] rest).map fun r ↦ (.text r.1, r.2)
    | openList :: rest => match skipBlanks rest with
      | closeList :: rest => some (.list [], rest)
      | rest => readItems fuel [] rest
    | openObject :: rest => match skipBlanks rest with
      | closeObject :: rest => some (.object [], rest)
      | rest => readMembers fuel [] rest
    | letterN :: rest => (afterWord "ull" rest).map (Document.null, ·)
    | letterT :: rest => (afterWord "rue" rest).map (Document.bool true, ·)
    | letterF :: rest => (afterWord "alse" rest).map (Document.bool false, ·)
    | rest => (readNumber rest).map fun r ↦ (.number r.1, r.2)

/-- The items of a list up to its closing bracket, after those in `acc`. -/
def readItems : Nat → List Document → Bytes → Option (Document × Bytes)
  | 0, _, _ => none
  | fuel + 1, acc, bs => match readValue fuel bs with
    | none => none
    | some (v, rest) => match skipBlanks rest with
      | comma :: rest => readItems fuel (v :: acc) rest
      | closeList :: rest => some (.list (v :: acc).reverse, rest)
      | _ => none

/-- The members of an object up to its closing brace, after those in `acc`. -/
def readMembers : Nat → List (Bytes × Document) → Bytes → Option (Document × Bytes)
  | 0, _, _ => none
  | fuel + 1, acc, bs => match skipBlanks bs with
    | quoteByte :: rest => match readText [] rest with
      | none => none
      | some (name, rest) => match skipBlanks rest with
        | colon :: rest => match readValue fuel rest with
          | none => none
          | some (v, rest) => match skipBlanks rest with
            | comma :: rest => readMembers fuel ((name, v) :: acc) rest
            | closeObject :: rest => some (.object ((name, v) :: acc).reverse, rest)
            | _ => none
        | _ => none
    | _ => none

end

/-- The document that fills a byte sequence, blanks around it allowed. Every step of reading
takes at least one byte, so the fuel never runs out. -/
def Document.read (bs : Bytes) : Option Document :=
  match readValue (2 * bs.length + 2) bs with
  | some (d, rest) => if (skipBlanks rest).isEmpty then some d else none
  | none => none

/-! ### The characters of a text -/

/-- A piece of a text: a byte as it stands, or a code unit from an escape. -/
inductive TextPiece where
  | byte (b : UInt8)
  | unit (n : Nat)

/-- The byte that a simple escape stands for. -/
def escapedByte (b : UInt8) : UInt8 :=
  if b = 0x62 then 0x08
  else if b = 0x66 then 0x0C
  else if b = 0x6E then 0x0A
  else if b = 0x72 then 0x0D
  else if b = 0x74 then 0x09
  else b

/-- The pieces of a text as written, after those in `acc`. -/
def textPieces (acc : List TextPiece) : Bytes → List TextPiece
  | backslash :: letterU :: a :: b :: c :: d :: rest =>
    textPieces (.unit (([a, b, c, d].map fun h ↦ (hexValue? h).getD 0).foldl
      (fun n h ↦ n * 16 + h) 0) :: acc) rest
  | backslash :: e :: rest => textPieces (.byte (escapedByte e) :: acc) rest
  | b :: rest => textPieces (.byte b :: acc) rest
  | [] => acc.reverse

/-- The bytes of a text, after those in `acc`. A leading surrogate has to be followed by a
trailing one, and no other surrogate stands for a character. -/
def joinPieces (acc : Bytes) : List TextPiece → Option Bytes
  | [] => some acc.reverse
  | .byte b :: rest => joinPieces (b :: acc) rest
  | .unit hi :: .unit lo :: rest =>
    if 0xD800 ≤ hi ∧ hi < 0xDC00 then
      if 0xDC00 ≤ lo ∧ lo < 0xE000 then
        let n := 0x10000 + (hi - 0xD800) * 0x400 + (lo - 0xDC00)
        joinPieces ((String.utf8EncodeChar (Char.ofNat n)).reverse ++ acc) rest
      else none
    else if 0xDC00 ≤ hi ∧ hi < 0xE000 then none
    else joinPieces ((String.utf8EncodeChar (Char.ofNat hi)).reverse ++ acc) (.unit lo :: rest)
  | .unit n :: rest =>
    if 0xD800 ≤ n ∧ n < 0xE000 then none
    else joinPieces ((String.utf8EncodeChar (Char.ofNat n)).reverse ++ acc) rest

/-- The characters of a text as written, when they are characters. -/
def textOf (raw : Bytes) : Option String :=
  (joinPieces [] (textPieces [] raw)).bind Utf8.decodeText

end Licensing.Json
