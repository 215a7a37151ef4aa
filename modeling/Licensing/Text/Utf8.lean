/-!
# UTF-8

Bytes are read by a transducer that is either between two characters or inside one, waiting
for continuation bytes in a stated range. A byte outside that range ends the character that
was begun, which is then invalid, and is read again as a first byte. So every invalid piece is
a longest sequence that could have begun a character.

`decode` refuses a text with an invalid piece; `decodeLossy` puts U+FFFD in its place.
-/

namespace Licensing.Utf8

/-- A sequence of bytes. -/
abbrev Bytes := List UInt8

/-- A character that was begun: how many bytes are owed, the bits read so far, and the range
that the next byte has to lie in. -/
structure Pending where
  /-- Continuation bytes still owed, at least one. -/
  owed : Nat
  /-- The bits of the bytes read so far. -/
  bits : Nat
  /-- The least next byte. -/
  low : Nat
  /-- The greatest next byte. -/
  high : Nat
deriving DecidableEq, Repr

/-- What reading bytes yields: a character, or the place of an invalid piece. -/
abbrev Piece := Option Char

/-- Reads a byte between two characters. -/
def begin (b : UInt8) : List Piece × Option Pending :=
  let n := b.toNat
  if n < 0x80 then ([some (Char.ofNat n)], none)
  else if n < 0xC2 then ([none], none)
  else if n < 0xE0 then ([], some ⟨1, n - 0xC0, 0x80, 0xBF⟩)
  else if n = 0xE0 then ([], some ⟨2, 0, 0xA0, 0xBF⟩)
  else if n = 0xED then ([], some ⟨2, n - 0xE0, 0x80, 0x9F⟩)
  else if n < 0xF0 then ([], some ⟨2, n - 0xE0, 0x80, 0xBF⟩)
  else if n = 0xF0 then ([], some ⟨3, 0, 0x90, 0xBF⟩)
  else if n < 0xF4 then ([], some ⟨3, n - 0xF0, 0x80, 0xBF⟩)
  else if n = 0xF4 then ([], some ⟨3, n - 0xF0, 0x80, 0x8F⟩)
  else ([none], none)

/-- Reads one byte. -/
def step : Option Pending → UInt8 → List Piece × Option Pending
  | none, b => begin b
  | some p, b =>
    if p.low ≤ b.toNat && b.toNat ≤ p.high then
      let bits := p.bits * 64 + (b.toNat - 0x80)
      if p.owed ≤ 1 then ([some (Char.ofNat bits)], none)
      else ([], some ⟨p.owed - 1, bits, 0x80, 0xBF⟩)
    else
      let (pieces, next) := begin b
      (none :: pieces, next)

/-- Where reading stands: the pieces read so far, latest first, and the character begun. -/
structure Reading where
  /-- The pieces read, latest first. -/
  read : List Piece
  /-- The character that was begun. -/
  pending : Option Pending

/-- Takes one more byte. -/
def Reading.next (r : Reading) (b : UInt8) : Reading :=
  let (pieces, pending) := step r.pending b
  ⟨pieces.reverse ++ r.read, pending⟩

/-- All pieces in order; a character left unfinished at the end is invalid. -/
def Reading.finish (r : Reading) : List Piece :=
  match r.pending with
  | none => r.read.reverse
  | some _ => (none :: r.read).reverse

/-- The pieces of a byte sequence. -/
def pieces (bs : Bytes) : List Piece :=
  (bs.foldl Reading.next ⟨[], none⟩).finish

/-- The characters of a byte sequence that holds no invalid piece. -/
def decode (bs : Bytes) : Option (List Char) :=
  (pieces bs).mapM id

/-- The characters of a byte sequence, U+FFFD standing for every invalid piece. -/
def decodeLossy (bs : Bytes) : List Char :=
  (pieces bs).map fun p ↦ p.getD (Char.ofNat 0xFFFD)

/-- The bytes of a list of characters. -/
def encode (cs : List Char) : Bytes :=
  cs.flatMap String.utf8EncodeChar

/-- The bytes of a text. -/
def encodeText (s : String) : Bytes :=
  encode s.toList

/-- The text of a byte sequence that holds no invalid piece. -/
def decodeText (bs : Bytes) : Option String :=
  (decode bs).map String.ofList

end Licensing.Utf8
