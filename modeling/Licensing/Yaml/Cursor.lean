/-!
# Reading positions in a YAML stream

A stream is a list of characters. The characters that may stand in it are fixed, and every line
break but the two of Unicode is written as a line feed before anything else is read. A cursor is
what is left of the stream, with the line and the column that its first character stands in.
-/

namespace Licensing.Yaml

/-! ### Kinds of characters -/

/-- The characters that may stand in a stream: the printable ones, the tab and the line breaks. -/
def isAllowed (c : Char) : Bool :=
  let n := c.toNat
  n = 0x09 || n = 0x0A || n = 0x0D || (0x20 ≤ n && n ≤ 0x7E) || n = 0x85
    || (0xA0 ≤ n && n ≤ 0xFFFD && n ≠ 0xFEFF) || 0x10000 ≤ n

/-- A line break. -/
def isBreak (c : Char) : Bool :=
  c.toNat = 0x0A || c.toNat = 0x2028 || c.toNat = 0x2029

/-- A space or a tab. -/
def isWhite (c : Char) : Bool :=
  c.toNat = 0x20 || c.toNat = 0x09

/-- A space, a tab or a line break. -/
def isGap (c : Char) : Bool :=
  isWhite c || isBreak c

/-- A letter, a digit, a hyphen or an underscore of ASCII. -/
def isWord (c : Char) : Bool :=
  c.isAlphanum || c = '-' || c = '_'

/-- A bracket or a brace of a flow collection, or its comma. -/
def isFlowMark (c : Char) : Bool :=
  c = ',' || c = '[' || c = ']' || c.toNat = 0x7B || c.toNat = 0x7D

/-- The single quote. -/
def singleQuote : Char := Char.ofNat 0x27

/-- The double quote. -/
def doubleQuote : Char := Char.ofNat 0x22

/-- The backslash. -/
def backslash : Char := Char.ofNat 0x5C

/-- The grave accent. -/
def grave : Char := Char.ofNat 0x60

/-- A character that has a meaning of its own where a token starts. -/
def isIndicator (c : Char) : Bool :=
  isFlowMark c || c = '-' || c = '?' || c = ':' || c = '#' || c = '&' || c = '*' || c = '!'
    || c = '|' || c = '>' || c = '%' || c = '@' || c = singleQuote || c = doubleQuote || c = grave

/-! ### Streams -/

/-- The characters of a stream with every carriage return, pair of carriage return and line
feed, and next-line character written as a line feed, put before `acc` in reverse; none when a
character may not stand in a stream. -/
def normaliseOnto (acc : List Char) : List Char → Option (List Char)
  | [] => some acc.reverse
  | c :: cs =>
    if !isAllowed c then none
    else if c.toNat = 0x0D then
      match cs with
      | d :: ds => if d.toNat = 0x0A then normaliseOnto (d :: acc) ds
        else normaliseOnto ('\n' :: acc) (d :: ds)
      | [] => some ('\n' :: acc).reverse
    else if c.toNat = 0x85 then normaliseOnto ('\n' :: acc) cs
    else normaliseOnto (c :: acc) cs

/-- The characters of a stream without the byte order mark it may start with, and with one
kind of line feed. -/
def normalise (cs : List Char) : Option (List Char) :=
  match cs with
  | c :: rest => if c.toNat = 0xFEFF then normaliseOnto [] rest else normaliseOnto [] cs
  | [] => some []

/-! ### Cursors -/

/-- A position in a stream. -/
structure Cursor where
  /-- What is left of the stream. -/
  rest : List Char
  /-- How many characters came before. -/
  index : Nat
  /-- How many line breaks came before. -/
  line : Nat
  /-- How many characters of the line came before. -/
  column : Nat
deriving Inhabited

namespace Cursor

/-- The start of a stream. -/
def start (cs : List Char) : Cursor :=
  ⟨cs, 0, 0, 0⟩

/-- The character that comes after `n` others. -/
def peek (c : Cursor) (n : Nat) : Option Char :=
  c.rest[n]?

/-- Whether a character stands after `n` others. -/
def sees (c : Cursor) (n : Nat) (ch : Char) : Bool :=
  c.peek n == some ch

/-- Whether the character after `n` others is of a kind. -/
def isAt (c : Cursor) (n : Nat) (p : Char → Bool) : Bool :=
  match c.peek n with
  | some ch => p ch
  | none => false

/-- Whether after `n` characters the stream ends or has a character of a kind. -/
def endsOr (c : Cursor) (n : Nat) (p : Char → Bool) : Bool :=
  match c.peek n with
  | some ch => p ch
  | none => true

/-- Whether the stream is at its end. -/
def atEnd (c : Cursor) : Bool :=
  c.rest.isEmpty

/-- The position after `n` characters of the line. -/
def skip (c : Cursor) (n : Nat) : Cursor :=
  ⟨c.rest.drop n, c.index + n, c.line, c.column + n⟩

/-- The position after a line break. -/
def skipBreak (c : Cursor) : Cursor :=
  ⟨c.rest.drop 1, c.index + 1, c.line + 1, 0⟩

/-- The longest run of characters of a kind that holds no line break, and the position
after it. -/
def span (c : Cursor) (p : Char → Bool) : List Char × Cursor :=
  let run := c.rest.span p
  (run.1, ⟨run.2, c.index + run.1.length, c.line, c.column + run.1.length⟩)

/-- The position after the longest run of characters of a kind that holds no line break. -/
def skipWhile (c : Cursor) (p : Char → Bool) : Cursor :=
  (c.span p).2

/-- The position after a comment, if there is one here. -/
def skipComment (c : Cursor) : Cursor :=
  if c.sees 0 '#' then c.skipWhile fun ch ↦ !isBreak ch else c

/-- The position after a line break, if there is one here. -/
def skipBreak? (c : Cursor) : Cursor :=
  if c.isAt 0 isBreak then c.skipBreak else c

/-- The rest of a line that holds nothing but blanks and a comment; none when it holds
something else. -/
def closeLine? (c : Cursor) : Option Cursor :=
  let c := (c.skipWhile isWhite).skipComment
  if c.endsOr 0 isBreak then some c.skipBreak? else none

/-- Whether one of the marks that separate documents stands here: three characters `ch` at the
start of a line with a gap after them. -/
def seesMark (c : Cursor) (ch : Char) : Bool :=
  c.column = 0 && c.sees 0 ch && c.sees 1 ch && c.sees 2 ch && c.endsOr 3 isGap

/-- Whether a document starts or ends here. -/
def seesBoundary (c : Cursor) : Bool :=
  c.seesMark '-' || c.seesMark '.'

end Cursor

end Licensing.Yaml
