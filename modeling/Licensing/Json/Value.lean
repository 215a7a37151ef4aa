import Licensing.Text.Shortest

/-!
# JSON values and how they are written

A value is null, a truth value, an integer, another number, a text, a list or an object. It is
written without blanks, or indented by two spaces a level. In a text only what JSON cannot hold
is escaped: the quote, the backslash and the control characters below U+0020.
-/

namespace Licensing.Json

/-- A JSON value. A number that is no 64-bit integer is kept as the bits of its
floating-point form. -/
inductive Value where
  | null
  | bool (b : Bool)
  | int (n : Int)
  | real (bits : UInt64)
  | text (s : String)
  | list (items : List Value)
  | object (members : List (String × Value))
deriving Inhabited

/-- An object whose absent members are left out. -/
def Value.present (members : List (String × Option Value)) : Value :=
  .object (members.filterMap fun m ↦ m.2.map (m.1, ·))

/-- A text, or null in its absence. -/
def Value.optText (s : Option String) : Value :=
  (s.map Value.text).getD .null

/-- A list of texts. -/
def Value.texts (ss : List String) : Value :=
  .list (ss.map .text)

/-- A natural number. -/
def Value.nat (n : Nat) : Value :=
  .int n

/-! ### Texts -/

/-- The digit of a number below sixteen, in lower case. -/
def hexDigit (n : Nat) : Char :=
  if n < 10 then Char.ofNat (48 + n) else Char.ofNat (87 + n)

/-- A character as it stands in a written text. -/
def escapeChar (c : Char) : List Char :=
  let n := c.toNat
  if n = 34 then ['\\', c]
  else if n = 92 then ['\\', c]
  else if n = 8 then ['\\', 'b']
  else if n = 12 then ['\\', 'f']
  else if n = 10 then ['\\', 'n']
  else if n = 13 then ['\\', 'r']
  else if n = 9 then ['\\', 't']
  else if n < 32 then ['\\', 'u', '0', '0', hexDigit (n / 16), hexDigit (n % 16)]
  else [c]

/-- A written text, with its quotes. -/
def quoted (s : String) : String :=
  "\"" ++ String.ofList (s.toList.flatMap escapeChar) ++ "\""

/-! ### Numbers that are no integers -/

/-- A shortest decimal in the notation of JSON documents: positional from five places after
the point up to sixteen digits before it, and with an exponent elsewhere. -/
def decimalText (d : Shortest.Decimal) : String :=
  let ds := Nat.toDigits 10 d.digits
  let point := (ds.length : Int) + d.power
  if 0 ≤ d.power ∧ point ≤ 16 then d.positional ++ ".0"
  else if -5 < point ∧ point ≤ 16 then d.positional
  else
    let mantissa := match ds with
      | first :: second :: rest => first :: '.' :: second :: rest
      | ds => ds
    String.ofList mantissa ++ "e" ++ toString (point - 1)

/-- The text of a finite floating-point number. -/
def realText (bits : UInt64) : String :=
  let magnitude := bits.toNat % Shortest.signBit
  let body := if magnitude = 0 then "0.0" else decimalText (Shortest.ofBits magnitude)
  if bits.toNat < Shortest.signBit then body else "-" ++ body

/-! ### Documents -/

mutual

/-- A value written without blanks. -/
def Value.compact : Value → String
  | .null => "null"
  | .bool b => if b then "true" else "false"
  | .int n => toString n
  | .real bits => realText bits
  | .text s => quoted s
  | .list items => "[" ++ ",".intercalate (compactItems items) ++ "]"
  | .object members => "\x7b" ++ ",".intercalate (compactMembers members) ++ "\x7d"

/-- The items of a list, each written without blanks. -/
def compactItems : List Value → List String
  | [] => []
  | v :: vs => v.compact :: compactItems vs

/-- The members of an object, each written without blanks. -/
def compactMembers : List (String × Value) → List String
  | [] => []
  | (k, v) :: ms => (quoted k ++ ":" ++ v.compact) :: compactMembers ms

end

/-- A line break and the indentation of a level. -/
def lineBreak (level : Nat) : String :=
  String.ofList ('\n' :: List.replicate (2 * level) ' ')

mutual

/-- A value written over several lines, standing at a level. -/
def Value.indented (level : Nat) : Value → String
  | .list [] => "[]"
  | .list items =>
    let sep := "," ++ lineBreak (level + 1)
    "[" ++ lineBreak (level + 1) ++ sep.intercalate (indentedItems (level + 1) items)
      ++ lineBreak level ++ "]"
  | .object [] => "\x7b\x7d"
  | .object members =>
    let sep := "," ++ lineBreak (level + 1)
    "\x7b" ++ lineBreak (level + 1) ++ sep.intercalate (indentedMembers (level + 1) members)
      ++ lineBreak level ++ "\x7d"
  | v => v.compact

/-- The items of a list, each written over several lines. -/
def indentedItems (level : Nat) : List Value → List String
  | [] => []
  | v :: vs => v.indented level :: indentedItems level vs

/-- The members of an object, each written over several lines. -/
def indentedMembers (level : Nat) : List (String × Value) → List String
  | [] => []
  | (k, v) :: ms => (quoted k ++ ": " ++ v.indented level) :: indentedMembers level ms

end

end Licensing.Json
