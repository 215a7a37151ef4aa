import Licensing.Text.Utf8
import Licensing.Yaml.Scalar

/-!
# Directives, anchors and tags

The tokens that say something about a document or about a node, each read from its indicator.
The readers give what was read and the position after it, none when it is malformed.
-/

namespace Licensing.Yaml

/-! ### Names of anchors -/

/-- The characters that may follow the name of an anchor, besides a gap. -/
def endsAnchor (c : Char) : Bool :=
  c = '?' || c = ':' || c = ',' || c = ']' || c.toNat = 0x7D || c = '%' || c = '@' || c = grave

/-- The name of an anchor, from its indicator. -/
def anchorName (c : Cursor) : Option (String × Cursor) :=
  let (name, c) := (c.skip 1).span isWord
  if name ≠ [] ∧ c.endsOr 0 fun ch ↦ isGap ch || endsAnchor ch
  then some (String.ofList name, c) else none

/-! ### Tags -/

/-- The characters of a tag that stand for themselves; those of `wide` only in a tag that is
written out in full. -/
def isTagChar (wide : Bool) (c : Char) : Bool :=
  isWord c || c = ';' || c = '/' || c = '?' || c = ':' || c = '@' || c = '&' || c = '=' || c = '+'
    || c = '$' || c = '.' || c = '!' || c = '~' || c = '*' || c = singleQuote || c = '(' || c = ')'
    || (wide && (c = ',' || c = '[' || c = ']'))

/-- The byte of a percent sign and two hexadecimal digits. -/
def escapedByte? (c : Cursor) : Option UInt8 :=
  match c.peek 0, (c.peek 1).bind hexValue?, (c.peek 2).bind hexValue? with
  | some ch, some high, some low => if ch = '%' then some (UInt8.ofNat (16 * high + low)) else none
  | _, _, _ => none

/-- How many bytes follow the first byte of an encoded character. -/
def followers? (b : UInt8) : Option Nat :=
  let n := b.toNat
  if n < 0x80 then some 0
  else if n / 0x20 = 0x06 then some 1
  else if n / 0x10 = 0x0E then some 2
  else if n / 0x08 = 0x1E then some 3
  else none

/-- The following bytes of an encoded character, each escaped. -/
def escapedFollowers : Nat → Cursor → Option (List UInt8 × Cursor)
  | 0, c => some ([], c)
  | n + 1, c => match escapedByte? c with
    | some b =>
      if b.toNat / 0x40 = 0x02
      then (escapedFollowers n (c.skip 3)).map fun r ↦ (b :: r.1, r.2) else none
    | none => none

/-- A character whose bytes are escaped. -/
def escapedBytes (c : Cursor) : Option (List UInt8 × Cursor) :=
  match escapedByte? c with
  | some b => match followers? b with
    | some n => (escapedFollowers n (c.skip 3)).map fun r ↦ (b :: r.1, r.2)
    | none => none
  | none => none

/-- The bytes of a tag's text after `acc`, which is in reverse. -/
def tagBytes (wide : Bool) : Nat → List UInt8 → Cursor → Option (List UInt8 × Cursor)
  | 0, _, _ => none
  | fuel + 1, acc, c =>
    match c.rest with
    | [] => some (acc, c)
    | ch :: _ =>
      if ch = '%' then match escapedBytes c with
        | some (bytes, c) => tagBytes wide fuel (bytes.reverse ++ acc) c
        | none => none
      else if isTagChar wide ch then tagBytes wide fuel (UInt8.ofNat ch.toNat :: acc) (c.skip 1)
      else some (acc, c)

/-- The text of a tag after what of it has been read as a handle; it may not be empty unless
something has been. -/
def tagText (fuel : Nat) (wide : Bool) (before : List Char) (c : Cursor) :
    Option (String × Cursor) :=
  match tagBytes wide fuel [] c with
  | some (bytes, after) =>
    if before.isEmpty && bytes.isEmpty then none
    else
      let text := before.drop 1 ++ Utf8.decodeLossy bytes.reverse
      some (String.ofList text, after)
  | none => none

/-- A tag handle: an exclamation mark, and word characters that another one may close. -/
def tagHandle (c : Cursor) : Option (List Char × Cursor) :=
  if !c.sees 0 '!' then none
  else
    let (word, c) := (c.skip 1).span isWord
    if c.sees 0 '!' then some ('!' :: word ++ ['!'], c.skip 1) else some ('!' :: word, c)

/-- Whether a handle is closed by an exclamation mark of its own. -/
def isClosedHandle (handle : List Char) : Bool :=
  2 ≤ handle.length && handle.getLast? == some '!'

/-- The handle and the text of a tag, from its indicator. -/
def tagProperty (fuel : Nat) (c : Cursor) : Option ((String × String) × Cursor) :=
  if c.sees 1 '<' then
    match tagText fuel true [] (c.skip 2) with
    | some (text, c) => if c.sees 0 '>' then some (("", text), c.skip 1) else none
    | none => none
  else match tagHandle c with
    | none => none
    | some (handle, c) =>
      if isClosedHandle handle then
        (tagText fuel false [] c).map fun r ↦ ((String.ofList handle, r.1), r.2)
      else match tagText fuel false handle c with
        | some (text, c) => some (if text.isEmpty then ("", "!") else ("!", text), c)
        | none => none

/-- A tag that ends where a tag may end. -/
def tagToken (fuel : Nat) (flow : Bool) (c : Cursor) : Option (Token × Cursor) :=
  match tagProperty fuel c with
  | some ((handle, text), c) =>
    if c.endsOr 0 isGap || (flow && c.sees 0 ',') then some (.tag handle text, c) else none
  | none => none

/-! ### Directives -/

/-- A number of at most nine digits. -/
def versionNumber (c : Cursor) : Option (Nat × Cursor) :=
  let (digits, c) := c.span Char.isDigit
  if digits = [] ∨ 9 < digits.length then none
  else some (digits.foldl (fun n d ↦ 10 * n + (d.toNat - 48)) 0, c)

/-- What follows the name of a version directive. -/
def versionDirective (c : Cursor) : Option (Token × Cursor) :=
  match versionNumber (c.skipWhile isWhite) with
  | some (major, c) =>
    if c.sees 0 '.' then (versionNumber (c.skip 1)).map fun r ↦ (.version major r.1, r.2) else none
  | none => none

/-- What follows the name of a directive for a tag handle. -/
def tagDirective (fuel : Nat) (c : Cursor) : Option (Token × Cursor) :=
  match tagHandle (c.skipWhile isWhite) with
  | some (handle, c) =>
    if !(isClosedHandle handle || handle = ['!']) || !c.isAt 0 isWhite then none
    else match tagText fuel true [] (c.skipWhile isWhite) with
      | some (text, c) =>
        if c.endsOr 0 isGap then some (.tagHandle (String.ofList handle) text, c) else none
      | none => none
  | none => none

/-- A directive with the line that it fills. -/
def directive (fuel : Nat) (c : Cursor) : Option (Token × Cursor) :=
  let (name, c) := (c.skip 1).span isWord
  if !c.endsOr 0 isGap then none
  else
    let body :=
      if name = "YAML".toList then versionDirective c
      else if name = "TAG".toList then tagDirective fuel c
      else none
    match body with
    | some (token, c) => c.closeLine?.map (token, ·)
    | none => none

end Licensing.Yaml
