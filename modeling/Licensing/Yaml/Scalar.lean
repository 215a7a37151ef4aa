import Licensing.Yaml.Cursor
import Licensing.Yaml.Token

/-!
# The text of scalars

A scalar is plain, quoted, or a block that stands below its header. In plain and quoted scalars
a single line break between words becomes a space, and of several the first is dropped; in a
literal block they stay, and a folded block folds them between lines that are not indented
further. Every reader here gives the text and the position after it, none when the text is
malformed.

Texts are gathered in reverse. `fuel` bounds the steps of a reader; every step takes at least
one character, so the length of the stream is enough.
-/

namespace Licensing.Yaml

/-! ### Folding -/

/-- The blanks and line breaks between two runs of a scalar: the blanks in front of the first
break, that break, and the breaks after it, the last first. -/
structure Fold where
  /-- The blanks, in reverse. -/
  whites : List Char
  /-- The first line break. -/
  first : Option Char
  /-- The other line breaks, in reverse. -/
  others : List Char
  /-- Whether a line has ended. -/
  broken : Bool
deriving Inhabited

namespace Fold

/-- Nothing between two runs. -/
def none : Fold :=
  ⟨[], .none, [], false⟩

/-- The blanks and breaks with one more character. -/
def add (f : Fold) (ch : Char) : Fold :=
  if isWhite ch then (if f.broken then f else { f with whites := ch :: f.whites })
  else if f.broken then { f with others := ch :: f.others }
  else ⟨[], some ch, [], true⟩

/-- What stands for the blanks and breaks in the text, put before `acc` in reverse. -/
def onto (f : Fold) (acc : List Char) : List Char :=
  if !f.broken then f.whites ++ acc
  else match f.first with
    | some ch =>
      if ch ≠ '\n' then f.others ++ ch :: acc
      else if f.others.isEmpty then ' ' :: acc
      else f.others ++ acc
    | .none => f.others ++ acc

end Fold

/-! ### Plain scalars -/

/-- A plain scalar ends at a colon with a gap after it, and within a flow collection also at
its marks. -/
def endsPlain (flow : Bool) (c : Cursor) : Bool :=
  (c.sees 0 ':' && c.endsOr 1 isGap) || (flow && c.isAt 0 isFlowMark)

/-- Within a flow collection no colon may stand in front of a mark of the collection. -/
def strayColon (flow : Bool) (c : Cursor) : Bool :=
  flow && c.sees 0 ':' && (c.isAt 1 isFlowMark || c.sees 1 '?')

/-- A run of characters without gaps, after `acc`. -/
def plainRun (flow : Bool) : Nat → List Char → Cursor → Option (List Char × Cursor)
  | 0, _, _ => none
  | fuel + 1, acc, c =>
    match c.rest with
    | [] => some (acc, c)
    | ch :: _ =>
      if isGap ch then some (acc, c)
      else if strayColon flow c then none
      else if endsPlain flow c then some (acc, c)
      else plainRun flow fuel (ch :: acc) (c.skip 1)

/-- The gap after a run; none when a tab stands where the line has to be indented. -/
def plainGap (indent : Int) : Nat → Fold → Cursor → Option (Fold × Cursor)
  | 0, _, _ => none
  | fuel + 1, fold, c =>
    match c.rest with
    | [] => some (fold, c)
    | ch :: _ =>
      if isBreak ch then plainGap indent fuel (fold.add ch) c.skipBreak
      else if isWhite ch then
        if fold.broken && (c.column : Int) < indent && ch = '\t' then none
        else plainGap indent fuel (fold.add ch) (c.skip 1)
      else some (fold, c)

/-- The runs of a plain scalar after `acc`, with the gap between. Also whether a line ended at
its end. -/
def plainRuns (flow : Bool) (indent : Int) :
    Nat → List Char → Fold → Cursor → Option (List Char × Bool × Cursor)
  | 0, _, _, _ => none
  | fuel + 1, acc, fold, c =>
    if c.seesBoundary || c.sees 0 '#' then some (acc, fold.broken, c)
    else match plainRun flow (fuel + 1) [] c with
      | none => none
      | some (run, c) =>
        let acc := if run.isEmpty then acc else run ++ fold.onto acc
        let fold := if run.isEmpty then fold else Fold.none
        if !c.isAt 0 isGap then some (acc, fold.broken, c)
        else match plainGap indent (fuel + 1) fold c with
          | none => none
          | some (fold, c) =>
            if !flow && (c.column : Int) < indent then some (acc, fold.broken, c)
            else plainRuns flow indent fuel acc fold c

/-- A plain scalar. Also whether a line ended at its end. -/
def plainScalar (fuel : Nat) (flow : Bool) (indent : Int) (c : Cursor) :
    Option (String × Bool × Cursor) :=
  (plainRuns flow (indent + 1) fuel [] Fold.none c).map fun r ↦
    (String.ofList r.1.reverse, r.2)

/-! ### Quoted scalars -/

/-- The value of a hexadecimal digit. -/
def hexValue? (c : Char) : Option Nat :=
  if '0' ≤ c ∧ c ≤ '9' then some (c.toNat - 48)
  else if 'a' ≤ c ∧ c ≤ 'f' then some (c.toNat - 87)
  else if 'A' ≤ c ∧ c ≤ 'F' then some (c.toNat - 55)
  else none

/-- The number that hexadecimal digits stand for. -/
def hexNumber? (cs : List Char) : Option Nat :=
  cs.foldlM (fun n c ↦ (hexValue? c).map (16 * n + ·)) 0

/-- The characters that are escaped by one letter, with that letter. -/
def shortEscapes : List (Char × Nat) :=
  [('0', 0x00), ('a', 0x07), ('b', 0x08), ('t', 0x09), ('\t', 0x09), ('n', 0x0A), ('v', 0x0B),
    ('f', 0x0C), ('r', 0x0D), ('e', 0x1B), (' ', 0x20), (doubleQuote, 0x22), ('/', 0x2F),
    (backslash, 0x5C), ('N', 0x85), ('_', 0xA0), ('L', 0x2028), ('P', 0x2029)]

/-- The letters that a code point in hexadecimal digits follows, with the number of digits. -/
def numericEscapes : List (Char × Nat) :=
  [('x', 2), ('u', 4), ('U', 8)]

/-- The character of an escape that starts here with a backslash, and its length. -/
def escapeAt? (c : Cursor) : Option (Char × Nat) :=
  match c.peek 1 with
  | none => none
  | some letter =>
    match shortEscapes.lookup letter, numericEscapes.lookup letter with
    | some code, _ => some (Char.ofNat code, 2)
    | none, some width =>
      let digits := (c.rest.drop 2).take width
      if digits.length < width then none
      else match hexNumber? digits with
        | some code => if code.isValidChar then some (Char.ofNat code, 2 + width) else none
        | none => none
    | none, none => none

/-- How a run of a quoted scalar ended: at a gap or the closing quote, or at a line break that
a backslash takes out. -/
inductive RunEnd where
  | here
  | joined
deriving DecidableEq

/-- A run of characters without gaps, after `acc`. -/
def quotedRun (quote : Char) : Nat → List Char → Cursor → Option (List Char × RunEnd × Cursor)
  | 0, _, _ => none
  | fuel + 1, acc, c =>
    match c.rest with
    | [] => some (acc, .here, c)
    | ch :: _ =>
      if isGap ch then some (acc, .here, c)
      else if ch = quote then
        if quote = singleQuote && c.sees 1 singleQuote
        then quotedRun quote fuel (ch :: acc) (c.skip 2)
        else some (acc, .here, c)
      else if quote = doubleQuote && ch = backslash then
        if c.isAt 1 isBreak then some (acc, .joined, (c.skip 1).skipBreak)
        else match escapeAt? c with
          | some (escaped, width) => quotedRun quote fuel (escaped :: acc) (c.skip width)
          | none => none
      else quotedRun quote fuel (ch :: acc) (c.skip 1)

/-- The gap after a run. -/
def quotedGap : Nat → Fold → Cursor → Fold × Cursor
  | 0, fold, c => (fold, c)
  | fuel + 1, fold, c =>
    match c.rest with
    | [] => (fold, c)
    | ch :: _ =>
      if isBreak ch then quotedGap fuel (fold.add ch) c.skipBreak
      else if isWhite ch then quotedGap fuel (fold.add ch) (c.skip 1)
      else (fold, c)

/-- The runs of a quoted scalar after `acc`, up to and with the closing quote. -/
def quotedRuns (quote : Char) : Nat → List Char → Cursor → Option (List Char × Cursor)
  | 0, _, _ => none
  | fuel + 1, acc, c =>
    if c.seesBoundary || c.atEnd then none
    else match quotedRun quote (fuel + 1) acc c with
      | none => none
      | some (acc, stop, c) =>
        if c.sees 0 quote then some (acc, c.skip 1)
        else
          let gap := quotedGap (fuel + 1) { Fold.none with broken := stop = .joined } c
          quotedRuns quote fuel (gap.1.onto acc) gap.2

/-- A quoted scalar, from its opening quote. -/
def quotedScalar (fuel : Nat) (quote : Char) (c : Cursor) : Option (String × Cursor) :=
  (quotedRuns quote fuel [] (c.skip 1)).map fun r ↦ (String.ofList r.1.reverse, r.2)

/-! ### Block scalars -/

/-- What becomes of the line breaks at the end of a block. -/
inductive Chomp where
  | clip
  | strip
  | keep
deriving DecidableEq

/-- A chomping indicator. -/
def chomp? (c : Cursor) : Option Chomp :=
  if c.sees 0 '+' then some .keep else if c.sees 0 '-' then some .strip else none

/-- An indentation indicator, from one to nine. -/
def indentDigit? (c : Cursor) : Option Nat :=
  match c.peek 0 with
  | some ch => if '1' ≤ ch ∧ ch ≤ '9' then some (ch.toNat - 48) else none
  | none => none

/-- The indicators of a block's header in either order. A zero, and whatever else does not
belong there, is left for the end of the line to refuse. -/
def blockHeader (c : Cursor) : Chomp × Option Nat × Cursor :=
  match chomp? c with
  | some chomp =>
    let c := c.skip 1
    match indentDigit? c with
    | some n => (chomp, some n, c.skip 1)
    | none => (chomp, none, c)
  | none =>
    match indentDigit? c with
    | some n =>
      let c := c.skip 1
      match chomp? c with
      | some chomp => (chomp, some n, c.skip 1)
      | none => (.clip, some n, c)
    | none => (.clip, none, c)

/-- The empty lines in front of a line of a block, the last first, and the greatest column
reached. An indentation of zero is one that is not known yet. None when a tab stands in the
indentation. -/
def blockBreaks (indent : Nat) :
    Nat → Nat → List Char → Cursor → Option (List Char × Nat × Cursor)
  | 0, _, _, _ => none
  | fuel + 1, widest, breaks, c =>
    let spaces := c.rest.takeWhile (· = ' ')
    let width := if indent = 0 then spaces.length else min spaces.length (indent - c.column)
    let c := c.skip width
    let widest := max widest c.column
    if (indent = 0 || c.column < indent) && c.sees 0 '\t' then none
    else match c.rest with
      | ch :: _ => if isBreak ch then blockBreaks indent fuel widest (ch :: breaks) c.skipBreak
        else some (breaks, widest, c)
      | [] => some (breaks, widest, c)

/-- The lines of a block after `acc`: `lead` is the break at the end of the line before and
`breaks` are the empty lines since; `indented` tells that the line before starts with a blank. -/
def blockLines (folded : Bool) (indent : Nat) :
    Nat → List Char → Option Char → List Char → Bool → Cursor →
      Option (List Char × Option Char × List Char × Cursor)
  | 0, _, _, _, _, _ => none
  | fuel + 1, acc, lead, breaks, indented, c =>
    if c.column ≠ indent || c.atEnd then some (acc, lead, breaks, c)
    else
      let white := c.isAt 0 isWhite
      let acc :=
        if folded && lead == some '\n' && !indented && !white then
          if breaks.isEmpty then ' ' :: acc else acc
        else lead.toList ++ acc
      let acc := breaks ++ acc
      let text := c.span fun ch ↦ !isBreak ch
      let acc := text.1.reverse ++ acc
      let lead := text.2.peek 0
      match blockBreaks indent (fuel + 1) 0 [] text.2.skipBreak? with
      | some (breaks, _, c) => blockLines folded indent fuel acc lead breaks white c
      | none => none

/-- A block scalar, from its indicator; `parent` is the indentation of the block that holds
it. -/
def blockScalar (fuel : Nat) (folded : Bool) (parent : Int) (c : Cursor) :
    Option (String × Cursor) :=
  let (chomp, step, c) := blockHeader (c.skip 1)
  match c.closeLine? with
  | none => none
  | some c =>
    let stated := match step with
      | some n => (max parent 0).toNat + n
      | none => 0
    match blockBreaks stated fuel 0 [] c with
    | none => none
    | some (breaks, widest, c) =>
      let indent := if stated ≠ 0 then stated else max widest (max (parent + 1).toNat 1)
      match blockLines folded indent fuel [] none breaks false c with
      | none => none
      | some (acc, lead, breaks, c) =>
        let acc := if chomp = .strip then acc else lead.toList ++ acc
        let acc := if chomp = .keep then breaks ++ acc else acc
        some (String.ofList acc.reverse, c)

end Licensing.Yaml
