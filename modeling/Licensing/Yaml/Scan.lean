import Licensing.Yaml.Property

/-!
# Splitting a YAML stream into tokens

The scanner reads tokens one after another and turns indentation into tokens as it goes. That
a node is a key shows only at the colon behind it, so where a key may start a *candidate* is
remembered, one for every level of flow collections; the tokens for the key, and for the mapping
that it opens, are put in front of the node when the colon comes. A candidate lasts to the end
of its line, and for 1024 characters at most. One that stands where the block needs a key has to
become one.
-/

namespace Licensing.Yaml

/-- A place where a key may have started. -/
structure Candidate where
  /-- How many tokens stand before it. -/
  token : Nat
  /-- Whether it has to become a key. -/
  required : Bool
  /-- Where it starts. -/
  index : Nat
  /-- The line it starts in. -/
  line : Nat
  /-- The column it starts in. -/
  column : Nat
deriving Inhabited

/-- How many characters a key on one line may take. -/
def keyReach : Nat := 1024

/-- The state of the scanner. -/
structure Scanner where
  /-- The position in the stream. -/
  cursor : Cursor
  /-- The tokens so far, the last first. -/
  tokens : List Token
  /-- How many tokens there are. -/
  count : Nat
  /-- The columns of the open blocks, the innermost first. -/
  blocks : List Nat
  /-- The open flow collections, the innermost first, with the candidate within each. -/
  flows : List (Option Candidate)
  /-- The candidate outside of all flow collections. -/
  outer : Option Candidate
  /-- Whether a key may start here. -/
  keyAllowed : Bool
deriving Inhabited

namespace Scanner

/-- The scanner at the start of a stream. -/
def start (cs : List Char) : Scanner :=
  ⟨Cursor.start cs, [], 0, [], [], none, true⟩

/-- Whether a flow collection is open. -/
def inFlow (s : Scanner) : Bool :=
  !s.flows.isEmpty

/-- The column of the innermost block, -1 outside of all. -/
def indent (s : Scanner) : Int :=
  match s.blocks with
  | column :: _ => column
  | [] => -1

/-- The scanner with one more token, at a position. -/
def emit (s : Scanner) (t : Token) (c : Cursor) : Scanner :=
  { s with cursor := c, tokens := t :: s.tokens, count := s.count + 1 }

/-- The scanner with one more token, which takes `n` characters. -/
def emitSkip (s : Scanner) (t : Token) (n : Nat) : Scanner :=
  s.emit t (s.cursor.skip n)

/-- The scanner with a token put behind the first `n`. -/
def emitAfter (s : Scanner) (n : Nat) (t : Token) : Scanner :=
  let later := s.count - n
  { s with
    tokens := s.tokens.take later ++ t :: s.tokens.drop later
    count := s.count + 1 }

/-! ### Candidates -/

/-- The candidate of the innermost collection. -/
def candidate (s : Scanner) : Option Candidate :=
  match s.flows with
  | c :: _ => c
  | [] => s.outer

/-- The scanner with another candidate in the innermost collection. -/
def withCandidate (s : Scanner) (c : Option Candidate) : Scanner :=
  match s.flows with
  | _ :: rest => { s with flows := c :: rest }
  | [] => { s with outer := c }

/-- The scanner without a candidate; none when the candidate had to become a key. -/
def dropCandidate? (s : Scanner) : Option Scanner :=
  match s.candidate with
  | some c => if c.required then none else some (s.withCandidate none)
  | none => some s

/-- The scanner with a candidate here, if a key may start here. -/
def noteCandidate? (s : Scanner) : Option Scanner :=
  if !s.keyAllowed then some s
  else
    let c := s.cursor
    let required := !s.inFlow && s.indent = c.column
    s.dropCandidate?.map fun s ↦
      s.withCandidate (some ⟨s.count, required, c.index, c.line, c.column⟩)

/-- The candidate that a colon here makes a key, none when there is none or it is too far
behind. The outer none is for a candidate too far behind that had to become a key. -/
def keyHere? (s : Scanner) : Option (Option Candidate) :=
  match s.candidate with
  | none => some none
  | some c =>
    if c.line < s.cursor.line || c.index + keyReach < s.cursor.index
    then (if c.required then none else some none) else some (some c)

/-! ### Blocks -/

/-- Closes the blocks that are indented further than a column. -/
def closeBlocks (s : Scanner) (column : Int) : Scanner :=
  if s.inFlow then s
  else
    let deeper := s.blocks.takeWhile fun (b : Nat) ↦ column < (b : Int)
    { s with
      blocks := s.blocks.drop deeper.length
      tokens := List.replicate deeper.length Token.blockEnd ++ s.tokens
      count := s.count + deeper.length }

/-- Opens a block at a column that is indented further than the innermost block, with its
token behind the first `n`. -/
def openBlock (s : Scanner) (column n : Nat) (t : Token) : Scanner :=
  if s.inFlow || (column : Int) ≤ s.indent then s
  else { s.emitAfter n t with blocks := column :: s.blocks }

/-! ### Kinds of tokens -/

/-- The end of the stream. -/
def scanEnd (s : Scanner) : Option Scanner :=
  (s.closeBlocks (-1)).dropCandidate?.map fun s ↦
    { s.emit .streamEnd s.cursor with keyAllowed := false }

/-- A directive. -/
def scanDirective (fuel : Nat) (s : Scanner) : Option Scanner :=
  match (s.closeBlocks (-1)).dropCandidate? with
  | some s => (directive fuel s.cursor).map fun r ↦ { s.emit r.1 r.2 with keyAllowed := false }
  | none => none

/-- A mark that separates documents. -/
def scanBoundary (t : Token) (s : Scanner) : Option Scanner :=
  (s.closeBlocks (-1)).dropCandidate?.map fun s ↦ { s.emitSkip t 3 with keyAllowed := false }

/-- The opening of a flow collection. -/
def scanFlowStart (t : Token) (s : Scanner) : Option Scanner :=
  s.noteCandidate?.map fun s ↦
    { s.emitSkip t 1 with flows := none :: s.flows, keyAllowed := true }

/-- The closing of a flow collection. -/
def scanFlowEnd (t : Token) (s : Scanner) : Option Scanner :=
  s.dropCandidate?.map fun s ↦
    { s.emitSkip t 1 with flows := s.flows.drop 1, keyAllowed := false }

/-- The comma of a flow collection. -/
def scanFlowEntry (s : Scanner) : Option Scanner :=
  s.dropCandidate?.map fun s ↦ { s.emitSkip .flowEntry 1 with keyAllowed := true }

/-- The hyphen of a list entry in a block. -/
def scanBlockEntry (s : Scanner) : Option Scanner :=
  if !s.inFlow && !s.keyAllowed then none
  else (s.openBlock s.cursor.column s.count .blockListStart).dropCandidate?.map fun s ↦
    { s.emitSkip .blockEntry 1 with keyAllowed := true }

/-- The question mark in front of a key. -/
def scanKey (s : Scanner) : Option Scanner :=
  if !s.inFlow && !s.keyAllowed then none
  else (s.openBlock s.cursor.column s.count .blockMappingStart).dropCandidate?.map fun s ↦
    { s.emitSkip .key 1 with keyAllowed := !s.inFlow }

/-- The colon in front of a value. -/
def scanValue (s : Scanner) : Option Scanner :=
  match s.keyHere? with
  | none => none
  | some (some c) =>
    let s := ((s.emitAfter c.token .key).openBlock c.column c.token
      .blockMappingStart).withCandidate none
    some { s.emitSkip .value 1 with keyAllowed := false }
  | some none =>
    if !s.inFlow && !s.keyAllowed then none
    else
      let s := (s.openBlock s.cursor.column s.count .blockMappingStart).withCandidate none
      some { s.emitSkip .value 1 with keyAllowed := !s.inFlow }

/-- A token that a key may start with, read at the position. -/
def scanNode (read : Cursor → Option (Token × Cursor)) (s : Scanner) : Option Scanner :=
  match s.noteCandidate? with
  | some s => (read s.cursor).map fun r ↦ { s.emit r.1 r.2 with keyAllowed := false }
  | none => none

/-- A block scalar. -/
def scanBlockScalar (fuel : Nat) (folded : Bool) (s : Scanner) : Option Scanner :=
  match s.dropCandidate? with
  | some s => (blockScalar fuel folded s.indent s.cursor).map fun r ↦
      { s.emit (.scalar r.1 (if folded then .folded else .literal)) r.2 with keyAllowed := true }
  | none => none

/-- A plain scalar. A key may start behind it when it ends at the end of a line. -/
def scanPlain (fuel : Nat) (s : Scanner) : Option Scanner :=
  match s.noteCandidate? with
  | some s => (plainScalar fuel s.inFlow s.indent s.cursor).map fun r ↦
      { s.emit (.scalar r.1 .plain) r.2.2 with keyAllowed := r.2.1 }
  | none => none

/-! ### The next token -/

/-- The position of the next token and whether a key may start there. A tab is a blank only
where no key may start. -/
def gapFrom (flow : Bool) : Nat → Bool → Cursor → Bool × Cursor
  | 0, allowed, c => (allowed, c)
  | fuel + 1, allowed, c =>
    let blank := fun ch ↦ ch = ' ' || (ch = '\t' && (flow || !allowed))
    let c := (c.skipWhile blank).skipComment
    if c.isAt 0 isBreak then gapFrom flow fuel (allowed || !flow) c.skipBreak else (allowed, c)

/-- Whether a plain scalar may start here. -/
def startsPlain (flow : Bool) (c : Cursor) : Bool :=
  match c.peek 0 with
  | none => false
  | some ch =>
    (!isGap ch && !isIndicator ch)
      || (ch = '-' && !c.isAt 1 isWhite)
      || (!flow && (ch = '?' || ch = ':') && !c.endsOr 1 isGap)

/-- Reads the next token, in front of which the gap has been taken. -/
def scanToken (fuel : Nat) (s : Scanner) : Option Scanner :=
  let c := s.cursor
  let flow := s.inFlow
  match c.peek 0 with
  | none => s.scanEnd
  | some ch =>
    if c.column = 0 && ch = '%' then s.scanDirective fuel
    else if c.seesMark '-' then s.scanBoundary .documentStart
    else if c.seesMark '.' then s.scanBoundary .documentEnd
    else if ch = '[' then s.scanFlowStart .flowListStart
    else if ch.toNat = 0x7B then s.scanFlowStart .flowMappingStart
    else if ch = ']' then s.scanFlowEnd .flowListEnd
    else if ch.toNat = 0x7D then s.scanFlowEnd .flowMappingEnd
    else if ch = ',' then s.scanFlowEntry
    else if ch = '-' && c.endsOr 1 isGap then s.scanBlockEntry
    else if ch = '?' && (flow || c.endsOr 1 isGap) then s.scanKey
    else if ch = ':' && (flow || c.endsOr 1 isGap) then s.scanValue
    else if ch = '*' then
      s.scanNode fun c ↦ (anchorName c).map fun r ↦ (.reference r.1, r.2)
    else if ch = '&' then
      s.scanNode fun c ↦ (anchorName c).map fun r ↦ (.anchor r.1, r.2)
    else if ch = '!' then s.scanNode (tagToken fuel flow)
    else if (ch = '|' || ch = '>') && !flow then s.scanBlockScalar fuel (ch = '>')
    else if ch = singleQuote || ch = doubleQuote then
      s.scanNode fun c ↦ (quotedScalar fuel ch c).map fun r ↦ (.scalar r.1 .quoted, r.2)
    else if startsPlain flow c then s.scanPlain fuel
    else none

/-- Reads the next token. -/
def next (fuel : Nat) (s : Scanner) : Option Scanner :=
  let gap := gapFrom s.inFlow fuel s.keyAllowed s.cursor
  let s := { s with keyAllowed := gap.1, cursor := gap.2 }
  (s.closeBlocks s.cursor.column).scanToken fuel

/-- Reads tokens up to the end of the stream. -/
def run (fuel : Nat) : Nat → Scanner → Option (List Token)
  | 0, _ => none
  | steps + 1, s => match s.next fuel with
    | none => none
    | some s => match s.tokens with
      | .streamEnd :: _ => some s.tokens.reverse
      | _ => run fuel steps s

end Scanner

/-- The tokens of a stream, none when it is malformed. -/
def tokens (stream : List Char) : Option (List Token) :=
  match normalise stream with
  | some cs =>
    let fuel := cs.length + 2
    Scanner.run fuel fuel (Scanner.start cs)
  | none => none

end Licensing.Yaml
