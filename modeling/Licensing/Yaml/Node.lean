import Licensing.Yaml.Scan

/-!
# The node of a YAML document

A stream holds one document or none, and a document holds one node: a scalar, a list or a
mapping. The node is built from the tokens by recursive descent. An anchor names a node, and a
reference stands for a node that an anchor names. Both carry the number of the anchor, so that
the node of a reference is looked up when the document is complete.

The number of an anchor is how many names the document has used in front of it. An anchor whose
name is used already therefore shares its number with the anchor that comes next, and of
anchors that share a number the last gives the node.
-/

namespace Licensing.Yaml

/-- A node. -/
inductive Node where
  | scalar (text : String) (style : Style) (tag : Option String)
  | list (items : List Node)
  | mapping (members : List (Node × Node))
  | reference (number : Nat)
deriving Inhabited

/-- The node that stands where a node is missing. -/
def Node.missing : Node :=
  .scalar "" .plain none

/-- A document. -/
structure Document where
  /-- The node it holds. -/
  root : Node
  /-- The nodes with an anchor, by the numbers of the anchors, the last first. -/
  anchored : List (Nat × Node)

/-- What a node stands for: the anchored node if it is a reference. -/
def Document.resolve (d : Document) : Node → Node
  | .reference number => (d.anchored.lookup number).getD .missing
  | n => n

/-! ### The state of the builder -/

/-- An anchor with the node it names, none while that node is being built. -/
structure Anchor where
  /-- The name. -/
  name : String
  /-- The number that references to it carry. -/
  number : Nat
  /-- The node. -/
  node : Option Node

/-- The state of the builder. -/
structure Builder where
  /-- The tokens that are left. -/
  tokens : List Token
  /-- The anchors, the last first. -/
  anchors : List Anchor
  /-- How many names the anchors have. -/
  names : Nat
  /-- The tag handles with the text they stand for. -/
  handles : List (String × String)

namespace Builder

/-- The next token. -/
def peek (b : Builder) : Token :=
  b.tokens.headD .streamEnd

/-- The state behind the next token. -/
def skip (b : Builder) : Builder :=
  { b with tokens := b.tokens.drop 1 }

/-- The last anchor of a name. -/
def named (b : Builder) (name : String) : Option Anchor :=
  b.anchors.find? fun a ↦ a.name = name

/-- Opens an anchor. -/
def openAnchor (b : Builder) (name : Option String) : Builder :=
  match name with
  | some name => { b with
      anchors := ⟨name, b.names, none⟩ :: b.anchors
      names := if (b.named name).isSome then b.names else b.names + 1 }
  | none => b

/-- Gives the anchor that was opened after `count` others its node. -/
def closeAnchor (b : Builder) (name : Option String) (count : Nat) (node : Node) : Builder :=
  match name with
  | some _ => { b with
      anchors := b.anchors.modify (b.anchors.length - 1 - count)
        fun a ↦ { a with node := some node } }
  | none => b

/-- The anchored nodes by their numbers, the last first. -/
def anchored (b : Builder) : List (Nat × Node) :=
  b.anchors.filterMap fun a ↦ a.node.map fun n ↦ (a.number, n)

/-! ### Properties -/

/-- The anchor and the tag in front of a node. -/
structure Properties where
  /-- The anchor. -/
  anchor : Option String
  /-- The handle and the text of the tag. -/
  tag : Option (String × String)

/-- The properties of a node, in either order. -/
def properties (b : Builder) : Properties × Builder :=
  match b.peek with
  | .anchor name => match b.skip.peek with
    | .tag handle text => (⟨some name, some (handle, text)⟩, b.skip.skip)
    | _ => (⟨some name, none⟩, b.skip)
  | .tag handle text => match b.skip.peek with
    | .anchor name => (⟨some name, some (handle, text)⟩, b.skip.skip)
    | _ => (⟨none, some (handle, text)⟩, b.skip)
  | _ => (⟨none, none⟩, b)

/-- The full tag of a node; the outer none is for a handle that stands for nothing. -/
def fullTag? (b : Builder) : Option (String × String) → Option (Option String)
  | none => some none
  | some (handle, text) =>
    if handle = "" then some (some text)
    else (b.handles.lookup handle).map fun leading ↦ some (leading ++ text)

end Builder

/-! ### Nodes -/

/-- Whether a block entry has no node before this token. -/
def endsBlockEntry : Token → Bool
  | .blockEntry | .blockEnd => true
  | _ => false

/-- Whether an entry of a list that is not indented has no node before this token. -/
def endsFlatEntry : Token → Bool
  | .blockEntry | .key | .value | .blockEnd => true
  | _ => false

/-- Whether a key or a value in a block has no node before this token. -/
def endsBlockMember : Token → Bool
  | .key | .value | .blockEnd => true
  | _ => false

/-- Whether a value in a flow list has no node before this token. -/
def endsListMember : Token → Bool
  | .flowEntry | .flowListEnd => true
  | _ => false

/-- Whether a value in a flow mapping has no node before this token. -/
def endsMappingMember : Token → Bool
  | .flowEntry | .flowMappingEnd => true
  | _ => false

/-- The kinds of nodes that may stand at a place. -/
structure Place where
  /-- Whether a block may. -/
  block : Bool
  /-- Whether the entries of a block list may, without an indentation of their own. -/
  flat : Bool

mutual

/-- A node. -/
def node (place : Place) : Nat → Builder → Option (Node × Builder)
  | 0, _ => none
  | fuel + 1, b =>
    match b.peek with
    | .reference name => (b.named name).map fun a ↦ (.reference a.number, b.skip)
    | _ =>
      let (props, b) := b.properties
      let count := b.anchors.length
      let b := b.openAnchor props.anchor
      match b.fullTag? props.tag with
      | none => none
      | some tag =>
        let built : Option (Node × Builder) :=
          match b.peek with
          | .scalar text style => some (.scalar text style tag, b.skip)
          | .flowListStart => flowList fuel [] b.skip
          | .flowMappingStart => flowMapping fuel [] b.skip
          | .blockListStart => if place.block then blockList fuel [] b.skip else none
          | .blockMappingStart => if place.block then blockMapping fuel [] b.skip else none
          | .blockEntry =>
            if place.flat then flatList fuel [] b
            else if props.anchor.isSome || tag.isSome then some (.scalar "" .plain tag, b)
            else none
          | _ =>
            if props.anchor.isSome || tag.isSome then some (.scalar "" .plain tag, b) else none
        built.map fun r ↦ (r.1, r.2.closeAnchor props.anchor count r.1)

/-- A node, or the missing one before a token that ends its place. -/
def nodeOrMissing (place : Place) (ends : Token → Bool) : Nat → Builder → Option (Node × Builder)
  | 0, _ => none
  | fuel + 1, b => if ends b.peek then some (.missing, b) else node place fuel b

/-- The entries of a block list after `acc`. -/
def blockList : Nat → List Node → Builder → Option (Node × Builder)
  | 0, _, _ => none
  | fuel + 1, acc, b =>
    match b.peek with
    | .blockEntry => match nodeOrMissing ⟨true, false⟩ endsBlockEntry fuel b.skip with
      | some (n, b) => blockList fuel (n :: acc) b
      | none => none
    | .blockEnd => some (.list acc.reverse, b.skip)
    | _ => none

/-- The entries of a list that is not indented further than the mapping that holds it. -/
def flatList : Nat → List Node → Builder → Option (Node × Builder)
  | 0, _, _ => none
  | fuel + 1, acc, b =>
    match b.peek with
    | .blockEntry => match nodeOrMissing ⟨true, false⟩ endsFlatEntry fuel b.skip with
      | some (n, b) => flatList fuel (n :: acc) b
      | none => none
    | _ => some (.list acc.reverse, b)

/-- The members of a block mapping after `acc`. -/
def blockMapping : Nat → List (Node × Node) → Builder → Option (Node × Builder)
  | 0, _, _ => none
  | fuel + 1, acc, b =>
    match b.peek with
    | .key => match nodeOrMissing ⟨true, true⟩ endsBlockMember fuel b.skip with
      | none => none
      | some (k, b) =>
        let member : Option (Node × Builder) :=
          match b.peek with
          | .value => nodeOrMissing ⟨true, true⟩ endsBlockMember fuel b.skip
          | _ => some (.missing, b)
        match member with
        | some (v, b) => blockMapping fuel ((k, v) :: acc) b
        | none => none
    | .blockEnd => some (.mapping acc.reverse, b.skip)
    | _ => none

/-- The value after a colon in a flow collection, missing where there is no colon. -/
def flowValue (ends : Token → Bool) : Nat → Builder → Option (Node × Builder)
  | 0, _ => none
  | fuel + 1, b => match b.peek with
    | .value => nodeOrMissing ⟨false, false⟩ ends fuel b.skip
    | _ => some (.missing, b)

/-- A mapping of one member in a flow list, behind its question mark or candidate. A missing
key takes the token it is missing before. -/
def pairNode : Nat → Builder → Option (Node × Builder)
  | 0, _ => none
  | fuel + 1, b =>
    let first : Option (Node × Builder) :=
      match b.peek with
      | .value | .flowEntry | .flowListEnd => some (.missing, b.skip)
      | _ => node ⟨false, false⟩ fuel b
    match first with
    | none => none
    | some (k, b) => (flowValue endsListMember fuel b).map fun r ↦ (.mapping [(k, r.1)], r.2)

/-- The items of a flow list after `acc`. -/
def flowList : Nat → List Node → Builder → Option (Node × Builder)
  | 0, _, _ => none
  | fuel + 1, acc, b =>
    match b.peek with
    | .flowListEnd => some (.list acc.reverse, b.skip)
    | t =>
      let item :=
        if acc.isEmpty then some b
        else match t with
          | .flowEntry => some b.skip
          | _ => none
      match item with
      | none => none
      | some b => match b.peek with
        | .flowListEnd => some (.list acc.reverse, b.skip)
        | .key => match pairNode fuel b.skip with
          | some (n, b) => flowList fuel (n :: acc) b
          | none => none
        | _ => match node ⟨false, false⟩ fuel b with
          | some (n, b) => flowList fuel (n :: acc) b
          | none => none

/-- The members of a flow mapping after `acc`. -/
def flowMapping : Nat → List (Node × Node) → Builder → Option (Node × Builder)
  | 0, _, _ => none
  | fuel + 1, acc, b =>
    match b.peek with
    | .flowMappingEnd => some (.mapping acc.reverse, b.skip)
    | t =>
      let member :=
        if acc.isEmpty then some b
        else match t with
          | .flowEntry => some b.skip
          | _ => none
      match member with
      | none => none
      | some b => match b.peek with
        | .flowMappingEnd => some (.mapping acc.reverse, b.skip)
        | .key =>
          let b := b.skip
          let first : Option (Node × Builder) :=
            match b.peek with
            | .value | .flowEntry | .flowMappingEnd => some (.missing, b)
            | _ => node ⟨false, false⟩ fuel b
          match first with
          | none => none
          | some (k, b) => match flowValue endsMappingMember fuel b with
            | some (v, b) => flowMapping fuel ((k, v) :: acc) b
            | none => none
        | _ => match node ⟨false, false⟩ fuel b with
          | some (k, b) => flowMapping fuel ((k, .missing) :: acc) b
          | none => none

end

/-! ### Documents -/

/-- The tag handles that every document knows. -/
def commonHandles : List (String × String) :=
  [("!", "!"), ("!!", "tag:yaml.org,2002:")]

/-- The directives in front of a document, with the handles they define. At most one may state
a version, which has to be 1.1 or 1.2, and no handle may be defined twice. -/
def directives : List Token → Bool → List (String × String) →
    Option (List (String × String) × List Token)
  | .version major minor :: ts, seen, handles =>
    if seen || major ≠ 1 || (minor ≠ 1 && minor ≠ 2) then none else directives ts true handles
  | .tagHandle handle leading :: ts, seen, handles =>
    if (handles.lookup handle).isSome then none
    else directives ts seen ((handle, leading) :: handles)
  | ts, _, handles => some (handles, ts)

/-- Whether the content of a document is missing before this token. -/
def endsContent : Token → Bool
  | .version .. | .tagHandle .. | .documentStart | .documentEnd | .streamEnd => true
  | _ => false

/-- The first document of the tokens of a stream with what follows it. -/
def firstDocument (ts : List Token) : Option (Document × List Token) :=
  let fuel := 4 * ts.length + 8
  let builder (handles : List (String × String)) (ts : List Token) : Builder :=
    ⟨ts, [], 0, handles ++ commonHandles⟩
  let built :=
    match ts with
    | .version .. :: _ | .tagHandle .. :: _ | .documentStart :: _ =>
      match directives ts false [] with
      | some (handles, .documentStart :: ts) =>
        nodeOrMissing ⟨true, false⟩ endsContent fuel (builder handles ts)
      | _ => none
    | _ => node ⟨true, false⟩ fuel (builder [] ts)
  built.map fun r ↦ (⟨r.1, r.2.anchored⟩, r.2.tokens)

/-- Whether nothing but the ends of a document are left. -/
def closesStream : List Token → Bool
  | .documentEnd :: ts => closesStream ts
  | [.streamEnd] => true
  | _ => false

/-- A stream's only document. An empty stream has one with a missing node. None for a malformed
stream, and for one with several documents. -/
def Document.read (stream : List Char) : Option Document :=
  match tokens stream with
  | none => none
  | some [.streamEnd] => some ⟨.missing, []⟩
  | some ts => match firstDocument ts with
    | some (d, rest) => if closesStream rest then some d else none
    | none => none

end Licensing.Yaml
