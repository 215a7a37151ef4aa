/-!
# PEM sections

Certificates and keys come as text: sections between a line that begins them and a line that
ends them, with Base64 between. Text outside of sections is skipped, and so are sections of an
unknown kind. What the sections hold is not looked into.
-/

namespace Licensing.Pem

/-- The kind of a section. -/
inductive Kind where
  | certificate
  | publicKey
  | rsaKey
  | pkcs8Key
  | ecKey
  | revocations
  | request
  | echConfig
deriving DecidableEq, Inhabited

/-- The kinds by the labels of their sections. -/
def kinds : List (String × Kind) :=
  [("CERTIFICATE", .certificate), ("PUBLIC KEY", .publicKey), ("RSA PRIVATE KEY", .rsaKey),
    ("PRIVATE KEY", .pkcs8Key), ("EC PRIVATE KEY", .ecKey), ("X509 CRL", .revocations),
    ("CERTIFICATE REQUEST", .request), ("ECHCONFIG", .echConfig)]

/-- A section of the kind holds a private key. -/
def Kind.isPrivateKey : Kind → Bool
  | .rsaKey | .pkcs8Key | .ecKey => true
  | _ => false

/-! ### Lines -/

/-- The lines of a text, each without its end. -/
def lines : List Char → List (List Char)
  | [] => [[]]
  | c :: cs =>
    if c = '\n' || c = '\r' then [] :: lines cs
    else match lines cs with
      | [] => [[c]]
      | l :: ls => (c :: l) :: ls

/-- What a line that begins a section starts with. -/
def beginMark : List Char := "-----BEGIN ".toList

/-- A line that begins a section. -/
inductive Opening where
  /-- It is none. -/
  | none
  /-- It begins a section of a label. -/
  | label (l : List Char)
  /-- It does not end as it has to. -/
  | malformed

/-- Whether a line begins a section. Blanks between and behind the five hyphens at its end do
not matter. -/
def opening (line : List Char) : Opening :=
  if !beginMark.isPrefixOf line then .none
  else
    let region := (line.reverse.takeWhile fun c ↦ c = '-' || c = ' ').reverse
    let start := line.length - region.length + (region.takeWhile (· = ' ')).length
    if (region.filter (· = '-')).length ≠ 5 then .malformed
    else .label ((line.take start).drop beginMark.length)

/-- What the line that ends a section starts with. -/
def endMark (label : List Char) : List Char :=
  "-----END ".toList ++ label ++ "-----".toList

/-! ### Base64 with blanks -/

/-- A character of the alphabet. -/
def isDigit (c : Char) : Bool :=
  c.isAlphanum || c = '+' || c = '/'

/-- A blank between digits. -/
def isGap (c : Char) : Bool :=
  c = ' ' || c = '\t' || c = '\n' || c = '\r'

/-- The text is Base64, with blanks anywhere and with or without equals signs at its end. -/
def isBase64 (cs : List Char) : Bool :=
  let body := cs.filter (!isGap ·)
  let digits := (body.takeWhile isDigit).length
  let pads := body.drop digits
  pads.all (· = '=') && match pads.length with
    | 0 => digits % 4 ≠ 1
    | 1 => digits % 4 = 3
    | 2 => digits % 4 = 2
    | _ => false

/-! ### Sections -/

/-- The state of reading: the label of the open section with its text so far, and the kinds of
the sections before in reverse. -/
structure Reading where
  /-- The open section. -/
  label : Option (List Char)
  /-- The text since the last section, in reverse. -/
  body : List Char
  /-- The kinds. -/
  done : List Kind

/-- Reads a line. None when it is malformed or ends a section whose text is. -/
def Reading.next (r : Reading) (line : List Char) : Option Reading :=
  match opening line with
  | .malformed => none
  | .label l => some { r with label := some l }
  | .none => match r.label with
    | none => some r
    | some l =>
      if !(endMark l).isPrefixOf line then some { r with body := line.reverse ++ r.body }
      else match kinds.lookup (String.ofList l) with
        | none => some ⟨none, [], r.done⟩
        | some kind => if isBase64 r.body.reverse then some ⟨none, [], kind :: r.done⟩ else none

/-- The sections of a text up to its end or up to what is malformed, and whether it is
well-formed. -/
def sectionsFrom : Reading → List (List Char) → List Kind × Bool
  | r, [] => (r.done.reverse, r.label.isNone)
  | r, line :: ls => match r.next line with
    | some r => sectionsFrom r ls
    | none => (r.done.reverse, false)

/-- The kinds of the sections of a text, and whether it is well-formed. -/
def sections (text : String) : List Kind × Bool :=
  sectionsFrom ⟨none, [], []⟩ (lines text.toList)

end Licensing.Pem
