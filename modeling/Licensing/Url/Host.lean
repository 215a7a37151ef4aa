import Licensing.Text.Percent
import Licensing.Text.Split
import Licensing.Url.Punycode

/-!
# Hosts

A host is a domain or an address. A domain is percent-decoded, in lower case, and has its labels
beyond ASCII encoded; when its last label is a number it has to be an address of four bytes, and
one in brackets is an address of eight 16-bit numbers. Both kinds of addresses are written in one
way only.

How domains beyond ASCII are mapped, and which of them there are, goes by tables of Unicode. Here
only a part of these tables is followed: the case of three scripts, the wide forms of ASCII, and a
few characters that no domain has. What must not depend on the rest of the tables is stated for
every `Url.Parser`.
-/

namespace Licensing

/-- Why a text is no URL. -/
inductive UrlError where
  /-- There is no scheme. -/
  | noScheme
  /-- The host is empty. -/
  | emptyHost
  /-- The port is no 16-bit number. -/
  | invalidPort
  /-- The host ends in a number, but is no address. -/
  | invalidIpv4
  /-- The host in brackets is no address. -/
  | invalidIpv6
  /-- The host is no domain. -/
  | invalidDomain
  /-- The host has a character that may not stand in it. -/
  | invalidHostChar
deriving DecidableEq, Inhabited

/-- The reason in words. -/
def UrlError.message : UrlError → String
  | .noScheme => "relative URL without a base"
  | .emptyHost => "empty host"
  | .invalidPort => "invalid port number"
  | .invalidIpv4 => "invalid IPv4 address"
  | .invalidIpv6 => "invalid IPv6 address"
  | .invalidDomain => "invalid international domain name"
  | .invalidHostChar => "invalid domain character"

namespace Host

/-! ### Addresses of four bytes -/

/-- The value of a digit of base sixteen. -/
def hexDigit? (c : Char) : Option Nat :=
  Percent.hexValue? (UInt8.ofNat c.toNat) |>.filter fun _ ↦ c.toNat < 128

/-- The number of digits in a base. -/
def numberIn? (radix : Nat) (cs : List Char) : Option Nat :=
  cs.foldlM (fun n c ↦ ((hexDigit? c).filter (· < radix)).map (radix * n + ·)) 0

/-- A number in decimal, or after `0x` in base sixteen, or after `0` in base eight. -/
def number? : List Char → Option Nat
  | [] => none
  | '0' :: 'x' :: cs => numberIn? 16 cs
  | '0' :: 'X' :: cs => numberIn? 16 cs
  | '0' :: c :: cs => numberIn? 8 (c :: cs)
  | cs => numberIn? 10 cs

/-- The labels of a domain without an empty one at the end. -/
def labels (domain : List Char) : List (List Char) :=
  let ls := Text.split '.' domain
  if ls.getLast? = some [] then ls.dropLast else ls

/-- The last label of a domain is a number. -/
def endsInNumber (domain : List Char) : Bool :=
  match (labels domain).getLast? with
  | some last => last ≠ [] && (last.all Char.isDigit || (number? last).isSome)
  | none => false

/-- The address of numbers: the last fills the bytes that the others leave. -/
def ipv4OfNumbers? (ns : List Nat) : Option Nat :=
  match ns.reverse with
  | [] => none
  | last :: others =>
    if 4 < ns.length || others.any (255 < ·) || Nat.pow 256 (4 - others.length) ≤ last then none
    else some <| others.reverse.zipIdx.foldl (fun n p ↦ n + p.1 * Nat.pow 256 (3 - p.2)) last

/-- The address that a domain is. -/
def ipv4? (domain : List Char) : Option Nat :=
  ((labels domain).mapM number?).bind ipv4OfNumbers?

/-- An address written as four bytes. -/
def ipv4Text (n : Nat) : String :=
  ".".intercalate ([n / 0x1000000, n / 0x10000 % 256, n / 256 % 256, n % 256].map toString)

/-! ### Addresses of eight numbers -/

/-- A number of one to four digits in base sixteen. -/
def piece? (cs : List Char) : Option Nat :=
  if cs = [] || 4 < cs.length then none else numberIn? 16 cs

/-- A byte in decimal without leading zeros. -/
def byte? (cs : List Char) : Option Nat :=
  if cs = [] || (1 < cs.length && cs.head? = some '0') then none
  else (numberIn? 10 cs).filter (· < 256)

/-- Four bytes as two numbers. -/
def bytesPiece? (cs : List Char) : Option (List Nat) :=
  match (Text.split '.' cs).mapM byte? with
  | some [a, b, c, d] => some [256 * a + b, 256 * c + d]
  | _ => none

/-- Numbers with colons between; the last two may be written as four bytes. -/
def pieces? : List (List Char) → Option (List Nat)
  | [] => some []
  | [last] => match piece? last with
    | some n => some [n]
    | none => bytesPiece? last
  | p :: ps => match piece? p, pieces? ps with
    | some n, some ns => some (n :: ns)
    | _, _ => none

/-- Numbers with colons between, or nothing at all. -/
def side? (cs : List Char) : Option (List Nat) :=
  if cs = [] then some [] else pieces? (Text.split ':' cs)

/-- What stands before and behind the first two colons in a row. -/
def cutAtGap : List Char → Option (List Char × List Char)
  | [] => none
  | ':' :: ':' :: rest => some ([], rest)
  | c :: cs => (cutAtGap cs).map fun r ↦ (c :: r.1, r.2)

/-- An address in brackets. Two colons in a row stand for the zeros that are missing. Before
them no bytes may stand. -/
def ipv6? (cs : List Char) : Option (List Nat) :=
  match cutAtGap cs with
  | none => (side? cs).filter (·.length = 8)
  | some (before, behind) =>
    if before.contains '.' then none
    else match side? before, side? behind with
      | some a, some b =>
        if a.length + b.length ≤ 7
        then some (a ++ List.replicate (8 - a.length - b.length) 0 ++ b) else none
      | _, _ => none

/-- The digits of a number in base sixteen. -/
def hexText (n : Nat) : String :=
  String.ofList (Nat.toDigits 16 n)

/-- The length of the run of zeros at the start. -/
def zeroRun (ns : List Nat) : Nat :=
  (ns.takeWhile (· = 0)).length

/-- The first of the longest runs of zeros: where it starts and how long it is. -/
def longestRun (ns : List Nat) : Nat × Nat :=
  (List.range ns.length).foldl (fun best i ↦
    let run := zeroRun (ns.drop i)
    if best.2 < run then (i, run) else best) (0, 0)

/-- An address with two colons for the longest run of zeros. -/
def ipv6Text (ns : List Nat) : String :=
  let (start, run) := longestRun ns
  let part (l : List Nat) := ":".intercalate (l.map hexText)
  let body := if run < 2 then part ns
    else part (ns.take start) ++ "::" ++ part (ns.drop (start + run))
  "[" ++ body ++ "]"

/-! ### Domains -/

/-- A character that may not stand in a domain. -/
def isForbidden (c : Char) : Bool :=
  let n := c.toNat
  n ≤ 0x20 || n = 0x7F || c = '%' || c = '#' || c = '/' || c = ':' || c = '<' || c = '>' || c = '?'
    || c = '@' || c = '[' || n = 0x5C || c = ']' || c = '^' || c = '|'

/-- What marks an encoded label. -/
def encodedMark : List Char := ['x', 'n', '-', '-']

/-- A character in lower case, for the Latin, Greek and Cyrillic scripts; wide forms of ASCII
and the ideographic full stop become the ASCII characters they stand for. Characters beyond these
ranges are left as they are. -/
def foldChar (c : Char) : Char :=
  let n := c.toNat
  if n < 0x80 then c.toLower
  else if 0xC0 ≤ n ∧ n ≤ 0xDE ∧ n ≠ 0xD7 then Char.ofNat (n + 0x20)
  else if 0x391 ≤ n ∧ n ≤ 0x3A9 then Char.ofNat (n + 0x20)
  else if 0x410 ≤ n ∧ n ≤ 0x42F then Char.ofNat (n + 0x20)
  else if 0x400 ≤ n ∧ n ≤ 0x40F then Char.ofNat (n + 0x50)
  else if 0xFF01 ≤ n ∧ n ≤ 0xFF5E then (Char.ofNat (n - 0xFEE0)).toLower
  else if n = 0x3002 then '.'
  else c

/-- A character that does not show: the soft hyphen, the space of no width, the word joiner and
the byte order mark. A domain has none of them. -/
def isInvisible (c : Char) : Bool :=
  let n := c.toNat
  n = 0xAD || n = 0x200B || n = 0x2060 || n = 0xFEFF

/-- A character that may stand in a label once that is decoded. -/
def isSettled (c : Char) : Bool :=
  foldChar c = c && !isInvisible c && !(0x80 ≤ c.toNat && c.toNat < 0xA0)

/-- A label of a domain in ASCII. An encoded label has to be the code of its characters. -/
def asciiLabel? (label : List Char) : Option (List Char) :=
  if !label.all (·.toNat < 128) then
    if label.all isSettled then some (encodedMark ++ Punycode.encode label) else none
  else if !encodedMark.isPrefixOf label then some label
  else match Punycode.decode? (label.drop 4) with
    | some decoded =>
      if decoded.any (128 ≤ ·.toNat) && decoded.all isSettled
          && Punycode.encode decoded = label.drop 4
      then some label else none
    | none => none

/-- A domain in ASCII, as far as it needs only the part of the tables that is followed here. -/
def asciiDomain? (cs : List Char) : Option (List Char) :=
  let lower := (cs.filter (!isInvisible ·)).map foldChar
  if lower.any isForbidden then none
  else ((Text.split '.' lower).mapM asciiLabel?).map (List.intercalate ['.'])

/-- The host of a URL whose scheme demands one. -/
def parse (cs : List Char) : Except UrlError String :=
  match cs with
  | '[' :: rest =>
    if rest.getLast? ≠ some ']' then .error .invalidIpv6
    else match ipv6? rest.dropLast with
      | some ns => .ok (ipv6Text ns)
      | none => .error .invalidIpv6
  | _ =>
    match (Utf8.decode (Percent.decode (Utf8.encode cs))).bind asciiDomain? with
    | none => .error .invalidDomain
    | some [] => .error .emptyHost
    | some domain =>
      if endsInNumber domain then match ipv4? domain with
        | some n => .ok (ipv4Text n)
        | none => .error .invalidIpv4
      else .ok (String.ofList domain)

/-- A byte that is escaped in every part of a URL: a control character, or one beyond ASCII. -/
def isControl (b : UInt8) : Bool :=
  b.toNat < 0x20 || 0x7E < b.toNat

/-- A character that may not stand in a host of another scheme, where the percent sign may. -/
def isForbiddenOpaque (c : Char) : Bool :=
  isForbidden c && c ≠ '%' && (c.toNat = 0 || c.toNat = 9 || c.toNat = 10 || c.toNat = 13
    || 0x20 ≤ c.toNat) && c.toNat ≠ 0x7F

/-- The host of a URL of another scheme, which may be empty. -/
def parseOpaque (cs : List Char) : Except UrlError String :=
  match cs with
  | '[' :: _ => parse cs
  | _ =>
    if cs.any isForbiddenOpaque then .error .invalidHostChar
    else .ok (String.ofList (Percent.encode isControl cs))

end Host

end Licensing
