import Licensing.Url.Basic

/-!
# Reading URLs

Blanks and control characters around a URL are dropped, and so are tabs and line breaks within
it. What the parts may hold is escaped where it may not stand for itself; segments of dots are
resolved.
-/

namespace Licensing.Url

/-- A reader of URLs. The one here is `parse`, which knows international domains only in part. -/
abbrev Parser := String → Except UrlError Url

/-! ### Parts -/

/-- A blank or a control character, which is dropped from the ends. -/
def isEndBlank (c : Char) : Bool :=
  c.toNat ≤ 0x20

/-- The characters that are read. -/
def cleaned (s : String) : List Char :=
  let front := s.toList.dropWhile isEndBlank
  ((front.reverse.dropWhile isEndBlank).reverse).filter (!isDropped ·)

/-- A character of a scheme. -/
def isSchemeChar (c : Char) : Bool :=
  c.isAlphanum || c = '+' || c = '-' || c = '.'

/-- The scheme, in lower case, and what stands behind its colon. -/
def readScheme? (cs : List Char) : Option (String × List Char) :=
  let name := cs.takeWhile isSchemeChar
  match name, cs.drop name.length with
  | first :: _, ':' :: rest =>
    if first.isAlpha then some (String.ofList (name.map Char.toLower), rest) else none
  | _, _ => none

/-- A character that ends an authority. -/
def endsAuthority (special : Bool) (c : Char) : Bool :=
  c = '/' || c = '?' || c = '#' || (special && c.toNat = 0x5C)

/-- A byte that is escaped in a login. -/
def escapedInLogin (b : UInt8) : Bool :=
  let n := b.toNat
  escapedInPath b || n = 0x2F || n = 0x3A || n = 0x3B || n = 0x3D || n = 0x40
    || (0x5B ≤ n && n ≤ 0x5E) || n = 0x7C

/-- A byte that is escaped in a query. -/
def escapedInQuery (special : Bool) (b : UInt8) : Bool :=
  let n := b.toNat
  Host.isControl b || n = 0x20 || n = 0x22 || n = 0x23 || n = 0x3C || n = 0x3E
    || (special && n = 0x27)

/-- The login and the password in front of the last `@`. -/
def readLogin (cs : List Char) : String × String :=
  let (name, password) := Text.cut ':' cs
  let escape (l : List Char) := String.ofList (Percent.encode escapedInLogin l)
  (escape name, escape (password.getD []))

/-- A port, none when it is the one of the scheme or is left out. -/
def readPort (scheme : String) (cs : List Char) : Except UrlError (Option Nat) :=
  if !cs.all Char.isDigit then .error .invalidPort
  else
    let n := cs.foldl (fun n c ↦ 10 * n + (c.toNat - 48)) 0
    if 65535 < n then .error .invalidPort
    else if cs = [] || specialPorts.lookup scheme = some n then .ok none
    else .ok (some n)

/-- The host and what stands behind the colon after it. A colon in brackets is no end. -/
def cutHost : Bool → List Char → List Char × Option (List Char)
  | _, [] => ([], none)
  | inside, c :: cs =>
    if c = ':' && !inside then ([], some cs)
    else
      let inside := if c = '[' then true else if c = ']' then false else inside
      let r := cutHost inside cs
      (c :: r.1, r.2)

/-- The authority in front of the path. -/
def readAuthority (scheme : String) (cs : List Char) : Except UrlError Authority :=
  let special := isSpecialScheme scheme
  let behind := (cs.reverse.takeWhile (· ≠ '@')).reverse
  let hasLogin := behind.length < cs.length
  let login := if hasLogin then cs.take (cs.length - behind.length - 1) else []
  let (username, password) := readLogin login
  let (hostChars, portChars) := cutHost false behind
  if special && hostChars = [] then .error .emptyHost
  else if hasLogin && behind = [] then .error .emptyHost
  else do
    let host ← if special then Host.parse hostChars else Host.parseOpaque hostChars
    if host = "" && (portChars.isSome || username ≠ "" || password ≠ "") then .error .emptyHost
    let port ← readPort scheme (portChars.getD [])
    return ⟨username, password, host, port⟩

/-! ### Paths -/

/-- Splits a path at its slashes. -/
def splitPath (special : Bool) : List Char → List (List Char)
  | [] => [[]]
  | c :: cs =>
    if c = '/' || (special && c.toNat = 0x5C) then [] :: splitPath special cs
    else match splitPath special cs with
      | [] => [[c]]
      | s :: ss => (c :: s) :: ss

/-- An escaped dot becomes a dot; only for comparing segments. -/
def undot : List Char → List Char
  | '%' :: '2' :: 'e' :: cs => '.' :: undot cs
  | '%' :: '2' :: 'E' :: cs => '.' :: undot cs
  | c :: cs => c :: undot cs
  | [] => []

/-- Resolves segments, the ones before in reverse. A dot segment at the end leaves an empty
one. -/
def resolve : List String → List (List Char) → List String
  | acc, [] => acc.reverse
  | acc, s :: ss =>
    let dots := undot s
    if dots = twoDots then
      let acc := acc.drop 1
      resolve (if ss = [] then "" :: acc else acc) ss
    else if dots = oneDot then resolve (if ss = [] then "" :: acc else acc) ss
    else resolve (String.ofList (Percent.encode escapedInPath s) :: acc) ss

/-- The path that starts with a slash, or is empty. -/
def readPath (special : Bool) (cs : List Char) : UrlPath :=
  match cs with
  | [] => .segments (if special then [""] else [])
  | c :: rest =>
    let body := if c = '/' || (special && c.toNat = 0x5C) then rest else cs
    .segments (resolve [] (splitPath special body))

/-! ### URLs -/

/-- What stands before a character of a kind, and the rest. -/
def upTo (stop : Char → Bool) (cs : List Char) : List Char × List Char :=
  cs.span (!stop ·)

/-- The query and the fragment. -/
def readTail (special : Bool) (cs : List Char) : Option String × Option String :=
  let (front, fragment) := Text.cut '#' cs
  let query := match front with
    | '?' :: q => some (String.ofList (Percent.encode (escapedInQuery special) q))
    | _ => none
  (query, fragment.map fun f ↦ String.ofList (Percent.encode escapedInFragment f))

/-- A URL with an authority, which starts here. -/
def readWithAuthority (scheme : String) (cs : List Char) : Except UrlError Url := do
  let special := isSpecialScheme scheme
  let (front, rest) := upTo (endsAuthority special) cs
  let authority ← readAuthority scheme front
  let (path, tail) := upTo (fun c ↦ c = '?' || c = '#') rest
  let (query, fragment) := readTail special tail
  return ⟨scheme, some authority, readPath special path, query, fragment⟩

/-- A URL without an authority. -/
def readWithoutAuthority (scheme : String) (cs : List Char) : Url :=
  let (path, tail) := upTo (fun c ↦ c = '?' || c = '#') cs
  let (query, fragment) := readTail false tail
  let path := match path with
    | '/' :: _ => readPath false path
    | _ => .whole (String.ofList (Percent.encode Host.isControl path))
  ⟨scheme, none, path, query, fragment⟩

/-- A URL of a file, whose host is empty unless two slashes stand in front of it. -/
def readFile (cs : List Char) : Except UrlError Url := do
  let isSlash := fun (c : Char) ↦ c = '/' || c.toNat = 0x5C
  let rest (host : String) (cs : List Char) : Url :=
    let (path, tail) := upTo (fun c ↦ c = '?' || c = '#') cs
    let (query, fragment) := readTail true tail
    ⟨"file", some ⟨"", "", host, none⟩, readPath true path, query, fragment⟩
  match cs with
  | a :: b :: cs =>
    if isSlash a && isSlash b then
      let (front, behind) := upTo (endsAuthority true) cs
      let host ← if front = [] then .ok "" else Host.parse front
      return rest (if host = "localhost" then "" else host) behind
    else return rest "" (a :: b :: cs)
  | cs => return rest "" cs

/-- The URL that a text is. -/
def parse (s : String) : Except UrlError Url :=
  match readScheme? (cleaned s) with
  | none => .error .noScheme
  | some (scheme, rest) =>
    if scheme = "file" then readFile rest
    else if isSpecialScheme scheme then
      readWithAuthority scheme (rest.dropWhile fun c ↦ c = '/' || c.toNat = 0x5C)
    else match rest with
      | '/' :: '/' :: rest => readWithAuthority scheme rest
      | _ => .ok (readWithoutAuthority scheme rest)

end Licensing.Url
