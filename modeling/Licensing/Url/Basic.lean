import Licensing.Form
import Licensing.Url.Host

/-!
# URLs

A URL has a scheme, perhaps an authority, a path, and perhaps a query and a fragment. The path of
a URL with an authority is a list of segments, the last of which is empty when the path ends in a
slash. Everything is kept as it is written, so that it is escaped already.
-/

namespace Licensing

/-- Where the host of a URL is, and who asks there. -/
structure Authority where
  /-- The login. -/
  username : String
  /-- The password. -/
  password : String
  /-- The host. -/
  host : String
  /-- The port, unless it is the one of the scheme. -/
  port : Option Nat
deriving DecidableEq, Inhabited

/-- The path of a URL. -/
inductive UrlPath where
  /-- A path that is one text, after a scheme without slashes. -/
  | whole (text : String)
  /-- A path of segments. -/
  | segments (ss : List String)
deriving DecidableEq, Inhabited

/-- A URL. -/
structure Url where
  /-- The scheme, in lower case. -/
  scheme : String
  /-- The authority. -/
  authority : Option Authority
  /-- The path. -/
  path : UrlPath
  /-- The query. -/
  query : Option String
  /-- The fragment. -/
  fragment : Option String
deriving DecidableEq, Inhabited

namespace Url

/-- The schemes that always have a host, with their ports. -/
def specialPorts : List (String × Nat) :=
  [("http", 80), ("https", 443), ("ws", 80), ("wss", 443), ("ftp", 21)]

/-- A scheme always has a host, or is the one for files. -/
def isSpecialScheme (scheme : String) : Bool :=
  (specialPorts.lookup scheme).isSome || scheme = "file"

/-- The URL has a special scheme. -/
def isSpecial (u : Url) : Bool :=
  isSpecialScheme u.scheme

/-- No segments can be put behind the path. -/
def isOpaque (u : Url) : Bool :=
  match u.path with
  | .whole _ => true
  | .segments _ => false

/-! ### Writing -/

/-- The authority as it is written. -/
def authorityText (a : Authority) : String :=
  let userinfo :=
    if a.username = "" && a.password = "" then ""
    else a.username ++ (if a.password = "" then "" else ":" ++ a.password) ++ "@"
  let port := match a.port with
    | some n => ":" ++ toString n
    | none => ""
  "//" ++ userinfo ++ a.host ++ port

/-- The path as it is written. Without an authority it may not start with two slashes. -/
def pathText (u : Url) : String :=
  match u.path with
  | .whole text => text
  | .segments ss =>
    let text := String.join (ss.map ("/" ++ ·))
    if u.authority.isNone && ss.head? = some "" && 1 < ss.length then "/." ++ text else text

/-- The URL as it is written. -/
def text (u : Url) : String :=
  let part (mark : String) (s : Option String) := (s.map (mark ++ ·)).getD ""
  u.scheme ++ ":" ++ (u.authority.map authorityText).getD "" ++ u.pathText ++ part "?" u.query
    ++ part "#" u.fragment

/-- The URL without the login and the password. -/
def withoutLogin (u : Url) : Url :=
  { u with authority := u.authority.map fun a ↦ { a with username := "", password := "" } }

/-! ### Segments -/

/-- A byte that is escaped in a fragment. -/
def escapedInFragment (b : UInt8) : Bool :=
  let n := b.toNat
  Host.isControl b || n = 0x20 || n = 0x22 || n = 0x3C || n = 0x3E || n = 0x60

/-- A byte that is escaped in a path. -/
def escapedInPath (b : UInt8) : Bool :=
  let n := b.toNat
  escapedInFragment b || n = 0x23 || n = 0x3F || n = 0x7B || n = 0x7D

/-- A byte that is escaped in a segment that is put behind a path. -/
def escapedInSegment (special : Bool) (b : UInt8) : Bool :=
  let n := b.toNat
  escapedInPath b || n = 0x2F || n = 0x25 || (special && n = 0x5C)

/-- A tab or a line break, which URLs drop. -/
def isDropped (c : Char) : Bool :=
  c.toNat = 9 || c.toNat = 10 || c.toNat = 13

/-- A segment that stands for the one it is in. -/
def oneDot : List Char := ['.']

/-- A segment that stands for the one before. -/
def twoDots : List Char := ['.', '.']

/-- Segments with one more. The empty segment of a path that is only a slash gives way. -/
def putBehind (ss : List String) (s : String) : List String :=
  if ss = [""] then [s] else ss ++ [s]

/-- Segments with a text put behind them as one segment. Dots that stand for another segment
are left out. -/
def pushSegment (special : Bool) (ss : List String) (text : String) : List String :=
  if text.toList = oneDot || text.toList = twoDots then ss
  else
    let cs := text.toList.filter (!isDropped ·)
    if cs = oneDot then putBehind ss ""
    else if cs = twoDots then
      let shorter := if ss = [""] then [] else ss.dropLast
      shorter ++ [""]
    else putBehind ss (String.ofList (Percent.encode (escapedInSegment special) cs))

/-- Segments without an empty one at the end, unless it is the only one. -/
def dropEmptyEnd (ss : List String) : List String :=
  if 1 < ss.length && ss.getLast? = some "" then ss.dropLast else ss

/-- The URL with texts put behind its path, each as one segment, in place of an empty one at
the end. -/
def extendPath (u : Url) (texts : List String) : Url :=
  match u.path with
  | .whole _ => u
  | .segments ss =>
    { u with path := .segments (texts.foldl (pushSegment u.isSpecial) (dropEmptyEnd ss)) }

/-! ### Queries -/

/-- The URL with pairs put behind its query. -/
def extendQuery (u : Url) (pairs : List (String × String)) : Url :=
  if pairs.isEmpty then u
  else
    let added := Form.encode pairs
    let query := match u.query with
      | some q => if q = "" then added else q ++ "&" ++ added
      | none => added
    { u with query := some query }

end Url

end Licensing
