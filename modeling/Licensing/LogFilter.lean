import Licensing.Text.Blank
import Licensing.Text.Decimal
import Licensing.Text.Split

/-!
# Log filters

What is logged is set by a list of directives with commas between: a level for everything, or a
target or a span in brackets with a level for it. A span may have fields in braces. Only whether
a filter makes sense is told here.
-/

namespace Licensing.LogFilter

/-- The names of levels. -/
def levels : List String :=
  ["off", "error", "warn", "info", "debug", "trace"]

/-- A text names a level; the case does not matter. A number up to five stands for a level too,
and so does nothing. -/
def isLevel (cs : List Char) : Bool :=
  cs = [] || levels.contains (String.ofList (cs.map Char.toLower))
    || (Decimal.readNat? 5 (String.ofList cs)).isSome

/-- What is wrong with a filter. -/
inductive Flaw where
  /-- A directive is malformed. -/
  | directive
  /-- A level is unknown. -/
  | level
deriving DecidableEq, Inhabited

/-- The flaw in words. -/
def Flaw.message : Flaw → String
  | .directive => "invalid filter directive"
  | .level => "error parsing level filter: expected one of \"off\", \"error\", \"warn\", "
      ++ "\"info\", \"debug\", \"trace\", or a number 0-5"

/-- A character that a target may start with. -/
def startsTarget (c : Char) : Bool :=
  c = '-' || c = ':' || c = '_' || c.isAlphanum || 128 ≤ c.toNat

/-- What is wrong behind an equals sign. -/
def levelFlaw? (cs : List Char) : Option Flaw :=
  if isLevel cs then none else some .level

/-- What is wrong behind a span. -/
def behindSpan? : List Char → Option Flaw
  | [] => none
  | '=' :: cs => levelFlaw? cs
  | _ => some .directive

/-- What is wrong within a span, behind its opening bracket. -/
def spanFlaw? : List Char → Option Flaw
  | [] => some .directive
  | ']' :: cs => behindSpan? cs
  | c :: cs =>
    if c.toNat = 0x7B then
      let field := cs.takeWhile (·.toNat ≠ 0x7D)
      match cs.drop field.length with
      | _ :: ']' :: rest => if field = [] then some .directive else behindSpan? rest
      | _ => some .directive
    else spanFlaw? cs

/-- What is wrong with a target. -/
def targetFlaw? : List Char → Option Flaw
  | [] => none
  | '=' :: cs => levelFlaw? cs
  | '[' :: cs => spanFlaw? cs
  | _ :: cs => targetFlaw? cs

/-- What is wrong with a directive. -/
def directiveFlaw? (cs : List Char) : Option Flaw :=
  match cs with
  | [] => none
  | '[' :: rest => spanFlaw? rest
  | c :: rest => if startsTarget c then targetFlaw? rest else some .directive

/-- What is wrong with a filter. -/
def flaw? (filter : String) : Option Flaw :=
  (Text.split ',' filter.toList).findSome? fun d ↦ directiveFlaw? (Text.trimChars d)

/-- The filter that a variable states, or the one for normal or for more logging. -/
def choose (variable_ : Option String) (debug : Bool) : String :=
  match (variable_.map Text.trim).filter (· ≠ "") with
  | some filter => filter
  | none => if debug then "debug" else "info"

end Licensing.LogFilter
