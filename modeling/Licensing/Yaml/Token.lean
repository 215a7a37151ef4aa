/-!
# Tokens of a YAML stream
-/

namespace Licensing.Yaml

/-- How the text of a scalar was written. -/
inductive Style where
  | plain
  | quoted
  | literal
  | folded
deriving DecidableEq, Inhabited

/-- A token. The blocks that indentation makes have tokens for their start and their end. -/
inductive Token where
  | streamEnd
  | version (major minor : Nat)
  | tagHandle (handle leading : String)
  | documentStart
  | documentEnd
  | blockListStart
  | blockMappingStart
  | blockEnd
  | flowListStart
  | flowListEnd
  | flowMappingStart
  | flowMappingEnd
  | blockEntry
  | flowEntry
  | key
  | value
  | reference (anchor : String)
  | anchor (name : String)
  | tag (handle suffix : String)
  | scalar (text : String) (style : Style)
deriving DecidableEq, Inhabited

end Licensing.Yaml
