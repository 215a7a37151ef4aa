/-!
# Search expressions of the accounts system

Collections of the accounts system are searched by an expression of comparisons joined by `AND`.
Values stand in single quotes as they are, so a value may hold no single quote.
-/

namespace Licensing

/-- A search expression as it is built. -/
structure Search where
  /-- The expression. -/
  text : String
deriving DecidableEq, Inhabited

namespace Search

/-- The empty expression. -/
def empty : Search := ⟨""⟩

/-- A value in single quotes. -/
def quoted (value : String) : String :=
  "'" ++ value ++ "'"

/-- A field that matches a pattern. -/
def like (s : Search) (field value : String) : Search :=
  ⟨s.text ++ field ++ " LIKE " ++ quoted value⟩

/-- A field that has a value. -/
def equals (s : Search) (field value : String) : Search :=
  ⟨s.text ++ field ++ " = " ++ quoted value⟩

/-- A field that has one of several values. -/
def oneOf (s : Search) (field : String) (values : List String) : Search :=
  ⟨s.text ++ field ++ " IN (" ++ ",".intercalate (values.map quoted) ++ ")"⟩

/-- Joins what follows. -/
def and (s : Search) : Search :=
  ⟨s.text ++ " AND "⟩

end Search

end Licensing
