/-!
# Splitting at separators

A sequence is split at every separator, so that it has one piece more than separators, or cut at
the first.
-/

namespace Licensing.Text

variable {α : Type} [DecidableEq α]

/-- The pieces between the separators. -/
def split (sep : α) : List α → List (List α)
  | [] => [[]]
  | a :: as =>
    if a = sep then [] :: split sep as
    else match split sep as with
      | [] => [[a]]
      | piece :: pieces => (a :: piece) :: pieces

/-- What stands before the first separator and what stands behind it, if there is one. -/
def cut (sep : α) : List α → List α × Option (List α)
  | [] => ([], none)
  | a :: as =>
    if a = sep then ([], some as)
    else
      let rest := cut sep as
      (a :: rest.1, rest.2)

/-- The pieces of a text between the separators. -/
def splitText (sep : Char) (s : String) : List String :=
  (split sep s.toList).map String.ofList

end Licensing.Text
