/-!
# Blank characters and trimming

The characters that count as blank are those of the Unicode property `White_Space`, listed
here as ranges of code points. Trimming drops them from both ends of a text and from nowhere
else.
-/

namespace Licensing.Text

/-- The ranges of the property `White_Space`, first and last code point, in ascending order. -/
def blankRanges : List (Nat × Nat) :=
  [(0x09, 0x0D), (0x20, 0x20), (0x85, 0x85), (0xA0, 0xA0), (0x1680, 0x1680),
    (0x2000, 0x200A), (0x2028, 0x2029), (0x202F, 0x202F), (0x205F, 0x205F), (0x3000, 0x3000)]

/-- A character is blank when one of the ranges holds it. -/
def isBlankChar (c : Char) : Bool :=
  blankRanges.any fun r ↦ r.1 ≤ c.toNat && c.toNat ≤ r.2

/-- The characters without the blank ones they start with. -/
def trimStartChars (cs : List Char) : List Char :=
  cs.dropWhile isBlankChar

/-- The characters without the blank ones they end with. -/
def trimEndChars (cs : List Char) : List Char :=
  (cs.reverse.dropWhile isBlankChar).reverse

/-- The characters without the blank ones at either end. -/
def trimChars (cs : List Char) : List Char :=
  trimEndChars (trimStartChars cs)

/-- A text without the blank characters at either end. -/
def trim (s : String) : String :=
  String.ofList (trimChars s.toList)

/-- A text is blank when every character in it is. -/
def isBlank (s : String) : Bool :=
  s.toList.all isBlankChar

/-! ### Small facts -/

@[simp]
theorem trimChars_nil : trimChars [] = [] :=
  rfl

theorem trimStartChars_eq_nil_iff {cs : List Char} :
    trimStartChars cs = [] ↔ cs.all isBlankChar = true := by
  induction cs with
  | nil => simp [trimStartChars]
  | cons c cs ih =>
    by_cases h : isBlankChar c
    · rw [trimStartChars, List.dropWhile_cons_of_pos h, List.all_cons, h, Bool.true_and]
      exact ih
    · simp [trimStartChars, h]

theorem trimEndChars_eq_nil_iff {cs : List Char} :
    trimEndChars cs = [] ↔ cs.all isBlankChar = true := by
  rw [trimEndChars, List.reverse_eq_nil_iff]
  exact trimStartChars_eq_nil_iff.trans (by rw [List.all_reverse])

theorem trimChars_eq_nil_iff {cs : List Char} :
    trimChars cs = [] ↔ cs.all isBlankChar = true := by
  rw [trimChars, trimEndChars_eq_nil_iff]
  induction cs with
  | nil => rfl
  | cons c cs ih =>
    by_cases h : isBlankChar c
    · rw [trimStartChars, List.dropWhile_cons_of_pos h, List.all_cons, h, Bool.true_and]
      exact ih
    · simp [trimStartChars, h]

/-- Nothing is left of a text exactly when it is blank. -/
theorem trim_eq_empty_iff {s : String} : trim s = "" ↔ isBlank s = true := by
  rw [trim, isBlank, ← trimChars_eq_nil_iff]
  exact ⟨fun h ↦ by simpa using congrArg String.toList h, fun h ↦ by rw [h]⟩

/-- A text that holds no blank character stays as it is. -/
theorem trim_eq_self {s : String} (h : ∀ c ∈ s.toList, isBlankChar c = false) : trim s = s := by
  have hdrop : ∀ cs : List Char, (∀ c ∈ cs, isBlankChar c = false) →
      cs.dropWhile isBlankChar = cs := by
    intro cs hcs
    cases cs with
    | nil => rfl
    | cons c cs => exact List.dropWhile_cons_of_neg (by simp [hcs c List.mem_cons_self])
  rw [trim, trimChars, trimStartChars, hdrop _ h, trimEndChars, hdrop _ (by simpa using h),
    List.reverse_reverse, String.ofList_toList]

end Licensing.Text
