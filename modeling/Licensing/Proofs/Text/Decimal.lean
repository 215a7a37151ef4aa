import Licensing.Text.Blank
import Licensing.Text.Decimal

/-!
# Numbers are told by their digits

Different natural numbers are written differently (`toString_inj`), and a number that was written is
read again (`readInt?_toString`), also where blanks around it would be dropped (`trim_toString`).
A natural number is read from nothing but digits, with or without a plus sign in front of them
(`readNat?_eq_some_iff`).
-/

namespace Licensing.Decimal

variable {n : Nat} {c : Char} {cs : List Char}

theorem toString_inj {m n : Nat} : toString m = toString n ↔ m = n := by
  refine ⟨fun h ↦ ?_, congrArg toString⟩
  have hrepr : m.repr = n.repr := h
  have hdigits : Nat.toDigits 10 m = Nat.toDigits 10 n := by
    rw [← Nat.toList_repr, ← Nat.toList_repr, hrepr]
  simpa using congrArg (Nat.ofDigitChars 10 · 0) hdigits

/-! ### Reading what was written -/

theorem toList_toString (n : Nat) : (toString n).toList = Nat.toDigits 10 n :=
  Nat.toList_repr

/-- A number is written with digits. -/
theorem isDigit_of_mem_toString (h : c ∈ (toString n).toList) : c.isDigit = true := by
  rw [toList_toString] at h
  exact Nat.isDigit_of_mem_toDigits (by decide) (by decide) h

theorem digit?_of_isDigit (h : c.isDigit = true) : digit? c = some (c.toNat - 48) := by
  rw [Char.isDigit, Bool.and_eq_true, decide_eq_true_eq, decide_eq_true_eq] at h
  exact if_pos h

theorem digitsFrom_eq_some (h : ∀ c ∈ cs, c.isDigit = true) (acc : Nat) :
    digitsFrom acc cs = some (Nat.ofDigitChars 10 cs acc) := by
  induction cs generalizing acc with
  | nil => rfl
  | cons c cs ih =>
    rw [digitsFrom, digit?_of_isDigit (h c List.mem_cons_self), Nat.ofDigitChars_cons,
      Nat.mul_comm 10 acc]
    exact ih (fun c hc ↦ h c (List.mem_cons_of_mem _ hc)) _

theorem isDigit_of_digit? {d : Nat} (h : digit? c = some d) : c.isDigit = true := by
  rw [digit?] at h
  split at h
  · rename_i hrange
    rw [Char.isDigit, Bool.and_eq_true, decide_eq_true_eq, decide_eq_true_eq]
    exact hrange
  · cases h

/-- Digits have a value, and nothing else has. -/
theorem digitsFrom_eq_some_iff {acc : Nat} : digitsFrom acc cs = some n ↔
    (∀ c ∈ cs, c.isDigit = true) ∧ Nat.ofDigitChars 10 cs acc = n := by
  constructor
  · intro h
    have hdigits : ∀ c ∈ cs, c.isDigit = true := by
      induction cs generalizing acc with
      | nil => simp
      | cons c cs ih =>
        rw [digitsFrom] at h
        split at h
        · exact List.forall_mem_cons.2 ⟨isDigit_of_digit? ‹_›, ih h⟩
        · cases h
    rw [digitsFrom_eq_some hdigits] at h
    exact ⟨hdigits, Option.some.inj h⟩
  · rintro ⟨hdigits, rfl⟩
    exact digitsFrom_eq_some hdigits acc

theorem digits?_eq_some_iff : digits? cs = some n ↔
    cs ≠ [] ∧ (∀ c ∈ cs, c.isDigit = true) ∧ Nat.ofDigitChars 10 cs 0 = n := by
  cases cs with
  | nil => simp [digits?]
  | cons c cs =>
    show digitsFrom 0 (c :: cs) = some n ↔ _
    rw [digitsFrom_eq_some_iff, and_iff_right (List.cons_ne_nil c cs)]

/-- A text says a natural number: it has one or more digits, and there may be a plus sign in front
of them. -/
def IsNumeral (text : String) (n : Nat) : Prop :=
  ∃ ds, (text.toList = ds ∨ text.toList = '+' :: ds) ∧ ds ≠ [] ∧
    (∀ c ∈ ds, c.isDigit = true) ∧ Nat.ofDigitChars 10 ds 0 = n

/-- **The numbers that are read are those that a text says**, if they are not too great. -/
theorem readNat?_eq_some_iff {most : Nat} {text : String} :
    readNat? most text = some n ↔ IsNumeral text n ∧ n ≤ most := by
  rw [readNat?, Option.filter_eq_some_iff, decide_eq_true_eq]
  refine and_congr_left' ?_
  split
  · rename_i ds hds
    rw [digits?_eq_some_iff]
    constructor
    · exact fun h ↦ ⟨ds, .inr hds, h⟩
    · rintro ⟨ds', heq | heq, h⟩
      · -- A plus sign is no digit.
        rw [hds] at heq
        subst heq
        exact absurd (h.2.1 '+' List.mem_cons_self) (by decide)
      · rw [hds] at heq
        rwa [(List.cons.inj heq).2]
  · rename_i hplus
    rw [digits?_eq_some_iff]
    constructor
    · exact fun h ↦ ⟨text.toList, .inl rfl, h⟩
    · rintro ⟨ds, rfl | heq, h⟩
      · exact h
      · exact absurd heq (hplus ds)

instance (text : String) (n : Nat) : Decidable (IsNumeral text n) :=
  decidable_of_iff (readNat? n text = some n) <| by
    rw [readNat?_eq_some_iff]
    exact and_iff_left (Nat.le_refl n)

theorem digits?_toString (n : Nat) : digits? (toString n).toList = some n := by
  have hdigits := digitsFrom_eq_some (fun _ ↦ isDigit_of_mem_toString (n := n)) 0
  rw [toList_toString, Nat.ofDigitChars_toDigits (by decide) (by decide)] at hdigits
  rw [toList_toString]
  cases hcs : Nat.toDigits 10 n with
  | nil => exact absurd hcs Nat.toDigits_ne_nil
  | cons c cs => rwa [hcs] at hdigits

/-- A number that was written is read if it is within the bounds. -/
theorem readInt?_toString_eq (n : Nat) : readInt? (toString n) =
    (some (n : Int)).filter fun n ↦ minI64 ≤ n ∧ n ≤ maxI64 := by
  have hdigits := digits?_toString n
  rw [readInt?]
  -- The first character is no sign.
  split
  · rename_i rest hcs
    exact absurd (isDigit_of_mem_toString (n := n) (by rw [hcs]; exact List.mem_cons_self))
      (by decide)
  · rename_i rest hcs
    exact absurd (isDigit_of_mem_toString (n := n) (by rw [hcs]; exact List.mem_cons_self))
      (by decide)
  · rw [hdigits]
    rfl

/-- **A number that was written is read again**, if it is not too great. -/
theorem readInt?_toString (h : (n : Int) ≤ maxI64) : readInt? (toString n) = some (n : Int) := by
  have hmin : minI64 ≤ (n : Int) := Int.le_trans (by decide) (Int.natCast_nonneg n)
  rw [readInt?_toString_eq]
  exact Option.filter_some_pos (a := (n : Int)) (by simp [hmin, h])

/-- A number that is too great is none. -/
theorem readInt?_toString_of_lt (h : maxI64 < (n : Int)) : readInt? (toString n) = none := by
  rw [readInt?_toString_eq]
  exact Option.filter_some_neg (a := (n : Int)) (by simp [Int.not_le.2 h])

/-- A number that is read is within the bounds. -/
theorem le_of_readInt? {s : String} {n : Int} (h : readInt? s = some n) : n ≤ maxI64 := by
  obtain ⟨-, hbounds⟩ := Option.filter_eq_some_iff.1 h
  exact (of_decide_eq_true hbounds).2

/-- No blank is in a number. -/
theorem trim_toString (n : Nat) : Text.trim (toString n) = toString n := by
  refine Text.trim_eq_self fun c hc ↦ ?_
  have hdigit := isDigit_of_mem_toString hc
  rw [Char.isDigit, Bool.and_eq_true, decide_eq_true_eq, decide_eq_true_eq] at hdigit
  obtain ⟨hlow, hhigh⟩ := hdigit
  have hlow : 48 ≤ c.toNat := hlow
  have hhigh : c.toNat ≤ 57 := hhigh
  rw [← Bool.not_eq_true, Text.isBlankChar, List.any_eq_true]
  rintro ⟨r, hr, hin⟩
  rw [Bool.and_eq_true, decide_eq_true_eq, decide_eq_true_eq] at hin
  -- No range of blanks meets that of the digits.
  have hapart : ∀ r ∈ Text.blankRanges, r.2 < 48 ∨ 57 < r.1 := by decide
  rcases hapart r hr with h | h <;> omega

end Licensing.Decimal
