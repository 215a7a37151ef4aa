import Licensing.Text.Split

/-!
# Splitting what was joined

A piece without separators that stands in front of a separator is the first piece, and is what is
cut off. What is joined by a separator has the pieces of its parts (`split_append_cons`), whether or
not there are separators in these, and no piece has one (`not_mem_of_mem_split`).
-/

namespace Licensing.Text

variable {α : Type} [DecidableEq α] {sep : α} {p as : List α}

theorem split_of_not_mem (h : sep ∉ p) : split sep p = [p] := by
  induction p with
  | nil => rfl
  | cons a p ih =>
    obtain ⟨ha, hp⟩ := not_or.1 fun hor ↦ h (List.mem_cons.2 hor)
    rw [split, if_neg fun heq ↦ ha heq.symm, ih hp]

theorem split_ne_nil (sep : α) (as : List α) : split sep as ≠ [] := by
  cases as with
  | nil => simp [split]
  | cons a as =>
    rw [split]
    split
    · simp
    · split <;> simp

/-- What is joined by a separator has the pieces of both parts. -/
theorem split_append_cons (sep : α) (as bs : List α) :
    split sep (as ++ sep :: bs) = split sep as ++ split sep bs := by
  induction as with
  | nil => simp [split]
  | cons a as ih =>
    rw [List.cons_append, split, split, ih]
    split
    · rfl
    · cases has : split sep as with
      | nil => exact absurd has (split_ne_nil sep as)
      | cons piece pieces => rfl

theorem split_append (h : sep ∉ p) (rest : List α) :
    split sep (p ++ sep :: rest) = p :: split sep rest := by
  rw [split_append_cons, split_of_not_mem h, List.singleton_append]

/-- No separator is in a piece. -/
theorem not_mem_of_mem_split (h : p ∈ split sep as) : sep ∉ p := by
  induction as generalizing p with
  | nil =>
    obtain rfl := List.mem_singleton.1 h
    exact List.not_mem_nil
  | cons a as ih =>
    rw [split] at h
    split at h
    · rcases List.mem_cons.1 h with rfl | h
      · exact List.not_mem_nil
      · exact ih h
    · rename_i ha
      cases has : split sep as with
      | nil => exact absurd has (split_ne_nil sep as)
      | cons piece pieces =>
        rw [has] at h ih
        rcases List.mem_cons.1 h with rfl | h
        · intro hmem
          rcases List.mem_cons.1 hmem with heq | hmem
          · exact ha heq.symm
          · exact ih List.mem_cons_self hmem
        · exact ih (List.mem_cons_of_mem _ h)

/-- A text without separators is one piece. -/
theorem splitText_of_not_mem {c : Char} {t : String} (h : c ∉ t.toList) : splitText c t = [t] := by
  rw [splitText, split_of_not_mem h, List.map_singleton, String.ofList_toList]

/-- Texts that are joined by a separator have the pieces of both. -/
theorem splitText_append {c : Char} {mark : String} (hmark : mark.toList = [c]) (s t : String) :
    splitText c (s ++ mark ++ t) = splitText c s ++ splitText c t := by
  have hchars : (s ++ mark ++ t).toList = s.toList ++ c :: t.toList := by simp [hmark]
  rw [splitText, hchars, split_append_cons, List.map_append, splitText, splitText]

/-- Texts that are joined by separators have the pieces of all of them. -/
theorem splitText_intercalate {c : Char} {mark : String} (hmark : mark.toList = [c])
    {texts : List String} (h : texts ≠ []) :
    splitText c (mark.intercalate texts) = texts.flatMap (splitText c) := by
  induction texts with
  | nil => exact absurd rfl h
  | cons t texts ih =>
    by_cases hnil : texts = []
    · simp [hnil]
    · rw [String.intercalate_cons_of_ne_nil hnil, splitText_append hmark, ih hnil,
        List.flatMap_cons]

theorem cut_of_not_mem (h : sep ∉ p) : cut sep p = (p, none) := by
  induction p with
  | nil => rfl
  | cons a p ih =>
    obtain ⟨ha, hp⟩ := not_or.1 fun hor ↦ h (List.mem_cons.2 hor)
    rw [cut, if_neg fun heq ↦ ha heq.symm, ih hp]

theorem cut_append (h : sep ∉ p) (rest : List α) : cut sep (p ++ sep :: rest) = (p, some rest) := by
  induction p with
  | nil => simp [cut]
  | cons a p ih =>
    obtain ⟨ha, hp⟩ := not_or.1 fun hor ↦ h (List.mem_cons.2 hor)
    rw [List.cons_append, cut, if_neg fun heq ↦ ha heq.symm, ih hp]

end Licensing.Text
