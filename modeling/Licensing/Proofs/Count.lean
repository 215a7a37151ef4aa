import Mathlib.Data.List.Basic
import Mathlib.Data.List.Induction

/-!
# How many of a list

The callers of the cache and the calls of a client are lists in which one element at a time is
replaced. These lemmas say how that changes the number of those with a property, and that it can be
counted by their places.
-/

namespace Licensing

variable {α : Type} {q : α → Bool} {as : List α} {a b : α} {n : Nat}

/-- Elements of which no two are in different places are one at most. -/
theorem countP_le_one : ∀ {as : List α},
    (∀ (i j : Nat) (a b : α), as[i]? = some a → as[j]? = some b → q a = true → q b = true →
      i = j) → as.countP q ≤ 1
  | [], _ => Nat.zero_le _
  | a :: as, h => by
    have htail : as.countP q ≤ 1 := countP_le_one fun i j b c hb hc hqb hqc ↦
      Nat.succ.inj (h (i + 1) (j + 1) b c hb hc hqb hqc)
    by_cases hq : q a = true
    · -- The first counts, so none of the others does.
      have hzero : as.countP q = 0 := by
        refine List.countP_eq_zero.2 fun b hb hqb ↦ ?_
        obtain ⟨j, hj⟩ := List.mem_iff_getElem?.1 hb
        exact absurd (h 0 (j + 1) a b rfl hj hq hqb) (by simp)
      simp [hzero, hq]
    · rwa [List.countP_cons, if_neg hq]

/-- An element in the place of another counts as what it is, and the other no longer. -/
theorem countP_modify {f : α → α} (h : as[n]? = some a) :
    (as.modify n f).countP q + (if q a then 1 else 0) =
      as.countP q + if q (f a) then 1 else 0 := by
  obtain ⟨hn, hget⟩ := List.getElem?_eq_some_iff.1 h
  have hsplit : as = as.take n ++ a :: as.drop (n + 1) := by
    rw [← hget, ← List.drop_eq_getElem_cons hn, List.take_append_drop]
  rw [List.modify_eq_take_cons_drop hn, hget]
  conv_rhs => rw [hsplit]
  simp only [List.countP_append, List.countP_cons]
  omega

/-- The elements of a list are what stands in its places. -/
theorem countP_range (q : α → Bool) (as : List α) :
    (List.range as.length).countP (fun k ↦ (as[k]?).any q) = as.countP q := by
  induction as using List.reverseRecOn with
  | nil => rfl
  | append_singleton as a ih =>
    rw [List.length_append, List.length_singleton, List.range_succ, List.countP_append,
      List.countP_append, ← ih]
    congr 1
    · refine List.countP_congr fun k hk ↦ ?_
      rw [List.getElem?_append_left (List.mem_range.1 hk)]
    · simp [List.countP_cons]

end Licensing
