import Licensing.Proofs.Bundle.Registry
import Licensing.Proofs.Text.Blank
import Licensing.Proofs.Text.Split
import Licensing.Decision

/-!
# The names in a list with commas

A list of names is split at its commas, and the blanks around each item are dropped. So there are
names that no list can hold: those with a comma, and those with a blank at one of their ends
(`listable_of_mem_names`). All others stand for themselves wherever they are listed, alone or among
others (`names_intercalate`).
-/

namespace Licensing.BundleFilter

variable {list name : String} {lists ns : List String}

theorem mem_names : name ∈ names list ↔
    name ≠ "" ∧ ∃ item ∈ Text.splitText ',' list, Text.trim item = name := by
  simp [names, mem_ascending, and_comm]

/-- What is listed in several lists is listed in the one list of them all. -/
theorem mem_names_intercalate : name ∈ names (",".intercalate lists) ↔
    ∃ list ∈ lists, name ∈ names list := by
  by_cases h : lists = []
  · -- Without lists there is one item, which is empty.
    subst h
    rw [String.intercalate_nil, mem_names, Text.splitText_of_not_mem (by simp)]
    constructor
    · rintro ⟨hne, item, hitem, rfl⟩
      obtain rfl := List.mem_singleton.1 hitem
      exact absurd rfl hne
    · simp
  · have hcomma : ",".toList = [','] := by decide
    simp only [mem_names, Text.splitText_intercalate hcomma h, List.mem_flatMap]
    constructor
    · rintro ⟨hne, item, ⟨list, hlist, hitem⟩, htrim⟩
      exact ⟨list, hlist, hne, item, hitem, htrim⟩
    · rintro ⟨list, hlist, hne, item, hitem, htrim⟩
      exact ⟨hne, item, ⟨list, hlist, hitem⟩, htrim⟩

theorem mem_names_append {list' : String} : name ∈ names (list ++ "," ++ list') ↔
    name ∈ names list ∨ name ∈ names list' := by
  have hjoined : ",".intercalate [list, list'] = list ++ "," ++ list' := by simp
  rw [← hjoined, mem_names_intercalate]
  simp

/-- An item of a list names nothing that the list does not name. -/
theorem names_subset_of_mem_split {item : String} (h : item ∈ Text.splitText ',' list) :
    names item ⊆ names list := by
  intro name hname
  obtain ⟨hne, part, hpart, rfl⟩ := mem_names.1 hname
  obtain ⟨piece, hpiece, rfl⟩ := List.mem_map.1 h
  rw [Text.splitText_of_not_mem (by simpa using Text.not_mem_of_mem_split hpiece)] at hpart
  obtain rfl := List.mem_singleton.1 hpart
  exact mem_names.2 ⟨hne, _, h, rfl⟩

theorem names_pairwise (list : String) : (names list).Pairwise (· < ·) :=
  ascending_pairwise _

/-- A name that can be an item of a list. -/
structure Listable (name : String) : Prop where
  /-- It has no comma. -/
  comma : ',' ∉ name.toList
  /-- It neither starts nor ends with a blank. -/
  trim : Text.trim name = name

/-- Only such names are in a list. -/
theorem listable_of_mem_names (h : name ∈ names list) : Listable name := by
  obtain ⟨-, item, hitem, rfl⟩ := mem_names.1 h
  obtain ⟨piece, hpiece, rfl⟩ := List.mem_map.1 hitem
  refine ⟨fun hmem ↦ ?_, Text.trim_trim _⟩
  have hcomma := Text.mem_of_mem_trim hmem
  rw [String.toList_ofList] at hcomma
  exact Text.not_mem_of_mem_split hpiece hcomma

/-- A name that can be listed is all that is in the list of it alone. -/
theorem mem_names_iff_eq {t : String} (h : Listable name) (hne : name ≠ "") :
    t ∈ names name ↔ t = name := by
  rw [mem_names, Text.splitText_of_not_mem h.comma]
  constructor
  · rintro ⟨-, item, hitem, rfl⟩
    obtain rfl := List.mem_singleton.1 hitem
    exact h.trim
  · rintro rfl
    exact ⟨hne, t, List.mem_singleton_self t, h.trim⟩

/-- **A list of such names holds them and no others.** -/
theorem names_intercalate (h : ∀ n ∈ ns, Listable n ∧ n ≠ "") :
    names (",".intercalate ns) = ascending ns := by
  refine eq_ascending (names_pairwise _) fun t ↦ ?_
  rw [mem_names_intercalate]
  constructor
  · rintro ⟨n, hn, ht⟩
    obtain ⟨hlistable, hne⟩ := h n hn
    rwa [(mem_names_iff_eq hlistable hne).1 ht]
  · intro ht
    obtain ⟨hlistable, hne⟩ := h t ht
    exact ⟨t, ht, (mem_names_iff_eq hlistable hne).2 rfl⟩

end Licensing.BundleFilter
