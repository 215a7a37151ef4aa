import Licensing.OrderedMap
import Mathlib.Data.Finset.Card
import Mathlib.Data.List.Nodup
import Mathlib.Data.String.Basic

/-!
# Looking up in ordered maps

What every operation of an ordered map does to the values under its keys. Two operations rest on
the order of the keys: an entry is found under its key, and a filter keeps what it finds, only
because no key stands twice.
-/

namespace Licensing.OrderedMap

variable {β γ : Type}

/-! ### Entry lists -/

/-- A key is found with the value that was put in last. -/
theorem findIn_insertIn (k key : String) (v : β) (es : List (String × β)) :
    findIn key (insertIn k v es) = if k = key then some v else findIn key es := by
  induction es with
  | nil => simp [insertIn, findIn]
  | cons e es ih =>
    rw [insertIn]
    split
    · rfl
    · split
      · rename_i heq
        by_cases hk : k = key <;> simp [findIn, hk, ← heq]
      · rename_i hne
        by_cases he : e.1 = key
        · have hk : k ≠ key := fun h ↦ hne (h.trans he.symm)
          simp [findIn, he, hk]
        · simp [findIn, he, ih]

/-- What is found is one of the entries. -/
theorem mem_of_findIn {key : String} {v : β} {es : List (String × β)}
    (h : findIn key es = some v) : (key, v) ∈ es := by
  induction es with
  | nil => simp [findIn] at h
  | cons e es ih =>
    rw [findIn] at h
    split at h
    · rename_i hk
      obtain rfl := Option.some.inj h
      exact hk ▸ List.mem_cons_self
    · exact List.mem_cons_of_mem _ (ih h)

/-- In ascending order there is only one entry with a key, so this one is found. -/
theorem findIn_of_mem {key : String} {v : β} {es : List (String × β)}
    (hs : es.Pairwise fun a b ↦ a.1 < b.1) (h : (key, v) ∈ es) : findIn key es = some v := by
  induction es with
  | nil => simp at h
  | cons e es ih =>
    obtain ⟨he, hes⟩ := List.pairwise_cons.1 hs
    rcases List.mem_cons.1 h with rfl | h
    · simp [findIn]
    · have hne : e.1 ≠ key := (he _ h).ne
      simp [findIn, hne, ih hes h]

/-! ### Maps -/

variable (m : OrderedMap β)

/-- A value under a key is an entry of the map. -/
theorem get?_eq_some_iff {k : String} {v : β} : m.get? k = some v ↔ (k, v) ∈ m.entries :=
  ⟨mem_of_findIn, findIn_of_mem m.sorted⟩

/-- Nothing is in the empty map. -/
@[simp] theorem get?_empty (k : String) : (∅ : OrderedMap β).get? k = none := rfl

/-- To put a value in changes what is under its key, and nothing else. -/
theorem get?_insert (k key : String) (v : β) :
    (m.insert k v).get? key = if k = key then some v else m.get? key :=
  findIn_insertIn k key v m.entries

/-- What was put in is there. -/
@[simp] theorem get?_insert_self (k : String) (v : β) : (m.insert k v).get? k = some v := by
  simp [get?_insert]

/-- What is under other keys stays. -/
theorem get?_insert_of_ne {k key : String} (v : β) (h : k ≠ key) :
    (m.insert k v).get? key = m.get? key := by
  simp [get?_insert, h]

/-- A filter leaves a value in or takes it out under its key. -/
theorem get?_filter (p : String → β → Bool) (k : String) :
    (m.filter p).get? k = (m.get? k).filter (p k) := by
  refine Option.ext fun v ↦ ?_
  rw [get?_eq_some_iff, Option.filter_eq_some_iff, get?_eq_some_iff]
  simp [filter]

/-- To take a key out changes what is under this key, and nothing else. -/
theorem get?_erase (k key : String) :
    (m.erase k).get? key = if k = key then none else m.get? key := by
  rw [erase, get?_filter]
  by_cases h : k = key
  · simp [h]
  · have h' : key ≠ k := fun e ↦ h e.symm
    simp [h, h', Option.filter]
    cases m.get? key <;> rfl

/-- What was taken out is not there any more. -/
@[simp] theorem get?_erase_self (k : String) : (m.erase k).get? k = none := by
  simp [get?_erase]

/-- Erasing a key without a value changes nothing. -/
theorem erase_eq_self {k : String} (h : m.get? k = none) : m.erase k = m := by
  obtain ⟨es, hs⟩ := m
  have hmem : ∀ e ∈ es, (e.1 != k) = true := by
    intro e he
    rw [bne_iff_ne]
    rintro rfl
    have hsome := (get?_eq_some_iff ⟨es, hs⟩).2 he
    rw [h] at hsome
    exact absurd hsome (by simp)
  simp only [erase, filter]
  congr
  exact List.filter_eq_self.2 hmem

/-- A function is applied to each value under its key. -/
theorem get?_map (f : String → β → γ) (k : String) : (m.map f).get? k = (m.get? k).map (f k) := by
  refine Option.ext fun v ↦ ?_
  rw [get?_eq_some_iff, Option.map_eq_some_iff]
  simp only [get?_eq_some_iff]
  constructor
  · intro h
    obtain ⟨e, he, heq⟩ := List.mem_map.1 h
    obtain ⟨rfl, rfl⟩ := Prod.mk.inj heq
    exact ⟨e.2, he, rfl⟩
  · rintro ⟨a, ha, rfl⟩
    exact List.mem_map.2 ⟨(k, a), ha, rfl⟩

/-- A key is in the map exactly if there is a value under it. -/
theorem contains_eq_true_iff {k : String} : m.contains k = true ↔ ∃ v, m.get? k = some v := by
  rw [contains, Option.isSome_iff_exists]

/-- Maps with the same values under all keys are the same: their entries are in the same order. -/
theorem ext_get? {m m' : OrderedMap β} (h : ∀ k, m.get? k = m'.get? k) : m = m' := by
  obtain ⟨es, hs⟩ := m
  obtain ⟨es', hs'⟩ := m'
  have hmem : ∀ e, e ∈ es ↔ e ∈ es' := by
    intro e
    rw [← get?_eq_some_iff ⟨es, hs⟩, ← get?_eq_some_iff ⟨es', hs'⟩, h]
  have hne : ∀ {a b : String × β}, a.1 < b.1 → a ≠ b := fun hlt heq ↦ hlt.ne (heq ▸ rfl)
  have hperm : es.Perm es' :=
    (List.perm_ext_iff_of_nodup (hs.imp hne) (hs'.imp hne)).2 hmem
  obtain rfl := hperm.eq_of_pairwise (fun a b _ _ hab hba ↦ absurd hab hba.asymm) hs hs'
  rfl

/-! ### Keys -/

/-- The keys are those under which there is something. -/
theorem mem_keys_iff {k : String} : k ∈ m.keys ↔ ∃ v, m.get? k = some v := by
  simp only [get?_eq_some_iff, keys, List.mem_map]
  constructor
  · rintro ⟨e, he, rfl⟩
    exact ⟨e.2, he⟩
  · rintro ⟨v, hv⟩
    exact ⟨_, hv, rfl⟩

/-- The keys are in ascending order. -/
theorem keys_pairwise : m.keys.Pairwise (· < ·) := by
  rw [keys, List.pairwise_map]
  exact m.sorted

/-- No key is there twice. -/
theorem keys_nodup : m.keys.Nodup :=
  m.keys_pairwise.imp fun h ↦ h.ne

/-- A map is as large as the set of its keys. -/
theorem card_keys : m.keys.toFinset.card = m.size := by
  rw [List.toFinset_card_of_nodup m.keys_nodup, keys, List.length_map, size]

/-- To put a value in adds its key. -/
theorem keys_insert (k : String) (v : β) :
    (m.insert k v).keys.toFinset = Insert.insert k m.keys.toFinset := by
  ext key
  rw [Finset.mem_insert, List.mem_toFinset, List.mem_toFinset, mem_keys_iff, mem_keys_iff,
    get?_insert]
  by_cases h : k = key
  · simp [h]
  · have h' : key ≠ k := fun e ↦ h e.symm
    simp [h, h']

/-- To take a key out takes it from the keys. -/
theorem keys_erase (k : String) : (m.erase k).keys.toFinset = m.keys.toFinset.erase k := by
  ext key
  rw [Finset.mem_erase, List.mem_toFinset, List.mem_toFinset, mem_keys_iff, mem_keys_iff,
    get?_erase]
  by_cases h : k = key
  · simp [h]
  · have h' : key ≠ k := fun e ↦ h e.symm
    simp [h, h']

/-! ### Sizes -/

/-- No more than one entry is added at a time. -/
theorem size_insert_le (k : String) (v : β) : (m.insert k v).size ≤ m.size + 1 := by
  rw [← card_keys, ← card_keys, keys_insert]
  exact Finset.card_insert_le _ _

/-- A value in place of another one takes no more room. -/
theorem size_insert_of_contains {k : String} (v : β) (h : m.contains k = true) :
    (m.insert k v).size = m.size := by
  have hmem : k ∈ m.keys.toFinset :=
    List.mem_toFinset.2 (m.mem_keys_iff.2 (m.contains_eq_true_iff.1 h))
  rw [← card_keys, ← card_keys, keys_insert, Finset.insert_eq_of_mem hmem]

/-- To take out what is there leaves one entry fewer. -/
theorem size_erase {k : String} {v : β} (h : m.get? k = some v) :
    (m.erase k).size + 1 = m.size := by
  have hmem : k ∈ m.keys.toFinset := List.mem_toFinset.2 (m.mem_keys_iff.2 ⟨v, h⟩)
  rw [← card_keys, ← card_keys, keys_erase]
  exact Finset.card_erase_add_one hmem

/-- A map without values is the empty map. -/
theorem eq_empty_of_get? (h : ∀ k, m.get? k = none) : m = ∅ := by
  obtain ⟨es, hs⟩ := m
  cases es with
  | nil => rfl
  | cons e es =>
    have he := h e.1
    simp [get?, findIn] at he

/-- There are as many values as entries. -/
theorem length_values : m.values.length = m.size :=
  List.length_map _

/-! ### Maps of lists -/

/-- What is under a key was put in there, or was there before. -/
theorem get?_foldl_insert (es : List (String × β)) (m : OrderedMap β) {k : String} {v : β}
    (h : (es.foldl (fun m e ↦ m.insert e.1 e.2) m).get? k = some v) :
    (k, v) ∈ es ∨ m.get? k = some v := by
  induction es generalizing m with
  | nil => exact .inr h
  | cons e es ih =>
    rcases ih (m.insert e.1 e.2) h with h | h
    · exact .inl (List.mem_cons_of_mem _ h)
    · rw [get?_insert] at h
      split at h
      · rename_i hk
        obtain rfl := Option.some.inj h
        exact .inl (hk ▸ List.mem_cons_self)
      · exact .inr h

/-- There is something under every key under which something was put. -/
theorem exists_get?_foldl_insert (es : List (String × β)) (m : OrderedMap β) {k : String}
    (h : (∃ v, (k, v) ∈ es) ∨ ∃ v, m.get? k = some v) :
    ∃ v, (es.foldl (fun m e ↦ m.insert e.1 e.2) m).get? k = some v := by
  induction es generalizing m with
  | nil => simpa using h
  | cons e es ih =>
    refine ih (m.insert e.1 e.2) ?_
    rcases h with ⟨v, h⟩ | ⟨v, h⟩
    · rcases List.mem_cons.1 h with h | h
      · subst h
        exact .inr ⟨v, get?_insert_self _ _ _⟩
      · exact .inl ⟨v, h⟩
    · by_cases hk : e.1 = k
      · exact .inr ⟨e.2, by rw [hk, get?_insert_self]⟩
      · exact .inr ⟨v, by rw [get?_insert_of_ne _ _ hk, h]⟩

end Licensing.OrderedMap
