import Licensing.Bundle.Registry
import Licensing.Proofs.OrderedMap
import Mathlib.Data.List.Sort

/-!
# What is in a registry

A registry that can be built holds every bundle of every definition under its name, since no two
of them have one name (`get?_of_ofDefinitions`). Of the definitions that list a product, of
whatever kind, all bundles depend on the feature service, the paid variants without products
included.
-/

namespace Licensing

/-! ### Lists without repetitions -/

/-- Ordering texts keeps all of them, and adds none. -/
theorem mem_ascending {t : String} {texts : List String} : t ∈ ascending texts ↔ t ∈ texts := by
  rw [ascending, OrderedMap.mem_keys_iff]
  constructor
  · rintro ⟨v, h⟩
    rcases OrderedMap.get?_foldl_insert _ _ h with h | h
    · obtain ⟨s, hs, heq⟩ := List.mem_map.1 h
      obtain ⟨rfl, -⟩ := Prod.mk.inj heq
      exact hs
    · exact absurd h (by simp)
  · intro h
    refine OrderedMap.exists_get?_foldl_insert _ _ (.inl ⟨(), ?_⟩)
    exact List.mem_map_of_mem h

theorem ascending_pairwise (texts : List String) : (ascending texts).Pairwise (· < ·) :=
  OrderedMap.keys_pairwise _

theorem ascending_eq_nil_iff {texts : List String} : ascending texts = [] ↔ texts = [] := by
  simp only [List.eq_nil_iff_forall_not_mem, mem_ascending]

/-- There is one way to order texts without repetitions. -/
theorem eq_ascending {ts texts : List String} (hts : ts.Pairwise (· < ·))
    (h : ∀ t, t ∈ ts ↔ t ∈ texts) : ts = ascending texts :=
  hts.eq_of_mem_iff (ascending_pairwise texts) fun t ↦ (h t).trans mem_ascending.symm

/-! ### The bundles of a definition -/

namespace Definition

variable {d : Definition} {b : Bundle} {suffix : String}

/-- A definition lists a product that is part of the bundle, paid for or on trial. -/
def ListsProduct (d : Definition) : Prop :=
  d.skus ≠ [] ∨ d.paidSkus ≠ [] ∨ d.evalSkus ≠ []

theorem isPaid_base_iff : d.base.isPaid = true ↔ d.paidSkus ≠ [] ∨ d.evalSkus ≠ [] := by
  simp [base, Bundle.isPaid, ascending_eq_nil_iff]

theorem mem_expand_iff : b ∈ d.expand suffix ↔
    b = d.base ∨ ((d.paidSkus ≠ [] ∨ d.evalSkus ≠ []) ∧ b = d.paidVariant suffix) := by
  rw [← isPaid_base_iff, expand]
  split <;> simp [*]

/-- The bundles of a definition ask of the caller what it does. -/
theorem attributes_of_mem_expand (hb : b ∈ d.expand suffix) : b.attributes = d.attributes := by
  rcases mem_expand_iff.1 hb with rfl | ⟨-, rfl⟩ <;> rfl

/-- **No bundle of a definition with products is decided by the identity alone.** -/
theorem isSkuBased_of_mem_expand (hd : d.ListsProduct) (hb : b ∈ d.expand suffix) :
    b.isSkuBased = true := by
  rcases mem_expand_iff.1 hb with rfl | ⟨-, rfl⟩
  · rcases hd with hd | hd
    · simp [Bundle.isSkuBased, base, ascending_eq_nil_iff, hd]
    · simp [Bundle.isSkuBased, isPaid_base_iff.2 hd]
  · simp [Bundle.isSkuBased, paidVariant]

end Definition

/-! ### Building a registry -/

namespace Registry

variable {r r' : Registry} {b b' : Bundle} {bs : List Bundle} {d : Definition}
  {ds : List Definition} {suffix name : String}

/-- A fold that succeeds does so at every element. -/
theorem exists_of_foldlM_cons {α β ε : Type} {f : β → α → Except ε β} {s s' : β} {a : α}
    {as : List α} (h : (a :: as).foldlM f s = .ok s') :
    ∃ t, f s a = .ok t ∧ as.foldlM f t = .ok s' := by
  rw [List.foldlM_cons] at h
  cases hf : f s a with
  | error e =>
    rw [hf] at h
    exact absurd h (by simp [bind, Except.bind])
  | ok t =>
    rw [hf] at h
    exact ⟨t, rfl, h⟩

/-- A bundle that is added is under its name, where there was none, and the others stay. -/
theorem get?_of_add (h : r.add b = .ok r') :
    r'.get? b.name = some b ∧ ∀ name b', r.get? name = some b' → r'.get? name = some b' := by
  rw [add] at h
  split at h
  · exact absurd h (by simp)
  · rename_i hnew
    obtain rfl := Except.ok.inj h
    refine ⟨OrderedMap.get?_insert_self _ _ _, fun name b' hget ↦ ?_⟩
    refine (OrderedMap.get?_insert_of_ne _ _ ?_).trans hget
    -- Nothing was under the name of the new bundle.
    rintro rfl
    exact hnew ((OrderedMap.contains_eq_true_iff _).2 ⟨b', hget⟩)

theorem get?_of_foldlM_add (h : bs.foldlM add r = .ok r') :
    (∀ b ∈ bs, r'.get? b.name = some b) ∧
      ∀ name b, r.get? name = some b → r'.get? name = some b := by
  induction bs generalizing r with
  | nil =>
    obtain rfl := Except.ok.inj h
    exact ⟨by simp, fun _ _ hget ↦ hget⟩
  | cons a bs ih =>
    obtain ⟨t, hadd, hrest⟩ := exists_of_foldlM_cons h
    obtain ⟨hself, hkeep⟩ := get?_of_add hadd
    obtain ⟨hmem, hstay⟩ := ih hrest
    refine ⟨fun b hb ↦ ?_, fun name b hget ↦ hstay name b (hkeep name b hget)⟩
    rcases List.mem_cons.1 hb with rfl | hb
    · exact hstay _ _ hself
    · exact hmem b hb

/-- A registry of definitions is the registry of all their bundles. -/
theorem foldlM_add_of_foldlM_addDefinition (h : ds.foldlM (addDefinition suffix) r = .ok r') :
    (ds.flatMap (Definition.expand · suffix)).foldlM add r = .ok r' := by
  induction ds generalizing r with
  | nil => exact h
  | cons d ds ih =>
    obtain ⟨t, hadd, hrest⟩ := exists_of_foldlM_cons h
    rw [addDefinition] at hadd
    split at hadd
    · exact absurd hadd (by simp)
    · rw [List.flatMap_cons, List.foldlM_append, hadd]
      exact ih hrest

/-- **Every bundle of every definition is in the registry**, under its name. -/
theorem get?_of_ofDefinitions (h : ofDefinitions ds suffix = .ok r) (hd : d ∈ ds)
    (hb : b ∈ d.expand suffix) : r.get? b.name = some b := by
  rw [ofDefinitions] at h
  split at h
  · exact absurd h (by simp)
  · have hfold := foldlM_add_of_foldlM_addDefinition h
    exact (get?_of_foldlM_add hfold).1 b (List.mem_flatMap.2 ⟨d, hd, hb⟩)

end Registry

end Licensing
