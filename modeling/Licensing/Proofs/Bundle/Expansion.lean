import Licensing.Bundle.Load
import Licensing.Proofs.Bundle.Registry

/-!
# The registry is the paid expansion of its definitions

What can be said of a registry without saying how it is built: which lists of definitions have one
(`Expandable`), what is in it (`Expansion`), and what is wrong with the first definition that
keeps a list from having one (`Fault`). `expands` says that building a registry comes to just
this. Two bundles can have one name in many ways: a name can be that of another definition, or of
the paid variant of one before or behind it. So what the definitions up to one have made is kept as
the list of all names so far.
-/

namespace Licensing

/-! ### Names -/

namespace Definition

/-- The names of the bundles that a definition makes. -/
def names (d : Definition) (suffix : String) : List String :=
  if d.paidSkus ≠ [] ∨ d.evalSkus ≠ [] then [d.name, d.name ++ suffix] else [d.name]

/-- A definition expands to the bundles whose names it takes up. -/
theorem map_name_expand (d : Definition) (suffix : String) :
    (d.expand suffix).map Bundle.name = d.names suffix := by
  rw [expand, names]
  simp only [isPaid_base_iff]
  split <;> rfl

end Definition

namespace Registry

variable {ds ds' : List Definition} {d : Definition} {bs : List Bundle} {b : Bundle}
  {r r' : Registry} {suffix name : String} {e : BundleError}

/-- The names of the bundles that definitions make, in their order. -/
def names (ds : List Definition) (suffix : String) : List String :=
  ds.flatMap (Definition.names · suffix)

/-- So do several definitions, in their order. -/
theorem map_name_flatMap_expand (ds : List Definition) (suffix : String) :
    (ds.flatMap (Definition.expand · suffix)).map Bundle.name = names ds suffix := by
  simp only [names, List.map_flatMap, Definition.map_name_expand]

/-- Every definition has a name, and no two bundles have the same. -/
structure Expandable (ds : List Definition) (suffix : String) : Prop where
  /-- There is something in every name. -/
  named : ∀ d ∈ ds, Text.trim d.name ≠ ""
  /-- No name is made twice. -/
  nodup : (names ds suffix).Nodup

/-- Whether definitions can be expanded does not depend on their order. -/
theorem Expandable.perm (h : Expandable ds suffix) (hp : ds.Perm ds') : Expandable ds' suffix where
  named d hd := h.named d (hp.mem_iff.2 hd)
  nodup := (hp.flatMap_right _).nodup_iff.1 h.nodup

/-! ### What a registry holds -/

/-- A bundle holds all the products of a definition. -/
structure IsBase (d : Definition) (b : Bundle) : Prop where
  /-- It has the name of the definition. -/
  name : b.name = d.name
  /-- It is no variant of another bundle. -/
  paidVariant : b.paidVariant = false
  /-- It asks of the caller what the definition does. -/
  attributes : b.attributes = d.attributes
  /-- Its products ascend strictly. -/
  skus_pairwise : b.skus.Pairwise (· < ·)
  /-- They are all the products of the definition. -/
  mem_skus_iff : ∀ sku, sku ∈ b.skus ↔ sku ∈ d.skus ∨ sku ∈ d.paidSkus ∨ sku ∈ d.evalSkus
  /-- The products that are paid for ascend strictly. -/
  paidSkus_pairwise : b.paidSkus.Pairwise (· < ·)
  /-- They are those of the definition. -/
  mem_paidSkus_iff : ∀ sku, sku ∈ b.paidSkus ↔ sku ∈ d.paidSkus
  /-- The products on trial ascend strictly. -/
  evalSkus_pairwise : b.evalSkus.Pairwise (· < ·)
  /-- They are those of the definition. -/
  mem_evalSkus_iff : ∀ sku, sku ∈ b.evalSkus ↔ sku ∈ d.evalSkus
  /-- It depends on the feature service when the definition lists a product. -/
  isSkuBased_iff : b.isSkuBased = true ↔ d.ListsProduct

/-- A bundle holds the products of a definition that are paid for. -/
structure IsVariant (d : Definition) (suffix : String) (b : Bundle) : Prop where
  /-- It has the name of the definition, and the suffix. -/
  name : b.name = d.name ++ suffix
  /-- It is a variant of another bundle. -/
  paidVariant : b.paidVariant = true
  /-- It asks of the caller what the definition does. -/
  attributes : b.attributes = d.attributes
  /-- Its products ascend strictly. -/
  skus_pairwise : b.skus.Pairwise (· < ·)
  /-- They are those of the definition that are paid for. -/
  mem_skus_iff : ∀ sku, sku ∈ b.skus ↔ sku ∈ d.paidSkus
  /-- The products that are paid for ascend strictly. -/
  paidSkus_pairwise : b.paidSkus.Pairwise (· < ·)
  /-- They are those of the definition. -/
  mem_paidSkus_iff : ∀ sku, sku ∈ b.paidSkus ↔ sku ∈ d.paidSkus
  /-- No product is on trial. -/
  evalSkus_eq : b.evalSkus = []
  /-- It depends on the feature service, as the definition lists a product, even when that is only
  one on trial. -/
  isSkuBased : b.isSkuBased = true ∧ d.ListsProduct

/-- The base bundle of a definition is what it should be. -/
theorem isBase_base (d : Definition) : IsBase d d.base where
  name := rfl
  paidVariant := rfl
  attributes := rfl
  skus_pairwise := ascending_pairwise _
  mem_skus_iff sku := by simp [Definition.base, mem_ascending]
  paidSkus_pairwise := ascending_pairwise _
  mem_paidSkus_iff _ := mem_ascending
  evalSkus_pairwise := ascending_pairwise _
  mem_evalSkus_iff _ := mem_ascending
  isSkuBased_iff := by
    simp only [Bundle.isSkuBased, Bool.or_eq_true, Definition.isPaid_base_iff]
    simp only [Definition.base, Bool.not_eq_eq_eq_not, Bool.not_true, List.isEmpty_eq_false_iff,
      ne_eq, ascending_eq_nil_iff, List.append_eq_nil_iff, Bool.false_eq_true,
      Definition.ListsProduct]
    tauto

/-- So is its paid variant, if the definition asks for one. -/
theorem isVariant_paidVariant (suffix : String) (hd : d.paidSkus ≠ [] ∨ d.evalSkus ≠ []) :
    IsVariant d suffix (d.paidVariant suffix) where
  name := rfl
  paidVariant := rfl
  attributes := rfl
  skus_pairwise := ascending_pairwise _
  mem_skus_iff _ := mem_ascending
  paidSkus_pairwise := ascending_pairwise _
  mem_paidSkus_iff _ := mem_ascending
  evalSkus_eq := rfl
  isSkuBased := ⟨by simp [Bundle.isSkuBased, Definition.paidVariant], .inr hd⟩

/-- What a registry holds that is the paid expansion of definitions. -/
structure Expansion (ds : List Definition) (suffix : String) (r : Registry) : Prop where
  /-- Its bundles are listed in strictly ascending order of their names. -/
  names_pairwise : (r.all.map Bundle.name).Pairwise (· < ·)
  /-- Their names are those that the definitions make. -/
  mem_names_iff : ∀ name, name ∈ r.all.map Bundle.name ↔ name ∈ names ds suffix
  /-- Under the name of a definition is the bundle of its products. -/
  base : ∀ d ∈ ds, ∃ b, r.get? d.name = some b ∧ IsBase d b
  /-- Under this name with the suffix is its paid variant, if it has one. -/
  variant : ∀ d ∈ ds, d.paidSkus ≠ [] ∨ d.evalSkus ≠ [] →
    ∃ b, r.get? (d.name ++ suffix) = some b ∧ IsVariant d suffix b

/-! ### Adding bundles -/

/-- Bundles that are added one after another are in the registry next to those that were there. -/
theorem get?_foldlM_add_iff (h : bs.foldlM add r = .ok r') :
    r'.get? name = some b ↔ r.get? name = some b ∨ (b ∈ bs ∧ b.name = name) := by
  constructor
  · intro hget
    induction bs generalizing r with
    | nil =>
      obtain rfl := Except.ok.inj h
      exact .inl hget
    | cons a bs ih =>
      obtain ⟨t, hadd, hrest⟩ := exists_of_foldlM_cons h
      rcases ih hrest with ht | ⟨hb, hname⟩
      · rw [add] at hadd
        split at hadd
        · exact absurd hadd (by simp)
        · obtain rfl := Except.ok.inj hadd
          rw [get?, OrderedMap.get?_insert] at ht
          split at ht
          · rename_i hname
            obtain rfl := Option.some.inj ht
            exact .inr ⟨List.mem_cons_self, hname⟩
          · exact .inl ht
      · exact .inr ⟨List.mem_cons_of_mem _ hb, hname⟩
  · obtain ⟨hmem, hkeep⟩ := get?_of_foldlM_add h
    rintro (hget | ⟨hb, rfl⟩)
    · exact hkeep _ _ hget
    · exact hmem b hb

/-- Bundles can be added when all their names are free. -/
theorem exists_foldlM_add_iff : (∃ r', bs.foldlM add r = .ok r') ↔
    (bs.map Bundle.name).Nodup ∧ ∀ b ∈ bs, r.bundles.contains b.name = false := by
  induction bs generalizing r with
  | nil => simp [pure, Except.pure]
  | cons a bs ih =>
    rw [List.foldlM_cons, add]
    cases ha : r.bundles.contains a.name with
    | true => simp [bind, Except.bind, ha]
    | false =>
      -- The first name is free, and it is taken for those that follow.
      refine (ih (r := ⟨r.bundles.insert a.name a⟩)).trans ?_
      have hfree : ∀ b : Bundle, (r.bundles.insert a.name a).contains b.name = false ↔
          a.name ≠ b.name ∧ r.bundles.contains b.name = false := by
        intro b
        by_cases hname : a.name = b.name <;>
          simp [OrderedMap.contains, OrderedMap.get?_insert, hname]
      simp only [hfree, List.map_cons, List.nodup_cons, List.mem_map, not_exists, not_and,
        List.forall_mem_cons, ha, true_and]
      constructor
      · rintro ⟨hnodup, hrest⟩
        exact ⟨⟨fun b hb heq ↦ (hrest b hb).1 heq.symm, hnodup⟩, fun b hb ↦ (hrest b hb).2⟩
      · rintro ⟨⟨hnew, hnodup⟩, hrest⟩
        exact ⟨hnodup, fun b hb ↦ ⟨fun heq ↦ hnew b hb heq.symm, hrest b hb⟩⟩

/-- A definition without a name is an error, whatever else it says. -/
theorem addDefinition_of_blank (h : Text.trim d.name = "") :
    addDefinition suffix r d = .error (.invalid "bundle name must not be empty") := by
  rw [addDefinition, if_pos (Text.trim_eq_empty_iff.1 h)]

/-- A definition with a name adds the bundles that it expands to. -/
theorem addDefinition_of_named (h : Text.trim d.name ≠ "") :
    addDefinition suffix r d = (d.expand suffix).foldlM add r := by
  rw [addDefinition, if_neg fun hb ↦ h (Text.trim_eq_empty_iff.2 hb)]

/-- Definitions can be added when they have names and their bundles can. -/
theorem foldlM_addDefinition_iff : ds.foldlM (addDefinition suffix) r = .ok r' ↔
    (∀ d ∈ ds, Text.trim d.name ≠ "") ∧
      (ds.flatMap (Definition.expand · suffix)).foldlM add r = .ok r' := by
  constructor
  · intro h
    refine ⟨?_, foldlM_add_of_foldlM_addDefinition h⟩
    induction ds generalizing r with
    | nil => simp
    | cons d ds ih =>
      obtain ⟨t, hadd, hrest⟩ := exists_of_foldlM_cons h
      refine List.forall_mem_cons.2 ⟨fun hblank ↦ ?_, ih hrest⟩
      rw [addDefinition_of_blank hblank] at hadd
      exact absurd hadd (by simp)
  · rintro ⟨hnamed, h⟩
    induction ds generalizing r with
    | nil => exact h
    | cons d ds ih =>
      obtain ⟨hd, hds⟩ := List.forall_mem_cons.1 hnamed
      rw [List.flatMap_cons, List.foldlM_append] at h
      rw [List.foldlM_cons, addDefinition_of_named hd]
      cases hadd : (d.expand suffix).foldlM add r with
      | error e =>
        rw [hadd] at h
        exact absurd h (by simp [bind, Except.bind])
      | ok t =>
        rw [hadd] at h
        exact ih hds h

/-! ### Registries that can be built -/

/-- With a suffix the definitions are added one after another. -/
theorem ofDefinitions_of_ne (hs : suffix ≠ "") :
    ofDefinitions ds suffix = ds.foldlM (addDefinition suffix) empty := by
  rw [ofDefinitions, if_neg hs]

/-- **Which definitions have a registry.** There has to be a suffix, every definition needs a name,
and no two bundles may have the same one. -/
theorem exists_ofDefinitions_iff :
    (∃ r, ofDefinitions ds suffix = .ok r) ↔ suffix ≠ "" ∧ Expandable ds suffix := by
  by_cases hs : suffix = ""
  · simp [ofDefinitions, hs]
  have hempty : ∀ b : Bundle, empty.bundles.contains b.name = false := fun _ ↦ rfl
  simp only [ofDefinitions_of_ne hs, foldlM_addDefinition_iff, exists_and_left,
    exists_foldlM_add_iff, map_name_flatMap_expand, hempty, implies_true, and_true]
  constructor
  · rintro ⟨hnamed, hnodup⟩
    exact ⟨hs, hnamed, hnodup⟩
  · rintro ⟨-, h⟩
    exact ⟨h.named, h.nodup⟩

/-- A registry holds the bundles of its definitions and no others. -/
theorem get?_ofDefinitions_iff (h : ofDefinitions ds suffix = .ok r) :
    r.get? name = some b ↔ ∃ d ∈ ds, b ∈ d.expand suffix ∧ b.name = name := by
  have hs : suffix ≠ "" := (exists_ofDefinitions_iff.1 ⟨r, h⟩).1
  rw [ofDefinitions_of_ne hs, foldlM_addDefinition_iff] at h
  rw [get?_foldlM_add_iff h.2, List.mem_flatMap]
  have hnone : ¬ empty.get? name = some b := by simp [empty, get?]
  simp only [hnone, false_or, exists_and_right, ← and_assoc]

/-- In what order the definitions come makes no difference. -/
theorem ofDefinitions_of_perm (hp : ds.Perm ds') (h : ofDefinitions ds suffix = .ok r) :
    ofDefinitions ds' suffix = .ok r := by
  obtain ⟨hs, hds⟩ := exists_ofDefinitions_iff.1 ⟨r, h⟩
  obtain ⟨r', h'⟩ := exists_ofDefinitions_iff.2 ⟨hs, hds.perm hp⟩
  have hget : ∀ name, r'.get? name = r.get? name := by
    intro name
    refine Option.ext fun b ↦ ?_
    simp only [get?_ofDefinitions_iff h, get?_ofDefinitions_iff h', hp.mem_iff]
  rw [h', show r' = r from congrArg Registry.mk (OrderedMap.ext_get? hget)]

/-- A bundle is found under its own name. -/
theorem name_of_get? (h : ofDefinitions ds suffix = .ok r) (hb : r.get? name = some b) :
    b.name = name := by
  obtain ⟨-, -, -, hname⟩ := (get?_ofDefinitions_iff h).1 hb
  exact hname

/-- The bundles that are listed are those under some name, which is their own. -/
theorem mem_all_iff (h : ofDefinitions ds suffix = .ok r) : b ∈ r.all ↔ r.get? b.name = some b := by
  rw [all, OrderedMap.values, List.mem_map]
  constructor
  · rintro ⟨e, he, rfl⟩
    have hget : r.get? e.1 = some e.2 := (OrderedMap.get?_eq_some_iff _).2 he
    rwa [name_of_get? h hget]
  · intro hget
    exact ⟨(b.name, b), (OrderedMap.get?_eq_some_iff _).1 hget, rfl⟩

/-- All bundles of a registry are those under its keys. -/
theorem map_name_all (h : ofDefinitions ds suffix = .ok r) :
    r.all.map Bundle.name = r.bundles.keys := by
  rw [all, OrderedMap.values, OrderedMap.keys, List.map_map]
  exact List.map_congr_left fun e he ↦ name_of_get? h ((OrderedMap.get?_eq_some_iff _).2 he)

/-- No bundle of a registry is without a name. -/
theorem ne_empty_of_mem_keys (h : ofDefinitions ds suffix = .ok r) (hname : name ∈ r.bundles.keys) :
    name ≠ "" := by
  obtain ⟨-, hnamed, -⟩ := exists_ofDefinitions_iff.1 ⟨r, h⟩
  obtain ⟨b, hb⟩ := (OrderedMap.mem_keys_iff _).1 hname
  obtain ⟨d, hd, hmem, rfl⟩ := (get?_ofDefinitions_iff h).1 hb
  have hne : d.name ≠ "" := fun heq ↦ hnamed d hd (by rw [heq]; rfl)
  rcases Definition.mem_expand_iff.1 hmem with rfl | ⟨-, rfl⟩
  · exact hne
  · exact fun heq ↦ hne (String.append_eq_empty_iff.1 heq).1

/-- **A registry is the expansion of its definitions**, if it can be made of them. -/
theorem expansion_of_ofDefinitions (h : ofDefinitions ds suffix = .ok r) :
    Expansion ds suffix r := by
  have hget : ∀ d ∈ ds, ∀ b ∈ d.expand suffix, r.get? b.name = some b :=
    fun d hd b hb ↦ get?_of_ofDefinitions h hd hb
  exact
    { names_pairwise := map_name_all h ▸ OrderedMap.keys_pairwise _
      mem_names_iff := fun name ↦ by
        have hiff : ∀ b, r.bundles.get? name = some b ↔
            ∃ d ∈ ds, b ∈ d.expand suffix ∧ b.name = name := fun _ ↦ get?_ofDefinitions_iff h
        rw [map_name_all h, OrderedMap.mem_keys_iff, ← map_name_flatMap_expand]
        simp only [hiff, List.mem_map, List.mem_flatMap]
        tauto
      base := fun d hd ↦
        ⟨d.base, hget d hd _ (Definition.mem_expand_iff.2 (.inl rfl)), isBase_base d⟩
      variant := fun d hd hpaid ↦
        ⟨d.paidVariant suffix, hget d hd _ (Definition.mem_expand_iff.2 (.inr ⟨hpaid, rfl⟩)),
          isVariant_paidVariant suffix hpaid⟩ }

/-! ### Bundles that depend on the feature service -/

/-- The names of the bundles with SKUs are in ascending order. -/
theorem skuBasedNames_pairwise (h : ofDefinitions ds suffix = .ok r) :
    r.skuBasedNames.Pairwise (· < ·) :=
  (expansion_of_ofDefinitions h).names_pairwise.sublist (List.filter_sublist.map _)

/-- They are the names of just these bundles. -/
theorem mem_skuBasedNames_iff (h : ofDefinitions ds suffix = .ok r) :
    name ∈ r.skuBasedNames ↔ ∃ b, r.get? name = some b ∧ b.isSkuBased = true := by
  simp only [skuBasedNames, List.mem_map, List.mem_filter, mem_all_iff h]
  constructor
  · rintro ⟨b, ⟨hget, hb⟩, rfl⟩
    exact ⟨b, hget, hb⟩
  · rintro ⟨b, hget, hb⟩
    obtain rfl := name_of_get? h hget
    exact ⟨b, ⟨hget, hb⟩, rfl⟩

/-! ### The first fault -/

/-- What is wrong with definitions that have no registry, at the first one that keeps them from
having it. -/
inductive Fault (suffix : String) (ds : List Definition) : BundleError → Prop where
  /-- There is no suffix, whatever the definitions are. -/
  | suffix (hs : suffix = "") : Fault suffix ds (.invalid "paid suffix must not be empty")
  /-- All is well up to a definition without a name. -/
  | unnamed (hs : suffix ≠ "") {before behind : List Definition} {d : Definition}
    (hds : ds = before ++ d :: behind) (hbefore : Expandable before suffix)
    (hd : Text.trim d.name = "") : Fault suffix ds (.invalid "bundle name must not be empty")
  /-- All is well up to a definition that makes a name again. -/
  | taken (hs : suffix ≠ "") {before behind : List Definition} {d : Definition}
    (hds : ds = before ++ d :: behind) (hbefore : Expandable before suffix)
    (hd : Text.trim d.name ≠ "") {made left : List String} {name : String}
    (hnames : d.names suffix = made ++ name :: left)
    (hmade : (names before suffix ++ made).Nodup) (ht : name ∈ names before suffix ++ made) :
    Fault suffix ds (.duplicate name)

/-- A fold fails at the first element where it does. -/
theorem foldlM_eq_error_iff {α β ε : Type} {f : β → α → Except ε β} {s : β} {as : List α}
    {e : ε} : as.foldlM f s = .error e ↔
      ∃ before a behind t, as = before ++ a :: behind ∧ before.foldlM f s = .ok t ∧
        f t a = .error e := by
  constructor
  · intro h
    induction as generalizing s with
    | nil => exact absurd h (by simp [pure, Except.pure])
    | cons a as ih =>
      rw [List.foldlM_cons] at h
      cases hf : f s a with
      | error e' =>
        rw [hf] at h
        exact ⟨[], a, as, s, rfl, rfl, hf.trans h⟩
      | ok t =>
        rw [hf] at h
        obtain ⟨before, a', behind, t', rfl, hbefore, ha⟩ := ih h
        refine ⟨a :: before, a', behind, t', rfl, ?_, ha⟩
        rw [List.foldlM_cons, hf]
        exact hbefore
  · rintro ⟨before, a, behind, t, rfl, hbefore, ha⟩
    rw [List.foldlM_append, hbefore]
    change (f t a >>= fun t' ↦ behind.foldlM f t') = _
    rw [ha]
    rfl

/-- A bundle cannot be added when its name is taken. -/
theorem add_eq_error_iff : r.add b = .error e ↔
    r.bundles.contains b.name = true ∧ e = .duplicate b.name := by
  rw [add]
  split <;> simp [*, eq_comm]

/-- The names that are taken are those of the bundles added so far. -/
theorem contains_iff_of_foldlM_add (h : bs.foldlM add empty = .ok r) :
    r.bundles.contains name = true ↔ name ∈ bs.map Bundle.name := by
  have hnone : ∀ b, ¬ empty.get? name = some b := by simp [empty, get?]
  rw [OrderedMap.contains_eq_true_iff, List.mem_map]
  exact exists_congr fun b ↦ (get?_foldlM_add_iff h).trans (by simp [hnone b])

/-- The bundles of a definition can be added up to one when those of the definitions before can be
added, and the names up to this one differ. -/
theorem exists_foldlM_add_append
    (h : ds.foldlM (addDefinition suffix) empty = .ok r)
    (hnodup : (names ds suffix ++ bs.map Bundle.name).Nodup) :
    ∃ r', bs.foldlM add r = .ok r' ∧
      ((ds.flatMap (Definition.expand · suffix)) ++ bs).foldlM add empty = .ok r' := by
  have hds := (foldlM_addDefinition_iff.1 h).2
  obtain ⟨r', h'⟩ : ∃ r', ((ds.flatMap (Definition.expand · suffix)) ++ bs).foldlM add empty
      = .ok r' := by
    refine exists_foldlM_add_iff.2 ⟨?_, fun _ _ ↦ rfl⟩
    rwa [List.map_append, map_name_flatMap_expand]
  refine ⟨r', ?_, h'⟩
  rw [List.foldlM_append, hds] at h'
  exact h'

section Fault

variable {before behind : List Definition}

/-- A definition that cannot be added behind others has a fault. -/
theorem fault_of_addDefinition (hs : suffix ≠ "") (hds : ds = before ++ d :: behind)
    (hbefore : before.foldlM (addDefinition suffix) empty = .ok r)
    (hd : addDefinition suffix r d = .error e) : Fault suffix ds e := by
  have hexp : Expandable before suffix :=
    (exists_ofDefinitions_iff.1 ⟨r, (ofDefinitions_of_ne hs).trans hbefore⟩).2
  by_cases hblank : Text.trim d.name = ""
  · rw [addDefinition_of_blank hblank] at hd
    obtain rfl := Except.error.inj hd
    exact .unnamed hs hds hexp hblank
  · rw [addDefinition_of_named hblank, foldlM_eq_error_iff] at hd
    obtain ⟨bs, b, bs', r', hbs, hadd, hb⟩ := hd
    obtain ⟨htaken, rfl⟩ := add_eq_error_iff.1 hb
    have hfold : ((before.flatMap (Definition.expand · suffix)) ++ bs).foldlM add empty
        = .ok r' := by
      rw [List.foldlM_append, (foldlM_addDefinition_iff.1 hbefore).2]
      exact hadd
    have hnodup := (exists_foldlM_add_iff.1 ⟨r', hfold⟩).1
    have hmem := (contains_iff_of_foldlM_add hfold).1 htaken
    rw [List.map_append, map_name_flatMap_expand] at hnodup hmem
    have hnames : d.names suffix = bs.map Bundle.name ++ b.name :: bs'.map Bundle.name := by
      rw [← Definition.map_name_expand, hbs, List.map_append, List.map_cons]
    exact .taken hs hds hexp hblank hnames hnodup hmem

/-- A definition that makes a name again cannot be added. -/
theorem addDefinition_of_taken {made left : List String}
    (hbefore : before.foldlM (addDefinition suffix) empty = .ok r) (hd : Text.trim d.name ≠ "")
    (hnames : d.names suffix = made ++ name :: left)
    (hmade : (names before suffix ++ made).Nodup) (ht : name ∈ names before suffix ++ made) :
    addDefinition suffix r d = .error (.duplicate name) := by
  -- The bundle whose name is made again.
  rw [← Definition.map_name_expand] at hnames
  obtain ⟨bs, bs₁, hbs, rfl, hleft⟩ := List.map_eq_append_iff.1 hnames
  obtain ⟨b, bs', rfl, rfl, -⟩ := List.map_eq_cons_iff.1 hleft
  obtain ⟨r', hadd, hfold⟩ := exists_foldlM_add_append hbefore hmade
  rw [addDefinition_of_named hd, foldlM_eq_error_iff]
  refine ⟨bs, b, bs', r', hbs, hadd, add_eq_error_iff.2 ⟨?_, rfl⟩⟩
  rwa [contains_iff_of_foldlM_add hfold, List.map_append, map_name_flatMap_expand]

/-- **The first fault is the one that is told.** The definitions before it are put in, one after
another, and those behind it are not looked at. -/
theorem ofDefinitions_eq_error_iff : ofDefinitions ds suffix = .error e ↔ Fault suffix ds e := by
  by_cases hs : suffix = ""
  · rw [ofDefinitions, if_pos hs, Except.error.injEq, eq_comm]
    constructor
    · rintro rfl
      exact .suffix hs
    · intro h
      cases h with
      | suffix => rfl
      | unnamed hne | taken hne => exact absurd hs hne
  rw [ofDefinitions_of_ne hs, foldlM_eq_error_iff]
  constructor
  · rintro ⟨before, d, behind, r, hds, hbefore, hd⟩
    exact fault_of_addDefinition hs hds hbefore hd
  · intro h
    have hadded : ∀ before, Expandable before suffix →
        ∃ r, before.foldlM (addDefinition suffix) empty = .ok r := by
      intro before hbefore
      rw [← ofDefinitions_of_ne hs]
      exact exists_ofDefinitions_iff.2 ⟨hs, hbefore⟩
    cases h with
    | suffix hsuffix => exact absurd hsuffix hs
    | @unnamed _ before behind d hds hbefore hd =>
      obtain ⟨r, hr⟩ := hadded before hbefore
      exact ⟨before, d, behind, r, hds, hr, addDefinition_of_blank hd⟩
    | @taken _ before behind d hds hbefore hd made left name hnames hmade ht =>
      obtain ⟨r, hr⟩ := hadded before hbefore
      exact ⟨before, d, behind, r, hds, hr, addDefinition_of_taken hr hd hnames hmade ht⟩

end Fault

/-! ### Registries without bundles -/

/-- A text defines no bundle: it is blank, or its document is an empty list. -/
def DefinesNothing (text : String) : Prop :=
  Text.trim text = "" ∨ Definition.readAll text = some []

/-- Only from no definitions at all comes an empty registry. -/
theorem ofDefinitions_eq_empty_iff :
    ofDefinitions ds suffix = .ok empty ↔ suffix ≠ "" ∧ ds = [] := by
  constructor
  · intro h
    refine ⟨(exists_ofDefinitions_iff.1 ⟨_, h⟩).1, List.eq_nil_iff_forall_not_mem.2 fun d hd ↦ ?_⟩
    obtain ⟨b, hb, -⟩ := (expansion_of_ofDefinitions h).base d hd
    exact absurd hb (by simp [empty, get?])
  · rintro ⟨hs, rfl⟩
    exact ofDefinitions_of_ne hs

/-- A text gives an empty registry only if it defines nothing, and that is allowed. -/
theorem ofText_eq_empty_iff {text : String} {allowEmpty : Bool} :
    ofText text suffix allowEmpty = .ok empty ↔
      allowEmpty = true ∧ suffix ≠ "" ∧ DefinesNothing text := by
  have hblank := Text.trim_eq_empty_iff (s := text)
  rw [ofText, DefinesNothing, hblank]
  cases Text.isBlank text with
  | true =>
    cases allowEmpty <;> simp [ofDefinitions_eq_empty_iff]
  | false =>
    cases Definition.readAll text with
    | none => simp
    | some ds =>
      cases ds with
      | nil => cases allowEmpty <;> simp [ofDefinitions_eq_empty_iff]
      | cons d ds => simp [ofDefinitions_eq_empty_iff]

/-- A file gives an empty registry only if that is allowed, and it is not there or defines nothing.
-/
theorem load_eq_empty_iff {files : FileReader} {path : String} {allowEmpty : Bool} :
    load files path suffix allowEmpty = .ok empty ↔ allowEmpty = true ∧
      (files path = .error .notFound ∨ ∃ bytes text, files path = .ok bytes ∧
        bytes.size ≤ maxFileBytes ∧ String.fromUTF8? bytes = some text ∧ suffix ≠ "" ∧
        DefinesNothing text) := by
  rw [load]
  cases files path with
  | error e => cases allowEmpty <;> by_cases he : e = .notFound <;> simp [he]
  | ok bytes =>
    by_cases hsize : bytes.size > maxFileBytes
    · simp [hsize, Nat.not_le.2 hsize]
    cases htext : String.fromUTF8? bytes with
    | none => simp [hsize, htext]
    | some text =>
      simpa [hsize, Nat.not_lt.1 hsize, htext] using ofText_eq_empty_iff

/-! ### What building a registry comes to -/

/-- What is true of the registries of a list of definitions. -/
structure Expands (ds : List Definition) (suffix : String) : Prop where
  /-- There is one exactly when there is a suffix, every definition has a name, and no two bundles
  have the same. -/
  exists_iff : (∃ r, ofDefinitions ds suffix = .ok r) ↔
    suffix ≠ "" ∧ (∀ d ∈ ds, Text.trim d.name ≠ "") ∧ (names ds suffix).Nodup
  /-- It is the paid expansion of the definitions. -/
  expansion : ∀ r, ofDefinitions ds suffix = .ok r → Expansion ds suffix r
  /-- The order of the definitions makes no difference to it. -/
  perm : ∀ ds', ds.Perm ds' → ∀ r, ofDefinitions ds suffix = .ok r ↔
    ofDefinitions ds' suffix = .ok r
  /-- Where there is none, the first fault is told. -/
  error_iff : ∀ e, ofDefinitions ds suffix = .error e ↔ Fault suffix ds e
  /-- A text has a registry without bundles only where that is allowed. -/
  ofText_eq_empty_iff : ∀ text allowEmpty, ofText text suffix allowEmpty = .ok empty ↔
    allowEmpty = true ∧ suffix ≠ "" ∧ DefinesNothing text
  /-- So has a file, and a file that is not there. -/
  load_eq_empty_iff : ∀ files path allowEmpty, load files path suffix allowEmpty = .ok empty ↔
    allowEmpty = true ∧ (files path = .error .notFound ∨ ∃ bytes text, files path = .ok bytes ∧
      bytes.size ≤ maxFileBytes ∧ String.fromUTF8? bytes = some text ∧ suffix ≠ "" ∧
      DefinesNothing text)

/-- **The registry is exactly the paid expansion of its definitions.** -/
theorem expands (ds : List Definition) (suffix : String) : Expands ds suffix where
  exists_iff := exists_ofDefinitions_iff.trans
    (and_congr_right fun _ ↦ ⟨fun h ↦ ⟨h.named, h.nodup⟩, fun h ↦ ⟨h.1, h.2⟩⟩)
  expansion _ h := expansion_of_ofDefinitions h
  perm _ hp _ := ⟨ofDefinitions_of_perm hp, ofDefinitions_of_perm hp.symm⟩
  error_iff _ := ofDefinitions_eq_error_iff
  ofText_eq_empty_iff _ _ := ofText_eq_empty_iff
  load_eq_empty_iff _ _ _ := load_eq_empty_iff

end Registry

end Licensing
