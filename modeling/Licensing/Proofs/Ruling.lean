import Licensing.Proofs.Bundle.Expansion
import Licensing.Proofs.Decision

/-!
# The rule of entitlement

What a caller is told about a bundle follows one of four rules (`Ruling`): a bundle without products
is decided by what it asks of the caller, and any other one by the first feature of its name, too,
if the features are known and there is such a feature. The decisions that are made are those of the
rules (`ruling_iff`), about the bundles of the registry that are asked about, and a filter does no
more than leave some of them out.

The rules say nothing of how a feature is looked up or a filter is checked: the first feature of a
name is one with no other of this name in front of it.
-/

namespace Licensing

variable {i : Identity} {b : Bundle} {s : Snapshot} {degraded : Bool} {filter : BundleFilter}
  {r : Registry} {name : String} {dec : Decision}

/-! ### Filters -/

namespace BundleFilter

/-- A bundle is asked about: its name is included, or no names are and this one is not excluded. -/
def Means (f : BundleFilter) (name : String) : Prop :=
  f.included ≠ [] ∧ name ∈ f.included ∨ f.included = [] ∧ name ∉ f.excluded

instance (f : BundleFilter) (name : String) : Decidable (f.Means name) :=
  inferInstanceAs (Decidable (_ ∨ _))

theorem admits_iff : filter.admits name = true ↔ filter.Means name := by
  rw [admits, Means]
  by_cases h : filter.included = [] <;> simp [h]

/-- Without names everything is asked about. -/
theorem means_all : Means ⟨[], []⟩ name := by
  simp [Means]

end BundleFilter

/-! ### Rules -/

/-- The decision about a bundle by the rules of entitlement, when the features are known and when
they are not. -/
inductive Ruling (i : Identity) (b : Bundle) (s : Snapshot) : Bool → Decision → Prop where
  /-- Without products, a bundle is decided by what it asks of the caller. -/
  | attributes {degraded entitled : Bool} (hb : b.isSkuBased = false)
    (he : entitled = true ↔ i.Meets b.attributes) : Ruling i b s degraded ⟨entitled, false⟩
  /-- While the features are not known, nobody is entitled to a bundle with products. -/
  | closed (hb : b.isSkuBased = true) : Ruling i b s true ⟨false, false⟩
  /-- Nor is anybody if there is no feature of its name. -/
  | unreported (hb : b.isSkuBased = true) (hf : ∀ f ∈ s.features, f.name ≠ b.name) :
    Ruling i b s false ⟨false, false⟩
  /-- The first feature of its name counts, together with what the bundle asks of the caller. -/
  | reported {entitled : Bool} {before behind : List Feature} {f : Feature}
    (hb : b.isSkuBased = true) (hs : s.features = before ++ f :: behind)
    (hbefore : ∀ g ∈ before, g.name ≠ b.name) (hf : f.name = b.name)
    (he : entitled = true ↔ i.Meets b.attributes ∧ f.entitled = true) :
    Ruling i b s false ⟨entitled, f.isEval⟩

theorem Snapshot.find?_eq_none_iff : s.find? name = none ↔ ∀ f ∈ s.features, f.name ≠ name := by
  simp [Snapshot.find?]

/-- The feature that is found is the first of its name. -/
theorem Snapshot.find?_eq_some_iff {f : Feature} : s.find? name = some f ↔ f.name = name ∧
    ∃ before behind, s.features = before ++ f :: behind ∧ ∀ g ∈ before, g.name ≠ name := by
  simp [Snapshot.find?, List.find?_eq_some_iff_append]

/-- A decision follows the rules. -/
theorem ruling_decideBundle : Ruling i b s degraded (decideBundle i b s degraded) := by
  cases hb : b.isSkuBased with
  | false =>
    rw [decideBundle_of_not_isSkuBased hb]
    exact .attributes hb Identity.satisfies_iff
  | true =>
    rw [decideBundle, if_neg (by simp [hb])]
    cases degraded with
    | true => exact .closed hb
    | false =>
      rw [if_neg (by simp)]
      split
      · rename_i f hfind
        obtain ⟨hf, before, behind, hs, hbefore⟩ := Snapshot.find?_eq_some_iff.1 hfind
        refine .reported hb hs hbefore hf ?_
        rw [Bool.and_eq_true, Identity.satisfies_iff]
      · rename_i hfind
        exact .unreported hb (Snapshot.find?_eq_none_iff.1 hfind)

/-- **The rules leave no choice.** The rules say of each bundle what the decision is, so two
decisions that follow them are the same. -/
theorem ruling_iff : Ruling i b s degraded dec ↔ dec = decideBundle i b s degraded := by
  constructor
  · intro h
    cases h with
    | @attributes _ entitled hb he =>
      rw [decideBundle_of_not_isSkuBased hb,
        Bool.eq_iff_iff.2 (he.trans Identity.satisfies_iff.symm)]
    | closed hb => simp [decideBundle, hb, Decision.denied]
    | unreported hb hf =>
      simp [decideBundle, hb, Snapshot.find?_eq_none_iff.2 hf, Decision.denied]
    | @reported entitled before behind f hb hs hbefore hf he =>
      have hfind : s.find? b.name = some f :=
        Snapshot.find?_eq_some_iff.2 ⟨hf, before, behind, hs, hbefore⟩
      have hentitled : entitled = (i.satisfies b.attributes && f.entitled) := by
        rw [Bool.eq_iff_iff, Bool.and_eq_true, Identity.satisfies_iff]
        exact he
      simp [decideBundle, hb, hfind, hentitled]
  · rintro rfl
    exact ruling_decideBundle

/-- Who is entitled while the features are not known is so whatever they say. -/
theorem isEntitled_of_degraded {s' : Snapshot}
    (h : (decideBundle i b s true).isEntitled = true) :
    (decideBundle i b s' false).isEntitled = true := by
  cases hb : b.isSkuBased with
  | false => rwa [decideBundle_of_not_isSkuBased hb] at h ⊢
  | true => exact absurd ((isEntitled_decideBundle_iff hb).1 h).2.1 (by simp)

/-! ### All bundles -/

/-- What a caller is told about the bundles of a registry. -/
structure Ruled (r : Registry) (i : Identity) : Prop where
  /-- It is told about the bundles of the registry that it asks about. -/
  mem_keys_iff : ∀ filter s degraded name,
    name ∈ (evaluateBundles i filter r s degraded).keys ↔
      name ∈ r.all.map Bundle.name ∧ filter.Means name
  /-- It is told what the rules say about them. -/
  get?_iff : ∀ filter s degraded name dec,
    (evaluateBundles i filter r s degraded).get? name = some dec ↔
      filter.Means name ∧ ∃ b ∈ r.all, b.name = name ∧ Ruling i b s degraded dec
  /-- Whatever else it asks about makes no difference. -/
  get?_filtered : ∀ filter s degraded name,
    (evaluateBundles i filter r s degraded).get? name =
      if filter.Means name then (evaluateBundles i ⟨[], []⟩ r s degraded).get? name else none
  /-- While the features are not known, it is not entitled to more. -/
  degraded : ∀ filter s s' name dec,
    (evaluateBundles i filter r s true).get? name = some dec → dec.isEntitled = true →
      ∃ dec', (evaluateBundles i filter r s' false).get? name = some dec' ∧ dec'.isEntitled = true

theorem get?_evaluateBundles_iff : (evaluateBundles i filter r s degraded).get? name = some dec ↔
    filter.Means name ∧ ∃ b, r.get? name = some b ∧ dec = decideBundle i b s degraded := by
  simp only [get?_evaluateBundles, Option.map_eq_some_iff, Option.filter_eq_some_iff,
    BundleFilter.admits_iff]
  constructor
  · rintro ⟨b, ⟨hb, hmeans⟩, rfl⟩
    exact ⟨hmeans, b, hb, rfl⟩
  · rintro ⟨hmeans, b, hb, rfl⟩
    exact ⟨b, ⟨hb, hmeans⟩, rfl⟩

/-- **Callers are told what the rules say.** The rules are stated without the evaluation, by the
definitions alone, and this is an equivalence: what is told follows them, and whatever follows them
is told. -/
theorem ruled_of_ofDefinitions {ds : List Definition} {suffix : String}
    (hr : Registry.ofDefinitions ds suffix = .ok r) (i : Identity) : Ruled r i where
  mem_keys_iff filter s degraded name := by
    rw [Registry.map_name_all hr, OrderedMap.mem_keys_iff, OrderedMap.mem_keys_iff]
    simp only [get?_evaluateBundles_iff, Registry.get?]
    constructor
    · rintro ⟨_, hmeans, b, hb, -⟩
      exact ⟨⟨b, hb⟩, hmeans⟩
    · rintro ⟨⟨b, hb⟩, hmeans⟩
      exact ⟨_, hmeans, b, hb, rfl⟩
  get?_iff filter s degraded name dec := by
    simp only [get?_evaluateBundles_iff, ruling_iff, Registry.mem_all_iff hr]
    refine and_congr_right fun _ ↦ ⟨?_, ?_⟩
    · rintro ⟨b, hb, hdec⟩
      obtain rfl := Registry.name_of_get? hr hb
      exact ⟨b, hb, rfl, hdec⟩
    · rintro ⟨b, hb, rfl, hdec⟩
      exact ⟨b, hb, hdec⟩
  get?_filtered filter s degraded name := by
    refine Option.ext fun dec ↦ ?_
    split
    · rename_i hmeans
      simp only [get?_evaluateBundles_iff, hmeans, BundleFilter.means_all]
    · rename_i hmeans
      simp [get?_evaluateBundles_iff, hmeans]
  degraded filter s s' name dec hdec hentitled := by
    obtain ⟨hmeans, b, hb, rfl⟩ := get?_evaluateBundles_iff.1 hdec
    exact ⟨_, get?_evaluateBundles_iff.2 ⟨hmeans, b, hb, rfl⟩, isEntitled_of_degraded hentitled⟩

/-- A definition with a product that is paid for, and one without products. -/
def paidAndFree : List Definition :=
  [⟨"rhel", ⟨true, false, false⟩, [], ["RH1"], []⟩, ⟨"insights", ⟨false, true, true⟩, [], [], []⟩]

/-- A caller without an account. -/
def internalCaller : Identity :=
  ⟨"-1", "7", true, "dev@redhat.com", "dev", .user, false⟩

/-- Two features of one name. -/
def reportedTwice : Snapshot :=
  ⟨[⟨"rhel", true, true⟩, ⟨"rhel", false, false⟩]⟩

/-- Of two features the first counts, and what is included as well as excluded is asked about. -/
theorem ruled_reportedTwice : ∃ r, Registry.ofDefinitions paidAndFree "_paid" = .ok r ∧
    (evaluateBundles internalCaller ⟨["insights", "rhel", "satellite"], ["rhel"]⟩ r reportedTwice
      false).entries = [("insights", ⟨true, false⟩), ("rhel", ⟨false, true⟩)] ∧
    Ruled r internalCaller := by
  have hrun : (Registry.ofDefinitions paidAndFree "_paid").map (fun r ↦
      (evaluateBundles internalCaller ⟨["insights", "rhel", "satellite"], ["rhel"]⟩ r reportedTwice
        false).entries) = .ok [("insights", ⟨true, false⟩), ("rhel", ⟨false, true⟩)] := by
    decide
  cases hr : Registry.ofDefinitions paidAndFree "_paid" with
  | error e =>
    rw [hr] at hrun
    cases hrun
  | ok r =>
    rw [hr] at hrun
    exact ⟨r, rfl, Except.ok.inj hrun, ruled_of_ofDefinitions hr internalCaller⟩

end Licensing
