import Licensing.Decision
import Licensing.Proofs.OrderedMap

/-!
# What a decision rests on

Who is entitled to a bundle that depends on the feature service has all that the bundle asks for,
and the features are known and entitle to it (`isEntitled_decideBundle_iff`). The decisions about
all bundles are the decisions about the bundles of the registry, one by one.
-/

namespace Licensing

/-! ### What a bundle asks for -/

namespace Identity

/-- The caller has what a bundle asks for, one thing after the other. -/
structure Meets (i : Identity) (a : Attributes) : Prop where
  /-- The account number is there and known. -/
  account : a.useValidAccNum = true → i.accountNumber ≠ "" ∧ i.accountNumber ≠ "-1"
  /-- The organization is there and known. -/
  org : a.useValidOrgId = true → i.orgId ≠ "" ∧ i.orgId ≠ "-1"
  /-- The caller is internal, which the end of its mail address shows. -/
  internal : a.useIsInternal = true →
    i.isInternal = true ∧ ∃ user, i.email = user ++ "@redhat.com"

theorem isValidId_iff {id : String} : isValidId id = true ↔ id ≠ "" ∧ id ≠ "-1" := by
  rw [isValidId, Bool.and_eq_true, decide_eq_true_iff, decide_eq_true_iff, unknownId]

theorem isInternalUser_iff {i : Identity} : i.isInternalUser = true ↔
    i.isInternal = true ∧ ∃ user, i.email = user ++ "@redhat.com" := by
  rw [isInternalUser, Bool.and_eq_true, List.isSuffixOf_iff_suffix]
  refine and_congr_right fun _ ↦ ?_
  constructor
  · rintro ⟨cs, hcs⟩
    refine ⟨String.ofList cs, String.toList_injective ?_⟩
    rw [← hcs, String.toList_append, String.toList_ofList]
    rfl
  · rintro ⟨user, hemail⟩
    exact ⟨user.toList, by rw [hemail, String.toList_append]; rfl⟩

theorem satisfies_iff {i : Identity} {a : Attributes} :
    i.satisfies a = true ↔ i.Meets a := by
  -- Each clause is an implication written with `!` and `||`.
  have imp_iff : ∀ p q : Bool, (!p || q) = true ↔ (p = true → q = true) := by decide
  rw [satisfies, Bool.and_eq_true, Bool.and_eq_true, imp_iff, imp_iff, imp_iff, hasValidAccount,
    hasValidOrg, isValidId_iff, isValidId_iff, isInternalUser_iff]
  exact ⟨fun ⟨⟨hacc, horg⟩, hint⟩ ↦ ⟨hacc, horg, hint⟩, fun ⟨hacc, horg, hint⟩ ↦
    ⟨⟨hacc, horg⟩, hint⟩⟩

end Identity

/-! ### Decisions -/

section Decisions

variable {i : Identity} {b : Bundle} {s : Snapshot} {degraded : Bool} {filter : BundleFilter}
  {r : Registry} {name : String} {dec : Decision}

/-- **Who is entitled to a bundle with products.** Everything that the decision looks at is on the
right: the flags of the bundle, the identity, and one feature. -/
theorem isEntitled_decideBundle_iff (hb : b.isSkuBased = true) :
    (decideBundle i b s degraded).isEntitled = true ↔ i.satisfies b.attributes = true ∧
      degraded = false ∧ ∃ f, s.find? b.name = some f ∧ f.entitled = true := by
  rw [decideBundle, if_neg (by simp [hb])]
  cases degraded with
  | true => simp [Decision.denied]
  | false =>
    cases hf : s.find? b.name with
    | none => simp [Decision.denied]
    | some f => simp

theorem get?_evaluateBundles : (evaluateBundles i filter r s degraded).get? name =
    ((r.get? name).filter fun _ ↦ filter.admits name).map (decideBundle i · s degraded) := by
  rw [evaluateBundles, OrderedMap.get?_map, OrderedMap.get?_filter, Registry.get?]

/-- A decision about a bundle is the decision about the bundle of that name in the registry. -/
theorem eq_decideBundle_of_get? (hb : r.get? name = some b)
    (hdec : (evaluateBundles i filter r s degraded).get? name = some dec) :
    dec = decideBundle i b s degraded := by
  rw [get?_evaluateBundles, hb] at hdec
  obtain ⟨b', hb', rfl⟩ := Option.map_eq_some_iff.1 hdec
  obtain rfl := Option.some.inj (Option.filter_eq_some_iff.1 hb').1
  rfl

/-- A bundle without products is decided by the identity alone. -/
theorem decideBundle_of_not_isSkuBased (hb : b.isSkuBased = false) :
    decideBundle i b s degraded = ⟨i.satisfies b.attributes, false⟩ := by
  rw [decideBundle, if_pos (by simp [hb])]

/-- Of a snapshot only the feature of the bundle's name counts. -/
theorem decideBundle_congr {s' : Snapshot} (h : s.find? b.name = s'.find? b.name) :
    decideBundle i b s degraded = decideBundle i b s' degraded := by
  rw [decideBundle, decideBundle, h]

/-- And that feature does count. -/
theorem decideBundle_ne (hb : b.isSkuBased = true) :
    decideBundle i b ⟨[⟨b.name, true, false⟩]⟩ false ≠ decideBundle i b .empty false := by
  simp [decideBundle, hb, Snapshot.find?, Snapshot.empty, Decision.denied]

end Decisions

end Licensing
