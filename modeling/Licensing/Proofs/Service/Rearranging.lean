import Licensing.Proofs.Filter
import Licensing.Proofs.Form
import Licensing.Service.Traffic

/-!
# The same question in other words

Names of bundles may be listed in one value or in several, in any order, and more than once. What
counts is which names are listed (`mem_namesOf`), so a query can be rearranged (`Rearranged`) and
asks the same (`filter_of_rearranged`). The lists of all values are joined by commas and split
again; splitting undoes joining whatever is in the values, so no value can change what another one
lists.

Whether features have to be asked for anew is told by the last parameter for it alone
(`fresh_eq_true_iff`).
-/

namespace Licensing.Service

variable {query query' : Option String} {param name value : String}
  {ps qs : List (String × String)}

/-! ### Items -/

/-- A name is an item of a parameter: it stands between the commas of one of its values, with or
without blanks around it. -/
def IsItem (ps : List (String × String)) (param name : String) : Prop :=
  name ≠ "" ∧ ∃ value, (param, value) ∈ ps ∧
    ∃ item ∈ Text.splitText ',' value, Text.trim item = name

theorem isItem_iff : IsItem ps param name ↔
    ∃ value, (param, value) ∈ ps ∧ name ∈ BundleFilter.names value := by
  simp only [IsItem, BundleFilter.mem_names]
  constructor
  · rintro ⟨hne, value, hvalue, hitem⟩
    exact ⟨value, hvalue, hne, hitem⟩
  · rintro ⟨value, hvalue, hne, hitem⟩
    exact ⟨hne, value, hvalue, hitem⟩

theorem isItem_cons {p : String × String} : IsItem (p :: ps) param name ↔
    (param = p.1 ∧ name ∈ BundleFilter.names p.2) ∨ IsItem ps param name := by
  obtain ⟨param', value⟩ := p
  simp only [isItem_iff, List.mem_cons, Prod.mk.injEq, or_and_right, exists_or]
  simp

/-- The names that a parameter lists. -/
def namesOf (ps : List (String × String)) (param : String) : List String :=
  ((joinValues param ps).map BundleFilter.names).getD []

/-- **What a parameter lists are the items of its values**, wherever the parameter stands and
however often. -/
theorem mem_namesOf : name ∈ namesOf ps param ↔ IsItem ps param name := by
  have hjoined : namesOf ps param =
      BundleFilter.names (",".intercalate ((ps.filter fun p ↦ p.1 = param).map (·.2))) := by
    rw [namesOf, joinValues]
    split
    · rename_i hnil
      rw [hnil]
      decide
    · rfl
  rw [hjoined, BundleFilter.mem_names_intercalate, isItem_iff]
  simp

theorem namesOf_pairwise (ps : List (String × String)) (param : String) :
    (namesOf ps param).Pairwise (· < ·) := by
  rw [namesOf]
  cases joinValues param ps with
  | none => exact .nil
  | some list => exact BundleFilter.names_pairwise list

theorem namesOf_congr (h : ∀ name, IsItem ps param name ↔ IsItem qs param name) :
    namesOf ps param = namesOf qs param :=
  (namesOf_pairwise ps param).eq_of_mem_iff (namesOf_pairwise qs param) fun name ↦ by
    rw [mem_namesOf, mem_namesOf, h]

/-! ### Rearranging -/

/-- Parameters are rearranged when they are put in another order, when the values of one parameter
are joined by a comma or a value is split at one, when an item is repeated, or when there are others
that have nothing to do with bundles. -/
inductive Rearranged : List (String × String) → List (String × String) → Prop where
  /-- The parameters are put in another order. -/
  | permuted {ps qs : List (String × String)} (h : ps.Perm qs) : Rearranged ps qs
  /-- Two values of a parameter are joined by a comma. -/
  | joined (param value value' : String) (ps : List (String × String)) :
    Rearranged ((param, value) :: (param, value') :: ps) ((param, value ++ "," ++ value') :: ps)
  /-- An item of a value is repeated. -/
  | repeated {param value item : String} {ps : List (String × String)}
    (h : item ∈ Text.splitText ',' value) :
    Rearranged ((param, value) :: ps) ((param, item) :: (param, value) :: ps)
  /-- There is another parameter. -/
  | added {param : String} (value : String) (ps : List (String × String))
    (h : param ≠ "include_bundles" ∧ param ≠ "exclude_bundles") :
    Rearranged ps ((param, value) :: ps)
  /-- What was rearranged can be put back. -/
  | symm {ps qs : List (String × String)} (h : Rearranged ps qs) : Rearranged qs ps
  /-- What was rearranged can be rearranged again. -/
  | trans {ps qs rs : List (String × String)} (h : Rearranged ps qs) (h' : Rearranged qs rs) :
    Rearranged ps rs

theorem isItem_of_perm (h : ps.Perm qs) : IsItem ps param name ↔ IsItem qs param name := by
  simp only [isItem_iff, h.mem_iff]

/-- **No name is lost or added when parameters are rearranged**: neither by another order, nor by
putting two values into one with a comma between them. -/
theorem Rearranged.isItem_iff (h : Rearranged ps qs)
    (hparam : param = "include_bundles" ∨ param = "exclude_bundles") :
    IsItem ps param name ↔ IsItem qs param name := by
  induction h with
  | permuted h => exact isItem_of_perm h
  | joined param' value value' ps =>
    rw [isItem_cons, isItem_cons, isItem_cons, BundleFilter.mem_names_append, ← or_assoc,
      ← and_or_left]
  | repeated h =>
    refine (isItem_cons.trans (or_iff_right_of_imp ?_)).symm
    rintro ⟨heq, hname⟩
    exact isItem_cons.2 (.inl ⟨heq, BundleFilter.names_subset_of_mem_split h hname⟩)
  | added value ps h =>
    refine (isItem_cons.trans (or_iff_right ?_)).symm
    rintro ⟨rfl, -⟩
    exact hparam.elim h.1 h.2
  | symm h ih => exact ih.symm
  | trans h h' ih ih' => exact ih.trans ih'

/-- The filter of a query is told by the names that it lists. -/
theorem filter_servicesQuery (query : Option String) : (servicesQuery query).filter =
    ⟨namesOf (queryPairs query) "include_bundles", namesOf (queryPairs query) "exclude_bundles"⟩ :=
  rfl

theorem filter_of_rearranged (h : Rearranged (queryPairs query) (queryPairs query')) :
    (servicesQuery query).filter = (servicesQuery query').filter := by
  rw [filter_servicesQuery, filter_servicesQuery, namesOf_congr fun _ ↦ h.isItem_iff (.inl rfl),
    namesOf_congr fun _ ↦ h.isItem_iff (.inr rfl)]

/-! ### The last parameter -/

/-- A value is the last that a parameter has. -/
def IsLast (ps : List (String × String)) (param value : String) : Prop :=
  ∃ before after, ps = before ++ (param, value) :: after ∧ ∀ p ∈ after, p.1 ≠ param

theorem isLast_iff : IsLast ps param value ↔
    (ps.filter fun p ↦ p.1 = param).getLast? = some (param, value) := by
  constructor
  · rintro ⟨before, after, rfl, hafter⟩
    have hnone : after.filter (fun p ↦ p.1 = param) = [] :=
      List.filter_eq_nil_iff.2 fun p hp ↦ by simpa using hafter p hp
    simp [hnone]
  · intro hlast
    obtain ⟨front, hfront⟩ := List.getLast?_eq_some_iff.1 hlast
    obtain ⟨before, rest, rfl, -, hrest⟩ := List.filter_eq_append_iff.1 hfront
    obtain ⟨between, after, rfl, -, -, hafter⟩ := List.filter_eq_cons_iff.1 hrest
    refine ⟨before ++ between, after, by rw [List.append_assoc], fun p hp ↦ ?_⟩
    simpa using List.filter_eq_nil_iff.1 hafter p hp

/-- **Only the last parameter tells whether features have to be asked for anew**, so an earlier one
that says otherwise does not count. -/
theorem fresh_eq_true_iff : (servicesQuery query).fresh = true ↔
    ∃ value, IsLast (queryPairs query) "trial_activated" value ∧ meansYes value = true := by
  simp only [isLast_iff, servicesQuery]
  split
  · rename_i p hp
    have hparam : p.1 = "trial_activated" := by
      simpa using (List.mem_filter.1 (List.mem_of_getLast? hp)).2
    constructor
    · intro hyes
      exact ⟨p.2, by rw [hp, ← hparam], hyes⟩
    · rintro ⟨value, hlast, hyes⟩
      rw [hp] at hlast
      rwa [Option.some.inj hlast]
  · rename_i hnone
    simp [hnone]

/-! ### Lines

What is said about parameters holds of the lines that they are read from: the pieces between
ampersands may be put in another order, and the values of two of them joined by a comma. -/

theorem queryPairs_intercalate (lines : List String) : queryPairs (some ("&".intercalate lines)) =
    lines.flatMap fun line ↦ queryPairs (some line) :=
  Form.decode_intercalate lines

theorem rearranged_of_perm {lines lines' : List String} (h : lines.Perm lines') :
    Rearranged (queryPairs (some ("&".intercalate lines)))
      (queryPairs (some ("&".intercalate lines'))) := by
  rw [queryPairs_intercalate, queryPairs_intercalate]
  exact .permuted (h.flatMap_right _)

/-- Values that are not next to others can be joined, too. -/
theorem rearranged_joined (before after : List (String × String)) (param value value' : String) :
    Rearranged (before ++ (param, value) :: (param, value') :: after)
      (before ++ (param, value ++ "," ++ value') :: after) := by
  have hfront : Rearranged (before ++ (param, value) :: (param, value') :: after)
      ((param, value) :: (param, value') :: (before ++ after)) :=
    .permuted (List.perm_middle.trans (List.perm_middle.cons _))
  exact (hfront.trans (.joined _ _ _ _)).trans (.permuted List.perm_middle.symm)

theorem rearranged_of_joined {param value value' : String} (hparam : '=' ∉ param.toList)
    (hline : '&' ∉ (param ++ "=" ++ value ++ "," ++ value').toList) (before after : List String) :
    Rearranged
      (queryPairs (some ("&".intercalate
        (before ++ (param ++ "=" ++ value) :: (param ++ "=" ++ value') :: after))))
      (queryPairs (some ("&".intercalate
        (before ++ (param ++ "=" ++ value ++ "," ++ value') :: after)))) := by
  have hbytes : Utf8.encodeText (value ++ "," ++ value') =
      Utf8.encodeText value ++ 0x2C :: Utf8.encodeText value' := by
    simp [Utf8.encodeText, Utf8.encode_cons_of_ascii]
  have hjoined : param ++ "=" ++ value ++ "," ++ value' =
      param ++ "=" ++ (value ++ "," ++ value') := by
    simp only [String.append_assoc]
  have hread : ∀ value, '&' ∉ (param ++ "=" ++ value).toList →
      queryPairs (some (param ++ "=" ++ value)) = [(Form.decodeBytes (Utf8.encodeText param),
        Form.decodeBytes (Utf8.encodeText value))] := fun _ ↦ Form.decode_pair hparam
  rw [hjoined] at hline ⊢
  have hvalue : '&' ∉ (param ++ "=" ++ value).toList := by
    simp only [String.toList_append, List.mem_append, not_or] at hline ⊢
    exact ⟨hline.1, hline.2.1.1⟩
  have hvalue' : '&' ∉ (param ++ "=" ++ value').toList := by
    simp only [String.toList_append, List.mem_append, not_or] at hline ⊢
    exact ⟨hline.1, hline.2.2⟩
  simp only [queryPairs_intercalate, List.flatMap_append, List.flatMap_cons, hread _ hline,
    hread _ hvalue, hread _ hvalue', hbytes, Form.decodeBytes_append_cons, List.singleton_append]
  exact rearranged_joined _ _ _ _ _

/-! ### The main statement -/

/-- What a query asks about bundles, and that it asks the same in other words. -/
structure Rearrangeable (query : Option String) : Prop where
  /-- The names that are included are the items of all values for them together. -/
  included : ∀ name, name ∈ (servicesQuery query).filter.included ↔
    IsItem (queryPairs query) "include_bundles" name
  /-- So are the names that are excluded. -/
  excluded : ∀ name, name ∈ (servicesQuery query).filter.excluded ↔
    IsItem (queryPairs query) "exclude_bundles" name
  /-- Each name is there once. -/
  ascending : (servicesQuery query).filter.included.Pairwise (· < ·) ∧
    (servicesQuery query).filter.excluded.Pairwise (· < ·)
  /-- The filter stays as it is when the parameters are rearranged. -/
  filter : ∀ query', Rearranged (queryPairs query) (queryPairs query') →
    (servicesQuery query').filter = (servicesQuery query).filter
  /-- So it does when the pieces of the line are put in another order. -/
  reordered : ∀ lines lines' : List String, query = some ("&".intercalate lines) →
    lines.Perm lines' →
      (servicesQuery (some ("&".intercalate lines'))).filter = (servicesQuery query).filter
  /-- So it does when the values of two pieces are joined by a comma, whatever is escaped in them,
  or a value is split at one. -/
  joined : ∀ (before after : List String) (param value value' : String), '=' ∉ param.toList →
    '&' ∉ (param ++ "=" ++ value ++ "," ++ value').toList →
    query = some ("&".intercalate
      (before ++ (param ++ "=" ++ value) :: (param ++ "=" ++ value') :: after)) →
      (servicesQuery (some ("&".intercalate
        (before ++ (param ++ "=" ++ value ++ "," ++ value') :: after)))).filter =
          (servicesQuery query).filter
  /-- Whether features have to be asked for anew is told by the last parameter for it. -/
  fresh : (servicesQuery query).fresh = true ↔
    ∃ value, IsLast (queryPairs query) "trial_activated" value ∧ meansYes value = true
  /-- As long as that one stays the last, the answer is the same. -/
  answered : ∀ query', Rearranged (queryPairs query) (queryPairs query') →
    (∀ value, IsLast (queryPairs query') "trial_activated" value ↔
      IsLast (queryPairs query) "trial_activated" value) →
    (∀ {σ : Type} (b : Backends σ) (s : State σ) (i : Identity),
      handleServices b s i query' = handleServices b s i query) ∧
    ∀ i, evaluationRequest i query' = evaluationRequest i query

/-- **The order and the number of parameters do not matter**, nor does how often a name is listed:
all that matters is which names are listed. -/
theorem rearrangeable (query : Option String) : Rearrangeable query where
  included _ := mem_namesOf
  excluded _ := mem_namesOf
  ascending := ⟨namesOf_pairwise _ _, namesOf_pairwise _ _⟩
  filter query' h := (filter_of_rearranged h).symm
  reordered lines lines' hquery h := by
    subst hquery
    exact (filter_of_rearranged (rearranged_of_perm h)).symm
  joined before after param value value' hparam hline hquery := by
    subst hquery
    exact (filter_of_rearranged (rearranged_of_joined hparam hline before after)).symm
  fresh := fresh_eq_true_iff
  answered query' h hlast := by
    have hfilter : (servicesQuery query').filter = (servicesQuery query).filter :=
      (filter_of_rearranged h).symm
    have hfresh : (servicesQuery query').fresh = (servicesQuery query).fresh := by
      rw [Bool.eq_iff_iff, fresh_eq_true_iff, fresh_eq_true_iff]
      exact exists_congr fun value ↦ and_congr_left' (hlast value)
    constructor
    · intro σ b s i
      rw [handleServices, handleServices, hfilter, hfresh]
    · intro i
      rw [evaluationRequest, evaluationRequest, hfilter, hfresh]

example : (servicesQuery (some "include_bundles=b,&x=1&include%5Fbundles=%2C+a%2Cb")).filter =
    (servicesQuery (some "include_bundles=a,b")).filter := by decide +kernel

end Licensing.Service
