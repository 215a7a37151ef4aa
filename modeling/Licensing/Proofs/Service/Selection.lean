import Licensing.Proofs.Filter
import Licensing.Proofs.Form
import Licensing.Proofs.Ruling
import Licensing.Proofs.Service.Degradation

/-!
# Asking about bundles by name

Who lists names of bundles in a query is told about these bundles and no others, and who lists them
as excluded is told about all others (`chooses_of_ofDefinitions`). Lists are separated by commas,
and blanks around the items do not count, but the names in a registry may have both. A bundle with
such a name cannot be asked about: it is in an answer exactly when the query includes no names,
whatever it lists (`comma_not_included`).
-/

namespace Licensing.Service

open BundleFilter (Listable)

variable {r : Registry} {i : Identity} {query : Option String} {answer : Response}
  {ns : List String} {n param : String} {l : Cache.Lookup} {filter : BundleFilter}

/-! ### Lists of names in a query -/

/-- The values of a parameter are a list of names with commas. -/
def Lists (query : Option String) (param : String) (ns : List String) : Prop :=
  joinValues param (queryPairs query) = some (",".intercalate ns)

/-- A query with a list of names. Each stands there as in a form, with commas between them. -/
def listing (param : String) (ns : List String) : String :=
  param ++ "=" ++ ",".intercalate (ns.map fun n ↦ String.ofList (Form.encodeChars n))

theorem lists_of_pair (h : queryPairs query = [(param, ",".intercalate ns)]) :
    Lists query param ns := by
  rw [Lists, h]
  simp [joinValues]

theorem toList_listing (param : String) (ns : List String) : (listing param ns).toList =
    param.toList ++ '=' :: [','].intercalate (ns.map Form.encodeChars) := by
  have htexts : (ns.map fun n ↦ String.ofList (Form.encodeChars n)).map String.toList =
      ns.map Form.encodeChars := by
    simp
  rw [listing, String.toList_append, String.toList_append, String.toList_intercalate, htexts]
  simp

theorem lists_listing (hparam : Form.encodeChars param = param.toList) (ns : List String) :
    Lists (some (listing param ns)) param ns := by
  have hline : Utf8.encodeText (listing param ns) = Utf8.encode (Form.encodeChars param) ++
      0x3D :: Utf8.encode ([','].intercalate (ns.map Form.encodeChars)) := by
    rw [Utf8.encodeText, toList_listing, Utf8.encode_append,
      Utf8.encode_cons_of_ascii (by decide), hparam]
    rfl
  refine lists_of_pair ?_
  rw [queryPairs, Option.map_some, Option.getD_some,
    Form.decode_of_not_mem (Form.ampersand_not_mem_intercalate ns) hline,
    Form.decodeBytes_intercalate]

theorem lists_encode (param : String) (ns : List String) :
    Lists (some (Form.encode [(param, ",".intercalate ns)])) param ns :=
  lists_of_pair (by rw [queryPairs, Option.map_some, Option.getD_some, Form.decode_encode])

/-! ### Answers -/

/-- The names of the bundles that an answer tells about. -/
def bundleNames? (answer : Response) : Option (List String) :=
  match answer.body with
  | .json (.object fields) => some (fields.map Prod.fst)
  | _ => none

/-- What a request about bundles is answered with, alone or among others, unless everybody is
entitled to everything. -/
inductive Answers (r : Registry) (i : Identity) (query : Option String) : Response → Prop where
  /-- The request is answered whatever the services behind do and whatever is remembered. -/
  | alone {σ : Type} (b : Backends σ) (st : State σ) (hr : st.evaluator.registry = r)
    (hall : st.evaluator.entitleAll = false) : Answers r i query (handleServices b st i query).1
  /-- It is answered in the course of others. -/
  | together {cfg : Cache.Config} {es : List Evaluations.Event} {s : Evaluations} {k : Nat}
    {caller : Option Nat} {answer : Response}
    (hrun : (Evaluations.start r cfg false).run es = some s)
    (hk : s.started[k]? = some (evaluationRequest i query, caller))
    (ha : answer? s k = some answer) : Answers r i query answer

theorem Answers.exists_lookup (h : Answers r i query answer) : ∃ l,
    answer = evaluationResponse (.ofLookup r i (servicesQuery query).filter l) := by
  cases h with
  | alone b st hr hall =>
    subst hr
    rw [handleServices_fst, Evaluator.evaluate, if_neg (by simp [hall])]
    exact ⟨_, rfl⟩
  | together hrun hk ha =>
    obtain ⟨haligned, -⟩ := (Evaluations.aligned_start r _).run hrun
    obtain ⟨ev, hev, rfl⟩ := Option.map_eq_some_iff.1 ha
    obtain ⟨c, l, -, -, -, rfl⟩ := haligned.exists_lookup hk hev
    exact ⟨l, rfl⟩

/-- Whatever is known of the features, the answer tells about the bundles that are asked about. -/
theorem bundleNames?_evaluationResponse :
    bundleNames? (evaluationResponse (.ofLookup r i filter l)) =
      some (r.bundles.keys.filter filter.admits) := by
  rw [bundleNames?, body_evaluationResponse]
  simp only [Evaluation.ofLookup, evaluateBundles, OrderedMap.map, OrderedMap.filter,
    OrderedMap.keys, List.map_map, List.filter_map]
  rfl

theorem Answers.bundleNames?_eq (h : Answers r i query answer) : bundleNames? answer =
    some (r.bundles.keys.filter (servicesQuery query).filter.admits) := by
  obtain ⟨l, rfl⟩ := h.exists_lookup
  exact bundleNames?_evaluationResponse

/-! ### What is asked about -/

/-- A list of names in a query. -/
theorem names_of_lists (h : Lists query param ns) (hns : ∀ n ∈ ns, Listable n ∧ n ≠ "") :
    ((joinValues param (queryPairs query)).map BundleFilter.names).getD [] = ascending ns := by
  rw [h, Option.map_some, Option.getD_some, BundleFilter.names_intercalate hns]

theorem Answers.bundleNames?_of_included (h : Answers r i query answer) (hne : ns ≠ [])
    (hkeys : ns ⊆ r.bundles.keys) (hns : ∀ n ∈ ns, Listable n ∧ n ≠ "")
    (hlists : Lists query "include_bundles" ns) : bundleNames? answer = some (ascending ns) := by
  have hincluded : (servicesQuery query).filter.included = ascending ns :=
    names_of_lists hlists hns
  rw [h.bundleNames?_eq]
  refine congrArg some (eq_ascending (r.bundles.keys_pairwise.filter _) fun n ↦ ?_)
  rw [List.mem_filter, BundleFilter.admits_iff, BundleFilter.Means, hincluded, mem_ascending, ne_eq,
    ascending_eq_nil_iff]
  constructor
  · rintro ⟨-, ⟨-, hn⟩ | ⟨hnil, -⟩⟩
    · exact hn
    · exact absurd hnil hne
  · intro hn
    exact ⟨hkeys hn, .inl ⟨hne, hn⟩⟩

theorem Answers.bundleNames?_of_excluded (h : Answers r i query answer)
    (hns : ∀ n ∈ ns, Listable n ∧ n ≠ "") (hlists : Lists query "exclude_bundles" ns)
    (hall : (servicesQuery query).included = none) :
    bundleNames? answer = some (r.bundles.keys.filter fun n ↦ n ∉ ns) := by
  have hexcluded : (servicesQuery query).filter.excluded = ascending ns :=
    names_of_lists hlists hns
  have hincluded : (servicesQuery query).filter.included = [] := by
    rw [ServicesQuery.filter, BundleFilter.ofLists, hall]
    rfl
  rw [h.bundleNames?_eq]
  refine congrArg some (List.filter_congr fun n _ ↦ ?_)
  rw [Bool.eq_iff_iff, BundleFilter.admits_iff, BundleFilter.Means, hincluded, hexcluded,
    mem_ascending]
  simp

/-- A name that no list can hold is neither included nor excluded. -/
theorem Answers.mem_bundleNames?_iff (h : Answers r i query answer) (hn : n ∈ r.bundles.keys)
    (hlist : ¬ Listable n) : ∃ ms, bundleNames? answer = some ms ∧
      (n ∈ ms ↔ (servicesQuery query).filter.included = []) := by
  have hnone : ∀ list : Option String, n ∉ (list.map BundleFilter.names).getD [] := by
    intro list hmem
    cases list with
    | none => cases hmem
    | some list => exact hlist (BundleFilter.listable_of_mem_names hmem)
  refine ⟨_, h.bundleNames?_eq, ?_⟩
  rw [List.mem_filter, BundleFilter.admits_iff, BundleFilter.Means]
  constructor
  · rintro ⟨-, ⟨-, hmem⟩ | ⟨hnil, -⟩⟩
    · exact absurd hmem (hnone _)
    · exact hnil
  · intro hnil
    exact ⟨hn, .inr ⟨hnil, hnone _⟩⟩

/-- What lists of names come to, for the bundles of a registry. -/
structure Chooses (r : Registry) : Prop where
  /-- Who lists names of bundles is told about these, and no others. -/
  included : ∀ i query ns answer, Answers r i query answer → ns ≠ [] →
    (∀ n ∈ ns, n ∈ r.all.map Bundle.name ∧ Listable n) → Lists query "include_bundles" ns →
      bundleNames? answer = some (ascending ns)
  /-- Who lists them as excluded, and has no list to be included, is told about the others. -/
  excluded : ∀ i query ns answer, Answers r i query answer →
    (∀ n ∈ ns, n ∈ r.all.map Bundle.name ∧ Listable n) → Lists query "exclude_bundles" ns →
      (servicesQuery query).included = none →
        bundleNames? answer = some ((r.all.map Bundle.name).filter fun n ↦ n ∉ ns)
  /-- A bundle whose name cannot be listed is left out when any names are included, and only
  then. -/
  unlistable : ∀ i query answer n, Answers r i query answer → n ∈ r.all.map Bundle.name →
    ¬ Listable n → ∃ ms, bundleNames? answer = some ms ∧
      (n ∈ ms ↔ (servicesQuery query).filter.included = [])
  /-- A list can be written with its names as in a form and commas between them. -/
  listing : ∀ ns, Lists (some (listing "include_bundles" ns)) "include_bundles" ns ∧
    Lists (some (listing "exclude_bundles" ns)) "exclude_bundles" ns
  /-- It can be written as in a form altogether. -/
  encode : ∀ param ns, Lists (some (Form.encode [(param, ",".intercalate ns)])) param ns

/-- **Bundles can be asked about by name**, and left out by name, if their names can be listed. -/
theorem chooses_of_ofDefinitions {ds : List Definition} {suffix : String}
    (hr : Registry.ofDefinitions ds suffix = .ok r) : Chooses r := by
  have hnames : r.all.map Bundle.name = r.bundles.keys := Registry.map_name_all hr
  have hnamed : ∀ {ns : List String}, (∀ n ∈ ns, n ∈ r.bundles.keys ∧ Listable n) →
      ∀ n ∈ ns, Listable n ∧ n ≠ "" := fun hns n hn ↦
    ⟨(hns n hn).2, Registry.ne_empty_of_mem_keys hr (hns n hn).1⟩
  constructor
  case included =>
    rw [hnames]
    intro i query ns answer hanswer hne hns hlists
    exact hanswer.bundleNames?_of_included hne (fun n hn ↦ (hns n hn).1) (hnamed hns) hlists
  case excluded =>
    rw [hnames]
    intro i query ns answer hanswer hns hlists hall
    exact hanswer.bundleNames?_of_excluded (hnamed hns) hlists hall
  case unlistable =>
    rw [hnames]
    intro i query answer n hanswer hn hlist
    exact hanswer.mem_bundleNames?_iff hn hlist
  case listing => exact fun ns ↦ ⟨lists_listing (by decide) ns, lists_listing (by decide) ns⟩
  case encode => exact lists_encode

/-- Services behind that tell nothing. -/
def silent : Backends Unit where
  features _ _ := (.ok .empty, ())
  seats _ _ := (.error (.timeout ""), ())
  screening := none

/-- A service that has just started. -/
def newlyStarted (r : Registry) : State Unit where
  evaluator := .start r ⟨1000, 2⟩ false
  envelopes := ⟨none⟩
  metrics := default
  world := ()
  apiVersion := ""
  commit := ""
  openapiFile := ""

/-- What somebody is told about who has nothing. -/
def toldNames (r : Registry) (query : String) : Option (List String) :=
  bundleNames? (handleServices silent (newlyStarted r) default (some query)).1

theorem answers_newlyStarted (r : Registry) (i : Identity) (query : Option String) :
    Answers r i query (handleServices silent (newlyStarted r) i query).1 :=
  .alone silent (newlyStarted r) rfl rfl

/-- Two definitions with a product that is paid for. -/
def spacedAndJoined : List Definition :=
  [⟨"a b", default, [], ["MCT1"], []⟩, ⟨"c&d", default, [], ["MCT2"], []⟩]

/-- A registry and the names that are in it. -/
theorem exists_of_map_names {ds : List Definition} {suffix : String}
    (h : (Registry.ofDefinitions ds suffix).map (fun r ↦ r.all.map Bundle.name) = .ok ns) :
    ∃ r, Registry.ofDefinitions ds suffix = .ok r ∧ r.all.map Bundle.name = ns := by
  cases hr : Registry.ofDefinitions ds suffix with
  | error e =>
    rw [hr] at h
    cases h
  | ok r =>
    rw [hr] at h
    exact ⟨r, rfl, Except.ok.inj h⟩

theorem chooses_spacedAndJoined : ∃ r, Registry.ofDefinitions spacedAndJoined "_paid" = .ok r ∧
    Chooses r ∧ toldNames r "include_bundles=c%26d,a+b_paid" = some ["a b_paid", "c&d"] ∧
    toldNames r "exclude_bundles=c%26d,a+b_paid" = some ["a b", "c&d_paid"] := by
  have hbuilt : (Registry.ofDefinitions spacedAndJoined "_paid").map
      (fun r ↦ r.all.map Bundle.name) = .ok ["a b", "a b_paid", "c&d", "c&d_paid"] := by decide
  obtain ⟨r, hr, hnames⟩ := exists_of_map_names hbuilt
  have hchooses := chooses_of_ofDefinitions hr
  have hlisted : ∀ n ∈ ["c&d", "a b_paid"], n ∈ r.all.map Bundle.name ∧ Listable n := by
    rw [hnames]
    simp only [List.forall_mem_cons]
    exact ⟨⟨by decide, by decide, by decide⟩, ⟨by decide, by decide, by decide⟩, by simp⟩
  refine ⟨r, hr, hchooses, ?_, ?_⟩
  · have hlist : listing "include_bundles" ["c&d", "a b_paid"] =
        "include_bundles=c%26d,a+b_paid" := by decide
    have htold := hchooses.included default _ _ _ (answers_newlyStarted r _ _) (by simp) hlisted
      (hchooses.listing _).1
    rw [hlist] at htold
    exact htold.trans (congrArg some (by decide))
  · have hlist : listing "exclude_bundles" ["c&d", "a b_paid"] =
        "exclude_bundles=c%26d,a+b_paid" := by decide
    have htold := hchooses.excluded default _ _ _ (answers_newlyStarted r _ _) hlisted
      (hchooses.listing _).2 (by decide)
    rw [hlist, hnames] at htold
    exact htold.trans (congrArg some (by decide))

/-- **A bundle that cannot be asked about by name.** -/
theorem comma_not_included : ∃ r,
    Registry.ofDefinitions [⟨"a,b", default, [], [], []⟩] "_paid" = .ok r ∧
      r.all.map Bundle.name = ["a,b"] ∧
      Lists (some "include_bundles=a%2Cb") "include_bundles" ["a,b"] ∧
      toldNames r "include_bundles=a%2Cb" = some [] := by
  have hbuilt : (Registry.ofDefinitions [⟨"a,b", default, [], [], []⟩] "_paid").map
      (fun r ↦ r.all.map Bundle.name) = .ok ["a,b"] := by decide
  obtain ⟨r, hr, hnames⟩ := exists_of_map_names hbuilt
  have htold := (answers_newlyStarted r default (some "include_bundles=a%2Cb")).bundleNames?_eq
  rw [← Registry.map_name_all hr, hnames] at htold
  exact ⟨r, hr, hnames, by rw [Lists]; decide, htold.trans (congrArg some (by decide))⟩

end Licensing.Service
