import Licensing.Proofs.Bundle.Expansion
import Licensing.Proofs.Client.Noting
import Licensing.Proofs.Decision
import Licensing.Proofs.Url.Query

/-!
# What is asked of the feature service is what decisions depend on

The features in a question are written at the start, from the registry, and the bundles are decided
for each caller. Both go by the same bundles: those that depend on the feature service. The question
names them one by one, in ascending order, and the organization last, whatever characters are in the
names (`decode_query`), and it is this question that a network gets (`Asked.sends`). What is told
about other features makes no difference to any decision (`evaluateBundles_congr`,
`get?_evaluateBundles_congr`), while what is told about one of them makes one
(`exists_get?_evaluateBundles_ne`).
-/

namespace Licensing

open Client (FeatureClient Network)

variable {ds : List Definition} {suffix host basePath name : String} {r : Registry}
  {c : FeatureClient} {features : List String} {i : Identity} {filter : BundleFilter}

/-! ### The address -/

namespace Client

theorem mem_joinUrl {base path : String} {x : Char} (hx : x ∈ (joinUrl base path).toList) :
    x ∈ base.toList ∨ x = '/' ∨ x ∈ path.toList := by
  rw [joinUrl, String.toList_append, String.toList_append, List.mem_append, List.mem_append] at hx
  rcases hx with (hx | hx) | hx
  · rw [String.toList_ofList, List.mem_reverse] at hx
    exact .inl (List.mem_reverse.1 (List.dropWhile_subset _ hx))
  · exact .inr (.inl (by simpa using hx))
  · rw [String.toList_ofList] at hx
    exact .inr (.inr (List.dropWhile_subset _ hx))

namespace FeatureClient

/-- The path below the host where the service answers. -/
def endpointPath (basePath : String) : String :=
  String.ofList ((basePath.toList.reverse.dropWhile (· = '/')).reverse) ++ "/featureStatus"

/-- A client is made exactly when its address is a URL. -/
theorem create_eq_ok_iff : create host basePath features = .ok c ↔
    ∃ u, Url.parse (joinUrl host (endpointPath basePath)) = .ok u ∧
      c = ⟨u.extendQuery (features.map (("features", ·)))⟩ := by
  have hcreate : create host basePath features = (buildUrl service host (endpointPath basePath)
      (features.map (("features", ·)))).map .mk := rfl
  rw [hcreate, buildUrl]
  cases Url.parse (joinUrl host (endpointPath basePath)) with
  | ok u => simp [Except.map, eq_comm]
  | error e => simp [Except.map]

theorem mem_endpoint {x : Char} (hx : x ∈ (joinUrl host (endpointPath basePath)).toList) :
    x ∈ host.toList ∨ x ∈ basePath.toList ∨ x ∈ "/featureStatus".toList := by
  rcases mem_joinUrl hx with hx | rfl | hx
  · exact .inl hx
  · exact .inr (.inr (by decide))
  · rw [endpointPath, String.toList_append, List.mem_append, String.toList_ofList,
      List.mem_reverse] at hx
    exact .inr (hx.imp_left fun hx ↦ List.mem_reverse.1 (List.dropWhile_subset _ hx))

/-- **The question names the features, and then the organization**, and nothing else. Whatever is in
these names, the reader of the query has them back as they are. -/
theorem decode_query (hhost : '?' ∉ host.toList) (hbase : '?' ∉ basePath.toList)
    (hc : create host basePath features = .ok c) (org : String) :
    ∃ q, (c.request org).url.query = some q ∧
      Form.decode q = features.map (("features", ·)) ++ [("accountId", org)] := by
  obtain ⟨u, hu, rfl⟩ := create_eq_ok_iff.1 hc
  have hquestion : '?' ∉ (joinUrl host (endpointPath basePath)).toList := by
    intro hmem
    rcases mem_endpoint hmem with hmem | hmem | hmem
    · exact hhost hmem
    · exact hbase hmem
    · exact absurd hmem (by decide)
  refine ⟨Form.encode (features.map (("features", ·)) ++ [("accountId", org)]), ?_,
    Form.decode_encode _⟩
  simp only [request, urlFor, Url.extendQuery_append]
  exact Url.query_extendQuery_of_none (Url.query_of_parse hquestion hu) (by simp)

/-- Nothing that a network would make of other requests matters. -/
theorem fetch_congr {σ : Type} {network network' : Network σ} {s : σ} {org : String}
    (h : network s (c.request org) = network' s (c.request org)) :
    fetch network c s org = fetch network' c s org := by
  simp only [fetch, Client.fetch, h]

end FeatureClient

end Client

/-! ### Decisions -/

/-- Two snapshots say the same of features. -/
def Snapshot.AgreeOn (names : List String) (s s' : Snapshot) : Prop :=
  ∀ name ∈ names, s.find? name = s'.find? name

/-- **Of other features decisions do not depend.** The features that are asked for are those of the
bundles with products, and no other is looked at. -/
theorem evaluateBundles_congr (hr : Registry.ofDefinitions ds suffix = .ok r) {s s' : Snapshot}
    (h : s.AgreeOn r.skuBasedNames s') :
    evaluateBundles i filter r s false = evaluateBundles i filter r s' false := by
  refine OrderedMap.ext_get? fun name ↦ ?_
  rw [get?_evaluateBundles, get?_evaluateBundles]
  refine Option.map_congr fun b hb ↦ ?_
  have hget : r.get? name = some b := (Option.filter_eq_some_iff.1 hb).1
  cases hsku : b.isSkuBased with
  | false => rw [decideBundle_of_not_isSkuBased hsku, decideBundle_of_not_isSkuBased hsku]
  | true =>
    obtain rfl := Registry.name_of_get? hr hget
    exact decideBundle_congr (h _ ((Registry.mem_skuBasedNames_iff hr).2 ⟨b, hget, hsku⟩))

/-- The decision about a bundle that is not asked about is always the same. -/
theorem get?_evaluateBundles_congr (hr : Registry.ofDefinitions ds suffix = .ok r)
    (hname : name ∉ r.skuBasedNames) (s s' : Snapshot) (degraded degraded' : Bool) :
    (evaluateBundles i filter r s degraded).get? name =
      (evaluateBundles i filter r s' degraded').get? name := by
  rw [get?_evaluateBundles, get?_evaluateBundles]
  refine Option.map_congr fun b hb ↦ ?_
  have hget : r.get? name = some b := (Option.filter_eq_some_iff.1 hb).1
  have hsku : b.isSkuBased = false := by
    refine eq_false_of_ne_true fun hsku ↦ ?_
    exact hname ((Registry.mem_skuBasedNames_iff hr).2 ⟨b, hget, hsku⟩)
  rw [decideBundle_of_not_isSkuBased hsku, decideBundle_of_not_isSkuBased hsku]

/-- The decision about a bundle that is asked about depends on the feature of its name. -/
theorem exists_get?_evaluateBundles_ne (hr : Registry.ofDefinitions ds suffix = .ok r)
    (hname : name ∈ r.skuBasedNames) (hfilter : filter.admits name = true) :
    ∃ s s' : Snapshot, (∀ other ≠ name, s.find? other = s'.find? other) ∧
      (evaluateBundles i filter r s false).get? name ≠
        (evaluateBundles i filter r s' false).get? name := by
  obtain ⟨b, hget, hsku⟩ := (Registry.mem_skuBasedNames_iff hr).1 hname
  obtain rfl := Registry.name_of_get? hr hget
  refine ⟨⟨[⟨b.name, true, false⟩]⟩, .empty, fun other hne ↦ ?_, ?_⟩
  · simp [Snapshot.find?, Snapshot.empty, hne.symm]
  · rw [get?_evaluateBundles, get?_evaluateBundles, hget, Option.filter_some, if_pos hfilter,
      Option.map_some, Option.map_some]
    exact fun heq ↦ decideBundle_ne hsku (Option.some.inj heq)

/-! ### Both together -/

/-- What a client asks of the feature service is what the decisions over a registry depend on. -/
structure Asked (r : Registry) (c : FeatureClient) : Prop where
  /-- What is asked about is the bundles that depend on the feature service. -/
  mem_iff : ∀ name, name ∈ r.skuBasedNames ↔ ∃ b, r.get? name = some b ∧ b.isSkuBased = true
  /-- They are asked about in ascending order. -/
  pairwise : r.skuBasedNames.Pairwise (· < ·)
  /-- The question names them, and the organization. -/
  decode_query : ∀ org, ∃ q, (c.request org).url.query = some q ∧
    Form.decode q = r.skuBasedNames.map (("features", ·)) ++ [("accountId", org)]
  /-- Asking about an organization sends this question to the network, once and nothing else, where
  the address is that of a web service. -/
  sends : c.endpoint.scheme = "http" ∨ c.endpoint.scheme = "https" →
    ∀ (σ : Type) (network : Network σ) (log : List Client.Request) (s : σ) (org : String),
      (c.fetch network.noting (log, s) org).2.1 = log ++ [c.request org]
  /-- Otherwise nothing is sent. -/
  unsent : ¬(c.endpoint.scheme = "http" ∨ c.endpoint.scheme = "https") →
    ∀ (σ : Type) (network : Network σ) (log : List Client.Request) (s : σ) (org : String),
      (c.fetch network.noting (log, s) org).2.1 = log
  /-- What comes of it does not depend on the notes that are taken of it. -/
  fetch_noting : ∀ (σ : Type) (network : Network σ) (log : List Client.Request) (s : σ)
    (org : String), (c.fetch network.noting (log, s) org).1 = (c.fetch network s org).1
  /-- It depends on nothing but what the network makes of this question. -/
  fetch_congr : ∀ (σ : Type) (network network' : Network σ) (s : σ) (org : String),
    network s (c.request org) = network' s (c.request org) →
      c.fetch network s org = c.fetch network' s org
  /-- What is told about other features makes no difference. -/
  evaluate_congr : ∀ i filter (s s' : Snapshot),
    (∀ name ∈ r.skuBasedNames, s.find? name = s'.find? name) →
      evaluateBundles i filter r s false = evaluateBundles i filter r s' false
  /-- Nothing that is told makes a difference to the other bundles. -/
  get?_congr : ∀ i filter name, name ∉ r.skuBasedNames → ∀ s s' degraded degraded',
    (evaluateBundles i filter r s degraded).get? name =
      (evaluateBundles i filter r s' degraded').get? name
  /-- What is told about a feature that is asked about does make one. -/
  exists_ne : ∀ i filter name, name ∈ r.skuBasedNames → filter.admits name = true →
    ∃ s s' : Snapshot, (∀ other ≠ name, s.find? other = s'.find? other) ∧
      (evaluateBundles i filter r s false).get? name ≠
        (evaluateBundles i filter r s' false).get? name

/-- **What is asked of the feature service is exactly what decisions depend on.** -/
theorem asked_of_create (hr : Registry.ofDefinitions ds suffix = .ok r)
    (hhost : '?' ∉ host.toList) (hbase : '?' ∉ basePath.toList)
    (hc : FeatureClient.create host basePath r.skuBasedNames = .ok c) : Asked r c where
  mem_iff _ := Registry.mem_skuBasedNames_iff hr
  pairwise := Registry.skuBasedNames_pairwise hr
  decode_query := FeatureClient.decode_query hhost hbase hc
  sends hweb _ network log s org := by
    rw [FeatureClient.fetch_noting, FeatureClient.sent_request_of_web hweb]
  unsent hweb _ network log s org := by
    rw [FeatureClient.fetch_noting, FeatureClient.sent_request_of_not_web hweb, List.append_nil]
  fetch_noting _ network log s org := by
    rw [FeatureClient.fetch_noting]
  fetch_congr _ _ _ _ _ := FeatureClient.fetch_congr
  evaluate_congr _ _ _ _ h := evaluateBundles_congr hr h
  get?_congr _ _ _ h := get?_evaluateBundles_congr hr h
  exists_ne _ _ _ h hfilter := exists_get?_evaluateBundles_ne hr h hfilter

/-- Definitions whose names hold what stands between the pairs of a query and within them. -/
def marked : List Definition :=
  [⟨"a&b=c", default, [], ["x"], []⟩, ⟨"é +%", default, ["y"], [], []⟩,
    ⟨"plain", default, [], [], []⟩]

/-- They are asked about by these names. -/
theorem asked_marked : ∃ r c, Registry.ofDefinitions marked "_paid" = .ok r ∧
    r.skuBasedNames = ["a&b=c", "a&b=c_paid", "é +%"] ∧
    FeatureClient.create "https://features.example/" "/api/v1/" r.skuBasedNames = .ok c ∧
    c.endpoint.scheme = "https" ∧ Asked r c := by
  have hnames : (Registry.ofDefinitions marked "_paid").map Registry.skuBasedNames =
      .ok ["a&b=c", "a&b=c_paid", "é +%"] := rfl
  have hurl : (Url.parse (Client.joinUrl "https://features.example/"
      (FeatureClient.endpointPath "/api/v1/"))).map Url.scheme = .ok "https" := by decide +kernel
  cases hr : Registry.ofDefinitions marked "_paid" with
  | error e =>
    rw [hr] at hnames
    cases hnames
  | ok r =>
    rw [hr] at hnames
    cases hu : Url.parse (Client.joinUrl "https://features.example/"
        (FeatureClient.endpointPath "/api/v1/")) with
    | error e =>
      rw [hu] at hurl
      cases hurl
    | ok u =>
      rw [hu] at hurl
      have hscheme : u.scheme = "https" := Except.ok.inj hurl
      obtain ⟨c, hc, hweb⟩ : ∃ c, FeatureClient.create "https://features.example/" "/api/v1/"
          r.skuBasedNames = .ok c ∧ c.endpoint.scheme = "https" :=
        ⟨_, FeatureClient.create_eq_ok_iff.2 ⟨u, hu, rfl⟩,
          (Url.scheme_extendQuery u _).trans hscheme⟩
      exact ⟨r, c, rfl, Except.ok.inj hnames, hc, hweb,
        asked_of_create hr (by decide) (by decide) hc⟩

end Licensing
