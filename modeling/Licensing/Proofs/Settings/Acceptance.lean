import Licensing.Proofs.Settings.Loading

/-!
# Which variables are accepted

What the variables have to say so that the settings can be loaded (`Acceptable`) is told without the
settings: each flag and number that is set can be read, no number is zero, each address that is not
empty is the URL of a web service, and what belongs together is set together. These are all the
conditions and each of them is necessary (`exists_loadBy_iff`). What is loaded is then as the
variables state it, and stands the checks again (`strict`).

All this holds whatever texts are read as URLs, and by what tables: the reader of URLs is a
parameter. Only for the addresses that are meant when nothing is set it has to be known that they
are read as they should be (`ReadsDefaults`).
-/

namespace Licensing.Settings

open Variables (IsFlag exists_yields flag_eq_ok_iff number_eq_ok_iff)

variable {parse : Url.Parser} {vars : Variables} {s : Settings} {key text : String}

/-! ### The variables that have to make sense -/

/-- The variables that mean yes or no. All of them mean no when they are not set. -/
def flagVariables : List String :=
  ["ENT_CERTS_FROM_ENV", "ENT_ALLOW_EMPTY_BUNDLES", "ENT_AMS_MOCK", "ENT_BOP_MOCK", "ENT_DEBUG",
    "ENT_ENTITLE_ALL"]

/-- A variable that says a number. -/
structure NumberVariable where
  /-- The variable. -/
  key : String
  /-- The greatest number that it may say. -/
  most : Nat
  /-- The number that is meant when it is not set. -/
  default : Nat

/-- The variables that say numbers. -/
def numberVariables : List NumberVariable :=
  [⟨"ENT_PORT", Decimal.maxU16, 3000⟩, ⟨"ENT_IT_SERVICES_TIMEOUT_SECONDS", Decimal.maxU64, 10⟩,
    ⟨"ENT_CACHE_TTL_SECONDS", Decimal.maxU64, 1800⟩,
    ⟨"ENT_CACHE_MAX_ENTRIES", Decimal.maxU64, 10000⟩]

/-- The variables that say addresses, with the addresses that are meant when they are not set. -/
def urlVariables : List (String × String) :=
  [("ENT_SUBS_HOST", "https://subscription.qa.api.redhat.com"),
    ("ENT_AMS_HOST", "https://api.openshift.com"),
    ("ENT_TOKEN_URL", "https://sso.redhat.com/auth/realms/"
      ++ "redhat-external/protocol/openid-connect/token"),
    ("ENT_BOP_URL", ""), ("ENT_COMPL_HOST", "")]

/-- The addresses that are meant when nothing is set are read as the URLs of web services. -/
def ReadsDefaults (parse : Url.Parser) : Prop :=
  ∀ v ∈ urlVariables, v.2 ≠ "" → IsWebUrl parse v.2

/-- The variables say what can be loaded, by a reader of URLs. -/
structure Acceptable (parse : Url.Parser) (vars : Variables) : Prop where
  /-- Each flag that is set means yes or no. -/
  flags : ∀ key ∈ flagVariables, ∀ text, vars.Sets key text → ∃ b, IsFlag text b
  /-- Each number that is set can be read. -/
  numbers : ∀ v ∈ numberVariables, ∀ text, vars.Sets v.key text →
    ∃ n, Decimal.IsNumeral text n ∧ n ≤ v.most
  /-- No number is zero. -/
  positive : ∀ v ∈ numberVariables, ∀ n, vars.YieldsNumber v.key v.most v.default n → n ≠ 0
  /-- Each address that is not empty is the URL of a web service. -/
  urls : ∀ v ∈ urlVariables, ∀ text, vars.YieldsText v.1 v.2 text → text ≠ "" → IsWebUrl parse text
  /-- Without an accounts system in memory the identifier and the secret of its client are both set,
  or both are not. -/
  credentials : vars.YieldsFlag "ENT_AMS_MOCK" false false →
    (vars.Unset "ENT_CLIENT_ID" ↔ vars.Unset "ENT_CLIENT_SECRET")
  /-- Of the group of variables that is used, the certificate and the key are both set, or both are
  not. -/
  pair : ∀ inline, vars.YieldsFlag "ENT_CERTS_FROM_ENV" false inline →
    (vars.Unset (tlsGroup inline).cert ↔ vars.Unset (tlsGroup inline).key)

/-! ### They are necessary -/

theorem Stated.acceptable (h : Stated vars s) (hs : Sensible parse s) : Acceptable parse vars := by
  obtain ⟨inline, hinline, htls⟩ := h.tls
  constructor
  case flags =>
    simp only [flagVariables, List.forall_mem_cons]
    exact ⟨hinline.exists_means, h.allowEmptyBundles.exists_means, h.accountsMock.exists_means,
      h.directoryMock.exists_means, h.debug.exists_means, h.entitleAll.exists_means, by simp⟩
  case numbers =>
    simp only [numberVariables, List.forall_mem_cons]
    exact ⟨h.port.exists_means, h.timeout.exists_means, h.cacheTtl.exists_means,
      h.cacheMaxEntries.exists_means, by simp⟩
  case positive =>
    simp only [numberVariables, List.forall_mem_cons]
    exact ⟨fun n hn ↦ hn.unique h.port ▸ hs.port, fun n hn ↦ hn.unique h.timeout ▸ hs.timeout,
      fun n hn ↦ hn.unique h.cacheTtl ▸ hs.cacheTtl,
      fun n hn ↦ hn.unique h.cacheMaxEntries ▸ hs.cacheMaxEntries, by simp⟩
  case urls =>
    have hurls := hs.urls
    simp only [Settings.urls, List.forall_mem_cons] at hurls
    obtain ⟨hfeatures, haccounts, htoken, hdirectory, hscreening, -⟩ := hurls
    simp only [urlVariables, List.forall_mem_cons]
    exact ⟨fun t ht ↦ ht.unique h.featuresHost ▸ hfeatures,
      fun t ht ↦ ht.unique h.accountsHost ▸ haccounts, fun t ht ↦ ht.unique h.tokenUrl ▸ htoken,
      fun t ht ↦ ht.unique h.directoryUrl ▸ hdirectory,
      fun t ht ↦ ht.unique h.screeningHost ▸ hscreening, by simp⟩
  case credentials =>
    intro hmock
    rw [← h.clientId.eq_empty_iff, ← h.clientSecret.eq_empty_iff]
    rcases hs.credentials (h.accountsMock.unique hmock) with ⟨hid, hsecret⟩ | ⟨hid, hsecret, -⟩
    · exact iff_of_true hid hsecret
    · exact iff_of_false hid hsecret
  case pair =>
    intro inline' hinline'
    rw [hinline'.unique hinline, ← htls.cert.eq_none_iff, ← htls.key.eq_none_iff]
    exact hs.pair

/-! ### They are sufficient -/

/-- Each field has a value if the flags and the numbers can be read. -/
theorem Acceptable.exists_stated (h : Acceptable parse vars) : ∃ s, Stated vars s := by
  have hflags := h.flags
  simp only [flagVariables, List.forall_mem_cons] at hflags
  obtain ⟨hinline, hempty, haccounts, hdirectory, hdebug, hall, -⟩ := hflags
  have hnumbers := h.numbers
  simp only [numberVariables, List.forall_mem_cons] at hnumbers
  obtain ⟨hport, htimeout, httl, hentries, -⟩ := hnumbers
  obtain ⟨inline, hinline⟩ := exists_yields false hinline
  obtain ⟨port, hport⟩ := exists_yields 3000 hport
  obtain ⟨timeout, htimeout⟩ := exists_yields 10 htimeout
  obtain ⟨empty, hempty⟩ := exists_yields false hempty
  obtain ⟨accounts, haccounts⟩ := exists_yields false haccounts
  obtain ⟨directory, hdirectory⟩ := exists_yields false hdirectory
  obtain ⟨debug, hdebug⟩ := exists_yields false hdebug
  obtain ⟨all, hall⟩ := exists_yields false hall
  obtain ⟨ttl, httl⟩ := exists_yields 1800 httl
  obtain ⟨entries, hentries⟩ := exists_yields 10000 hentries
  simp only [← ofVariables_eq_ok_iff, ofVariables, bind_eq_ok_iff, flag_eq_ok_iff,
    number_eq_ok_iff]
  exact ⟨_, inline, hinline, port, hport, timeout, htimeout, empty, hempty, accounts, haccounts,
    directory, hdirectory, debug, hdebug, all, hall, ttl, httl, entries, hentries, rfl⟩

/-- Settings that are stated by acceptable variables make sense. -/
theorem Acceptable.sensible (h : Acceptable parse vars) (hs : Stated vars s) :
    Sensible parse s := by
  have hpositive := h.positive
  simp only [numberVariables, List.forall_mem_cons] at hpositive
  obtain ⟨hport, htimeout, httl, hentries, -⟩ := hpositive
  have hurls := h.urls
  simp only [urlVariables, List.forall_mem_cons] at hurls
  obtain ⟨hfeatures, haccounts, htoken, hdirectory, hscreening, -⟩ := hurls
  constructor
  case port => exact hport _ hs.port
  case timeout => exact htimeout _ hs.timeout
  case cacheTtl => exact httl _ hs.cacheTtl
  case cacheMaxEntries => exact hentries _ hs.cacheMaxEntries
  case paidSuffix => exact hs.paidSuffix.isBlank_eq_false (by decide)
  case urls =>
    simp only [Settings.urls, List.forall_mem_cons]
    exact ⟨hfeatures _ hs.featuresHost, haccounts _ hs.accountsHost, htoken _ hs.tokenUrl,
      hdirectory _ hs.directoryUrl, hscreening _ hs.screeningHost, by simp⟩
  case credentials =>
    intro hmock
    have hboth := h.credentials (hmock ▸ hs.accountsMock)
    rw [← hs.clientId.eq_empty_iff, ← hs.clientSecret.eq_empty_iff] at hboth
    by_cases hid : s.accounts.credentials.clientId = ""
    · exact .inl ⟨hid, hboth.1 hid⟩
    · exact .inr ⟨hid, fun hsecret ↦ hid (hboth.2 hsecret), hs.tokenUrl.ne_empty (by decide)⟩
  case pair =>
    obtain ⟨inline, hinline, htls⟩ := hs.tls
    rw [htls.cert.eq_none_iff, htls.key.eq_none_iff]
    exact h.pair inline hinline

/-- **Settings can be loaded exactly when the variables are acceptable.** What makes them so is
stated by the variables alone and by what the parser of URLs says, without the loader. -/
theorem exists_loadBy_iff : (∃ s, loadBy parse vars = .ok s) ↔ Acceptable parse vars := by
  simp only [loadBy_eq_ok_iff]
  constructor
  · rintro ⟨s, hstated, hsensible⟩
    exact hstated.acceptable hsensible
  · intro h
    obtain ⟨s, hs⟩ := h.exists_stated
    exact ⟨s, hs, h.sensible hs⟩

/-! ### What makes no sense is refused -/

/-- A variable is set to something that makes no sense, by a reader of URLs. -/
inductive Malformed (parse : Url.Parser) (vars : Variables) : Prop where
  /-- A flag means neither yes nor no. -/
  | flag {key text : String} (hkey : key ∈ flagVariables) (hset : vars.Sets key text)
    (h : ∀ b, ¬ IsFlag text b)
  /-- A number cannot be read. -/
  | number {v : NumberVariable} {text : String} (hv : v ∈ numberVariables)
    (hset : vars.Sets v.key text) (h : ∀ n, Decimal.IsNumeral text n → v.most < n)
  /-- An address is not the URL of a web service. -/
  | url {v : String × String} {text : String} (hv : v ∈ urlVariables)
    (hset : vars.Sets v.1 text) (h : ¬ IsWebUrl parse text)

theorem Acceptable.not_malformed (h : Acceptable parse vars) : ¬ Malformed parse vars := by
  rintro (⟨hkey, hset, hflag⟩ | ⟨hv, hset, hnumber⟩ | ⟨hv, hset, hurl⟩)
  · obtain ⟨b, hb⟩ := h.flags _ hkey _ hset
    exact hflag b hb
  · obtain ⟨n, hn, hmost⟩ := h.numbers _ hv _ hset
    exact Nat.not_lt.2 hmost (hnumber n hn)
  · exact hurl (h.urls _ hv _ (.set hset rfl) hset.normal.1)

/-- The defaults make sense, whichever group of variables is used. -/
theorem acceptable_of_unset (hparse : ReadsDefaults parse)
    (h : ∀ key, key ≠ "ENT_CERTS_FROM_ENV" → vars.Unset key)
    (hinline : ∀ text, vars.Sets "ENT_CERTS_FROM_ENV" text → ∃ b, IsFlag text b) :
    Acceptable parse vars := by
  constructor
  case flags =>
    intro key _ text hset
    by_cases hkey : key = "ENT_CERTS_FROM_ENV"
    · subst hkey
      exact hinline text hset
    · exact absurd (h key hkey) hset.not_unset
  case numbers =>
    have hkeys : ∀ v ∈ numberVariables, v.key ≠ "ENT_CERTS_FROM_ENV" := by decide
    exact fun v hv _ hset ↦ absurd (h v.key (hkeys v hv)) hset.not_unset
  case positive =>
    have hdefaults : ∀ v ∈ numberVariables, v.key ≠ "ENT_CERTS_FROM_ENV" ∧ v.default ≠ 0 := by
      decide
    intro v hv n hn
    rw [hn.eq_of_unset (h v.key (hdefaults v hv).1)]
    exact (hdefaults v hv).2
  case urls =>
    have hkeys : ∀ v ∈ urlVariables, v.1 ≠ "ENT_CERTS_FROM_ENV" := by decide
    intro v hv text htext
    rw [htext.eq_of_unset (h v.1 (hkeys v hv))]
    exact hparse v hv
  case credentials => exact fun _ ↦ iff_of_true (h _ (by decide)) (h _ (by decide))
  case pair =>
    have hkeys : ∀ inline, (tlsGroup inline).cert ≠ "ENT_CERTS_FROM_ENV" ∧
        (tlsGroup inline).key ≠ "ENT_CERTS_FROM_ENV" := by decide
    exact fun inline _ ↦ iff_of_true (h _ (hkeys inline).1) (h _ (hkeys inline).2)

/-- The reader of URLs of this program reads the defaults as it should. -/
theorem readsDefaults_parse : ReadsDefaults Url.parse := by
  have hdefaults : ∀ v ∈ urlVariables, checkUrl Url.parse v.1 v.2 = .ok () := by decide +kernel
  exact fun v hv ↦ checkUrl_eq_ok_iff.1 (hdefaults v hv)

/-! ### Normalized paths -/

/-- A path starts with a slash, and no other one ends it. -/
def IsNormalPath (path : String) : Prop :=
  ∃ rest, path.toList = '/' :: rest ∧ rest.getLast? ≠ some '/'

theorem isNormalPath_normalizePath (path : String) : IsNormalPath (normalizePath path) := by
  obtain ⟨cs, hcs⟩ : ∃ cs, (Text.trimChars path.toList).rdropWhile (· = '/') = cs := ⟨_, rfl⟩
  have hpath : normalizePath path =
      String.ofList (if cs.head? = some '/' then cs else '/' :: cs) := by
    rw [← hcs]
    rfl
  have hlast : cs.getLast? ≠ some '/' := by
    intro h
    have hne : cs ≠ [] := by
      rintro rfl
      cases h
    rw [List.getLast?_eq_some_getLast hne] at h
    subst hcs
    exact List.rdropWhile_last_not _ _ hne (decide_eq_true (Option.some.inj h))
  rw [hpath, IsNormalPath, String.toList_ofList]
  split
  · rename_i hhead
    obtain ⟨rest, rfl⟩ := List.head?_eq_some_iff.1 hhead
    refine ⟨rest, rfl, fun hrest ↦ hlast ?_⟩
    rw [List.getLast?_cons, hrest, Option.getD_some]
  · exact ⟨cs, rfl, hlast⟩

/-! ### The main statement -/

/-- What is accepted of variables by a reader of URLs, and what comes of it. -/
structure Strict (parse : Url.Parser) (vars : Variables) : Prop where
  /-- The program loads and checks settings in this way, with its own reader of URLs. -/
  program : load vars = loadBy Url.parse vars ∧ ∀ s : Settings, s.validate = s.validateBy Url.parse
  /-- Settings can be loaded when the variables say something that makes sense, and only then. -/
  accepted_iff : (∃ s, loadBy parse vars = .ok s) ↔ Acceptable parse vars
  /-- What is set to something that makes no sense is refused, whatever the default is. -/
  refused : Malformed parse vars → ∃ e, loadBy parse vars = .error e
  /-- Nothing has to be set, if the addresses that are meant then can be read. -/
  unset : ReadsDefaults parse → (∀ key, vars.Unset key) → ∃ s, loadBy parse vars = .ok s
  /-- The program's own reader of URLs reads these addresses. -/
  defaults : ReadsDefaults Url.parse
  /-- Each field is what its variable says, or the default if the variable is not set. The
  certificates and keys are those of the group of variables that is used. -/
  stated : ∀ s, loadBy parse vars = .ok s → Stated vars s
  /-- The settings stand the checks again. -/
  validate : ∀ s, loadBy parse vars = .ok s → s.validateBy parse = .ok ()
  /-- The path of the feature service is normalized. -/
  path : ∀ s, loadBy parse vars = .ok s → IsNormalPath s.featuresPath
  /-- Who has credentials for an accounts system that is not in memory has all that it takes to get
  tokens. -/
  credentials : ∀ s, loadBy parse vars = .ok s → s.hasCredentials = true →
    s.accounts.mock = false → s.accounts.credentials.clientId ≠ "" ∧
      s.accounts.credentials.clientSecret ≠ "" ∧ s.accounts.credentials.tokenUrl ≠ ""

/-- **The settings that are loaded are those that make sense**, and a default takes the place of
nothing that is set, whatever texts are read as URLs. -/
theorem strict (parse : Url.Parser) (vars : Variables) : Strict parse vars where
  program := ⟨rfl, fun _ ↦ rfl⟩
  accepted_iff := exists_loadBy_iff
  refused hmalformed := by
    cases hload : loadBy parse vars with
    | error e => exact ⟨e, rfl⟩
    | ok s => exact absurd hmalformed (exists_loadBy_iff.1 ⟨s, hload⟩).not_malformed
  unset hparse hunset := exists_loadBy_iff.2 <|
    acceptable_of_unset hparse (fun key _ ↦ hunset key)
      fun _ hset ↦ absurd (hunset _) hset.not_unset
  defaults := readsDefaults_parse
  stated s hload := (loadBy_eq_ok_iff.1 hload).1
  validate s hload := validateBy_eq_ok_iff.2 (loadBy_eq_ok_iff.1 hload).2
  path s hload := by
    obtain ⟨path, -, hpath⟩ := (loadBy_eq_ok_iff.1 hload).1.featuresPath
    rw [hpath]
    exact isNormalPath_normalizePath path
  credentials s hload hhas hmock := by
    have hid : s.accounts.credentials.clientId ≠ "" := of_decide_eq_true hhas
    rcases (loadBy_eq_ok_iff.1 hload).2.credentials hmock with ⟨hnone, -⟩ | hall
    · exact absurd hnone hid
    · exact hall

end Licensing.Settings
