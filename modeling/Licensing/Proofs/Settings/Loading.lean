import Licensing.Proofs.Settings.Variables
import Licensing.Proofs.Url.Query

/-!
# What is loaded

The settings that are loaded are those that the variables state, field by field (`Stated`), if they
make sense together (`Sensible`); there are no others (`loadBy_eq_ok_iff`).
-/

namespace Licensing.Settings

open Variables (flag_eq_ok_iff number_eq_ok_iff string_eq_iff optional_map_eq_iff)

variable {parse : Url.Parser} {vars : Variables} {s : Settings} {key : String}

/-! ### One step after another -/

section Steps

variable {α β ε : Type} {f : α → Except ε β} {b : β}

theorem bind_eq_ok_iff {x : Except ε α} :
    x >>= f = .ok b ↔ ∃ a, x = .ok a ∧ f a = .ok b :=
  ⟨Url.exists_of_bind_eq_ok, fun ⟨_, hx, hf⟩ ↦ hx ▸ hf⟩

/-- What comes behind a check goes on when the check is passed. -/
theorem check_bind_eq_ok_iff {x : Except ε Unit} {f : Unit → Except ε β} :
    x >>= f = .ok b ↔ x = .ok () ∧ f () = .ok b := by
  rw [bind_eq_ok_iff]
  constructor
  · rintro ⟨_, hx, hf⟩
    exact ⟨hx, hf⟩
  · rintro ⟨hx, hf⟩
    exact ⟨(), hx, hf⟩

/-- What comes behind a step counts only where the step succeeds. -/
theorem bind_congr_of_eq_ok {x : Except ε α} {g : α → Except ε β}
    (h : ∀ a, x = .ok a → f a = g a) : x >>= f = x >>= g := by
  cases x with
  | error e => rfl
  | ok a => exact h a rfl

/-- What comes behind a refusal goes on when nothing is refused. -/
theorem refuse_eq_ok_iff {c : Bool} {e : ε} {x : Except ε β} :
    (if c = true then (Except.error e : Except ε Unit) >>= fun _ ↦ x else x) = .ok b ↔
      c = false ∧ x = .ok b := by
  cases c <;> simp [bind, Except.bind]

/-- What comes behind a check that is not always made. -/
theorem unless_check_eq_ok_iff {c : Bool} {check : Except ε Unit} {x : Except ε β} :
    (if c = true then x else check >>= fun _ ↦ x) = .ok b ↔
      (c = false → check = .ok ()) ∧ x = .ok b := by
  cases c <;> simp [check_bind_eq_ok_iff]

end Steps

/-! ### What makes sense -/

/-- A text is read as the URL of a web service. -/
def IsWebUrl (parse : Url.Parser) (text : String) : Prop :=
  ∃ url, parse text = .ok url ∧ (url.scheme = "http" ∨ url.scheme = "https")

/-- The addresses of the services behind. -/
def urls (s : Settings) : List String :=
  [s.featuresHost, s.accounts.host, s.accounts.credentials.tokenUrl, s.directory.url,
    s.screeningHost]

/-- Settings make sense together, by a reader of URLs. -/
structure Sensible (parse : Url.Parser) (s : Settings) : Prop where
  /-- The service listens to a port. -/
  port : s.port ≠ 0
  /-- A request to another service may take some time. -/
  timeout : s.timeout ≠ 0
  /-- Features are fresh for some time. -/
  cacheTtl : s.cacheTtl ≠ 0
  /-- There is room for organizations. -/
  cacheMaxEntries : s.cacheMaxEntries ≠ 0
  /-- The suffix of paid variants can be seen. -/
  paidSuffix : Text.isBlank s.paidSuffix = false
  /-- Addresses are those of web services. -/
  urls : ∀ text ∈ s.urls, text ≠ "" → IsWebUrl parse text
  /-- Without an accounts system in memory, identifier and secret both are there, and then there is
  a place to get tokens, or both are not. -/
  credentials : s.accounts.mock = false →
    s.accounts.credentials.clientId = "" ∧ s.accounts.credentials.clientSecret = "" ∨
    s.accounts.credentials.clientId ≠ "" ∧ s.accounts.credentials.clientSecret ≠ "" ∧
      s.accounts.credentials.tokenUrl ≠ ""
  /-- A certificate comes with a key. -/
  pair : s.tls.cert = none ↔ s.tls.key = none

theorem checkPositive_eq_ok_iff {n : Nat} : checkPositive key n = .ok () ↔ n ≠ 0 := by
  rw [checkPositive]
  split <;> simp [*]

theorem checkUrl_eq_ok_iff {text : String} :
    checkUrl parse key text = .ok () ↔ (text ≠ "" → IsWebUrl parse text) := by
  rw [checkUrl, IsWebUrl]
  split
  · simp [*]
  · cases parse text with
    | error e => simp [*]
    | ok url => simp [*, or_iff_not_imp_left]

theorem checkCredentials_eq_ok_iff {c : Client.Credentials} : checkCredentials c = .ok () ↔
    c.clientId = "" ∧ c.clientSecret = "" ∨
      c.clientId ≠ "" ∧ c.clientSecret ≠ "" ∧ c.tokenUrl ≠ "" := by
  rw [checkCredentials]
  by_cases hid : c.clientId = "" <;> by_cases hsecret : c.clientSecret = "" <;>
    by_cases hurl : c.tokenUrl = "" <;> simp [hid, hsecret, hurl]

theorem checkPair_eq_ok_iff {t : TlsSettings} :
    checkPair t = .ok () ↔ (t.cert = none ↔ t.key = none) := by
  rw [checkPair]
  cases t.cert <;> cases t.key <;> simp

/-- **What is checked is that the settings make sense.** The checks are made one after another, and
whether all are passed does not depend on their order. -/
theorem validateBy_eq_ok_iff : s.validateBy parse = .ok () ↔ Sensible parse s := by
  simp only [validateBy, check_bind_eq_ok_iff, refuse_eq_ok_iff, unless_check_eq_ok_iff,
    checkPositive_eq_ok_iff, checkUrl_eq_ok_iff, checkCredentials_eq_ok_iff, checkPair_eq_ok_iff]
  constructor
  · rintro ⟨hport, htimeout, httl, hentries, hsuffix, hfeatures, haccounts, htoken, hdirectory,
      hscreening, hcredentials, hpair⟩
    refine ⟨hport, htimeout, httl, hentries, hsuffix, ?_, hcredentials, hpair⟩
    simp only [urls, List.forall_mem_cons, List.not_mem_nil]
    exact ⟨hfeatures, haccounts, htoken, hdirectory, hscreening, by simp⟩
  · intro h
    have hurls := h.urls
    simp only [urls, List.forall_mem_cons] at hurls
    obtain ⟨hfeatures, haccounts, htoken, hdirectory, hscreening, -⟩ := hurls
    exact ⟨h.port, h.timeout, h.cacheTtl, h.cacheMaxEntries, h.paidSuffix, hfeatures, haccounts,
      htoken, hdirectory, hscreening, h.credentials, h.pair⟩

/-! ### What the variables state -/

/-- Where certificates and keys come from: the variables that name them, and what the text of such
a variable is. -/
structure TlsGroup where
  /-- The variable for the trusted certificates. -/
  ca : String
  /-- The variable for the certificates of the clients. -/
  cert : String
  /-- The variable for the key of the clients. -/
  key : String
  /-- What the text of one of them is. -/
  source : String → PemSource

/-- The two groups of variables: their values are the certificates and keys, or the paths of
files. -/
def tlsGroup (inline : Bool) : TlsGroup :=
  if inline then ⟨"ENT_CA_CERT", "ENT_CERT", "ENT_KEY", .inline⟩
  else ⟨"ENT_CA_PATH", "ENT_CERT_PATH", "ENT_KEY_PATH", .file⟩

/-- Certificates and keys are those that a group of variables names. -/
structure TlsStated (vars : Variables) (group : TlsGroup) (t : TlsSettings) : Prop where
  /-- The trusted certificates. -/
  ca : vars.YieldsMaybe group.ca group.source t.ca
  /-- The certificates of the clients. -/
  cert : vars.YieldsMaybe group.cert group.source t.cert
  /-- The key of the clients. -/
  key : vars.YieldsMaybe group.key group.source t.key

theorem tls_ofVariables_eq (vars : Variables) (inline : Bool) :
    TlsSettings.ofVariables vars inline =
      ⟨(vars.optional (tlsGroup inline).ca).map (tlsGroup inline).source,
        (vars.optional (tlsGroup inline).cert).map (tlsGroup inline).source,
        (vars.optional (tlsGroup inline).key).map (tlsGroup inline).source⟩ := by
  cases inline <;> rfl

theorem tls_ofVariables_eq_iff {inline : Bool} {t : TlsSettings} :
    TlsSettings.ofVariables vars inline = t ↔ TlsStated vars (tlsGroup inline) t := by
  obtain ⟨ca, cert, key⟩ := t
  rw [tls_ofVariables_eq, TlsSettings.mk.injEq, optional_map_eq_iff, optional_map_eq_iff,
    optional_map_eq_iff]
  exact ⟨fun ⟨hca, hcert, hkey⟩ ↦ ⟨hca, hcert, hkey⟩, fun h ↦ ⟨h.ca, h.cert, h.key⟩⟩

/-- The settings are those that the variables state: each is what its variable says, or the
default if the variable is not set. -/
structure Stated (vars : Variables) (s : Settings) : Prop where
  /-- The port that the service listens to. -/
  port : vars.YieldsNumber "ENT_PORT" Decimal.maxU16 3000 s.port
  /-- The host of the feature service. -/
  featuresHost : vars.YieldsText "ENT_SUBS_HOST" "https://subscription.qa.api.redhat.com"
    s.featuresHost
  /-- The path on that host, which is normalized. -/
  featuresPath : ∃ path, vars.YieldsText "ENT_FEATURES_PATH" "/svcrest/subscription/v5" path ∧
    s.featuresPath = normalizePath path
  /-- How long a request to another service may take. -/
  timeout : vars.YieldsNumber "ENT_IT_SERVICES_TIMEOUT_SECONDS" Decimal.maxU64 10 s.timeout
  /-- The file with the bundle definitions. -/
  bundlesFile : vars.YieldsText "ENT_BUNDLE_INFO_YAML" "bundles/bundles.yml" s.bundlesFile
  /-- There need not be any bundles. -/
  allowEmptyBundles : vars.YieldsFlag "ENT_ALLOW_EMPTY_BUNDLES" false s.allowEmptyBundles
  /-- The file with the description of the interface. -/
  openapiFile : vars.YieldsText "ENT_OPENAPI_SPEC_PATH" "apispec/api.spec.json" s.openapiFile
  /-- The host of the accounts system. -/
  accountsHost : vars.YieldsText "ENT_AMS_HOST" "https://api.openshift.com" s.accounts.host
  /-- The identifier of its client. -/
  clientId : vars.YieldsText "ENT_CLIENT_ID" "" s.accounts.credentials.clientId
  /-- The secret of its client. -/
  clientSecret : vars.YieldsText "ENT_CLIENT_SECRET" "" s.accounts.credentials.clientSecret
  /-- Where tokens are granted. -/
  tokenUrl : vars.YieldsText "ENT_TOKEN_URL" ("https://sso.redhat.com/auth/realms/"
    ++ "redhat-external/protocol/openid-connect/token") s.accounts.credentials.tokenUrl
  /-- An accounts system in memory takes its place. -/
  accountsMock : vars.YieldsFlag "ENT_AMS_MOCK" false s.accounts.mock
  /-- The sentence added to the refusal that the terms were not accepted. -/
  hint : vars.YieldsMaybe "ENT_AMS_ACCT_MGMT_11_ERR_MSG" id s.accounts.hint
  /-- The address of the user directory. -/
  directoryUrl : vars.YieldsText "ENT_BOP_URL" "" s.directory.url
  /-- The identifier of its client. -/
  directoryClientId : vars.YieldsText "ENT_BOP_CLIENT_ID" "" s.directory.clientId
  /-- The token for it. -/
  directoryToken : vars.YieldsText "ENT_BOP_TOKEN" "" s.directory.token
  /-- The environment that it is asked about. -/
  directoryEnvironment : vars.YieldsText "ENT_BOP_ENV" "" s.directory.environment
  /-- A directory in memory takes its place. -/
  directoryMock : vars.YieldsFlag "ENT_BOP_MOCK" false s.directory.mock
  /-- The host of the screening service. -/
  screeningHost : vars.YieldsText "ENT_COMPL_HOST" "" s.screeningHost
  /-- The suffix of paid variants. -/
  paidSuffix : vars.YieldsText "ENT_PAID_FEATURE_SUFFIX" "_paid" s.paidSuffix
  /-- More is logged. -/
  debug : vars.YieldsFlag "ENT_DEBUG" false s.debug
  /-- Everybody is entitled to everything. -/
  entitleAll : vars.YieldsFlag "ENT_ENTITLE_ALL" false s.entitleAll
  /-- The certificates and keys, which one group of variables names. -/
  tls : ∃ inline, vars.YieldsFlag "ENT_CERTS_FROM_ENV" false inline ∧
    TlsStated vars (tlsGroup inline) s.tls
  /-- How long features are fresh. -/
  cacheTtl : vars.YieldsNumber "ENT_CACHE_TTL_SECONDS" Decimal.maxU64 1800 s.cacheTtl
  /-- How many organizations there is room for. -/
  cacheMaxEntries : vars.YieldsNumber "ENT_CACHE_MAX_ENTRIES" Decimal.maxU64 10000
    s.cacheMaxEntries
  /-- The version of the interface. -/
  apiVersion : vars.YieldsText "ENT_API_VERSION" "0.1.0" s.apiVersion
  /-- The commit that the service was built from. -/
  commit : vars.YieldsText "ENT_COMMIT" "unknown" s.commit

/-- **The variables state what is read from them**, and nothing else. -/
theorem ofVariables_eq_ok_iff : ofVariables vars = .ok s ↔ Stated vars s := by
  simp only [ofVariables, bind_eq_ok_iff, flag_eq_ok_iff, number_eq_ok_iff, pure, Except.pure,
    Except.ok.injEq]
  constructor
  · rintro ⟨inline, hinline, port, hport, timeout, htimeout, empty, hempty, accounts, haccounts,
      directory, hdirectory, debug, hdebug, all, hall, ttl, httl, entries, hentries, rfl⟩
    exact
      { port := hport
        featuresHost := string_eq_iff.1 rfl
        featuresPath := ⟨_, string_eq_iff.1 rfl, rfl⟩
        timeout := htimeout
        bundlesFile := string_eq_iff.1 rfl
        allowEmptyBundles := hempty
        openapiFile := string_eq_iff.1 rfl
        accountsHost := string_eq_iff.1 rfl
        clientId := string_eq_iff.1 rfl
        clientSecret := string_eq_iff.1 rfl
        tokenUrl := string_eq_iff.1 rfl
        accountsMock := haccounts
        hint := optional_map_eq_iff.1 Option.map_id'
        directoryUrl := string_eq_iff.1 rfl
        directoryClientId := string_eq_iff.1 rfl
        directoryToken := string_eq_iff.1 rfl
        directoryEnvironment := string_eq_iff.1 rfl
        directoryMock := hdirectory
        screeningHost := string_eq_iff.1 rfl
        paidSuffix := string_eq_iff.1 rfl
        debug := hdebug
        entitleAll := hall
        tls := ⟨inline, hinline, tls_ofVariables_eq_iff.1 rfl⟩
        cacheTtl := httl
        cacheMaxEntries := hentries
        apiVersion := string_eq_iff.1 rfl
        commit := string_eq_iff.1 rfl }
  · intro h
    obtain ⟨path, hpath, hfeatures⟩ := h.featuresPath
    obtain ⟨inline, hinline, htls⟩ := h.tls
    have hhint : vars.optional "ENT_AMS_ACCT_MGMT_11_ERR_MSG" = s.accounts.hint :=
      Option.map_id'.symm.trans (optional_map_eq_iff.2 h.hint)
    refine ⟨inline, hinline, _, h.port, _, h.timeout, _, h.allowEmptyBundles, _, h.accountsMock,
      _, h.directoryMock, _, h.debug, _, h.entitleAll, _, h.cacheTtl, _, h.cacheMaxEntries, ?_⟩
    simp only [string_eq_iff.2 h.featuresHost, string_eq_iff.2 hpath, ← hfeatures,
      string_eq_iff.2 h.bundlesFile, string_eq_iff.2 h.openapiFile, string_eq_iff.2 h.accountsHost,
      string_eq_iff.2 h.clientId, string_eq_iff.2 h.clientSecret, string_eq_iff.2 h.tokenUrl,
      hhint, string_eq_iff.2 h.directoryUrl, string_eq_iff.2 h.directoryClientId,
      string_eq_iff.2 h.directoryToken, string_eq_iff.2 h.directoryEnvironment,
      string_eq_iff.2 h.screeningHost, Registry.defaultSuffix, string_eq_iff.2 h.paidSuffix,
      tls_ofVariables_eq_iff.2 htls, programVersion, string_eq_iff.2 h.apiVersion,
      string_eq_iff.2 h.commit]

/-- **The settings that are loaded** are those that the variables state, if they make sense
together. -/
theorem loadBy_eq_ok_iff : loadBy parse vars = .ok s ↔ Stated vars s ∧ Sensible parse s := by
  rw [loadBy, bind_eq_ok_iff]
  constructor
  · rintro ⟨s', hs', hrest⟩
    obtain ⟨hvalidate, hs⟩ := check_bind_eq_ok_iff.1 hrest
    obtain rfl := Except.ok.inj hs
    exact ⟨ofVariables_eq_ok_iff.1 hs', validateBy_eq_ok_iff.1 hvalidate⟩
  · rintro ⟨hstated, hsensible⟩
    exact ⟨s, ofVariables_eq_ok_iff.2 hstated,
      check_bind_eq_ok_iff.2 ⟨validateBy_eq_ok_iff.2 hsensible, rfl⟩⟩

end Licensing.Settings
