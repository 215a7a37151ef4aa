import Licensing.Bundle.Load
import Licensing.Cache.Store
import Licensing.Client.Accounts
import Licensing.Files
import Licensing.Tls.Material

/-!
# Settings

The service is set up by variables. A variable that is blank counts as one that is not set, and
blanks around a value do not matter. Variables that are not set have defaults; one that is set to
something that makes no sense is an error.
-/

namespace Licensing

/-- Why the settings cannot be loaded. -/
inductive SettingsError where
  /-- A variable is missing beside another. -/
  | missing (message : String)
  /-- A variable makes no sense. -/
  | invalid (message : String)
  /-- A file cannot be read. -/
  | io (message : String)
deriving DecidableEq, Inhabited

/-- The error in words. -/
def SettingsError.message : SettingsError → String
  | .missing message => "missing config: " ++ message
  | .invalid message => "invalid config: " ++ message
  | .io message => "config io error: " ++ message

/-- Where a certificate or a key comes from. -/
inductive PemSource where
  /-- It is the value of a variable. -/
  | inline (text : String)
  /-- It is in a file. -/
  | file (path : String)
deriving DecidableEq, Inhabited

/-- Where the certificates and keys come from. -/
structure TlsSettings where
  /-- The trusted certificates. -/
  ca : Option PemSource
  /-- The certificates of the clients. -/
  cert : Option PemSource
  /-- The key of the clients. -/
  key : Option PemSource
deriving DecidableEq, Inhabited

/-- The accounts system. -/
structure AccountsSettings where
  /-- Its host. -/
  host : String
  /-- What access tokens are asked for with, and where. -/
  credentials : Client.Credentials
  /-- An accounts system in memory takes its place. -/
  mock : Bool
  /-- The sentence added to the refusal that the terms were not accepted. -/
  hint : Option String
deriving DecidableEq, Inhabited

/-- The user directory. -/
structure DirectorySettings where
  /-- Its address; empty if there is none. -/
  url : String
  /-- The identifier of the client. -/
  clientId : String
  /-- The token for the directory. -/
  token : String
  /-- The environment that is asked about. -/
  environment : String
  /-- A directory in memory takes its place. -/
  mock : Bool
deriving DecidableEq, Inhabited

/-- The settings. Times are in seconds. -/
structure Settings where
  /-- The port that the service listens to. -/
  port : Nat
  /-- The host of the feature service. -/
  featuresHost : String
  /-- The path on that host. -/
  featuresPath : String
  /-- How long a request to another service may take. -/
  timeout : Nat
  /-- The file with the bundle definitions. -/
  bundlesFile : String
  /-- There need not be any bundles. -/
  allowEmptyBundles : Bool
  /-- The file with the description of the interface. -/
  openapiFile : String
  /-- The accounts system. -/
  accounts : AccountsSettings
  /-- The user directory. -/
  directory : DirectorySettings
  /-- The host of the screening service; empty if there is none. -/
  screeningHost : String
  /-- The suffix of paid variants. -/
  paidSuffix : String
  /-- More is logged. -/
  debug : Bool
  /-- Everybody is entitled to everything. -/
  entitleAll : Bool
  /-- The certificates and keys. -/
  tls : TlsSettings
  /-- How long features are fresh. -/
  cacheTtl : Nat
  /-- How many organizations there is room for. -/
  cacheMaxEntries : Nat
  /-- The version of the interface. -/
  apiVersion : String
  /-- The commit that the service was built from. -/
  commit : String
deriving DecidableEq, Inhabited

/-- The values of variables. -/
abbrev Variables := String → Option String

namespace Variables

/-- The trimmed value of a variable that is set. -/
def optional (vars : Variables) (key : String) : Option String :=
  ((vars key).map Text.trim).filter (· ≠ "")

/-- The trimmed value of a variable, or its default. -/
def string (vars : Variables) (key default : String) : String :=
  (vars.optional key).getD default

/-- The truth value of a variable, or its default. -/
def flag (vars : Variables) (key : String) (default : Bool) : Except SettingsError Bool :=
  match vars.optional key with
  | none => .ok default
  | some value =>
    let lower := String.ofList (value.toList.map Char.toLower)
    if lower = "true" || lower = "1" then .ok true
    else if lower = "false" || lower = "0" then .ok false
    else .error (.invalid (key ++ " must be true, false, 1, or 0"))

/-- The natural number up to `most` of a variable, or its default. -/
def number (vars : Variables) (key : String) (most default : Nat) : Except SettingsError Nat :=
  match vars.optional key with
  | none => .ok default
  | some value => match Decimal.readNat? most value with
    | some n => .ok n
    | none => .error (.invalid (key ++ " must be a non-negative integer"))

end Variables

namespace TlsSettings

/-- There are no certificates and keys. -/
def isEmpty (t : TlsSettings) : Bool :=
  t.ca.isNone && t.cert.isNone && t.key.isNone

/-- The sources that the variables name: the values of variables themselves, or files. -/
def ofVariables (vars : Variables) (inline : Bool) : TlsSettings :=
  if inline then
    ⟨(vars.optional "ENT_CA_CERT").map .inline, (vars.optional "ENT_CERT").map .inline,
      (vars.optional "ENT_KEY").map .inline⟩
  else
    ⟨(vars.optional "ENT_CA_PATH").map .file, (vars.optional "ENT_CERT_PATH").map .file,
      (vars.optional "ENT_KEY_PATH").map .file⟩

end TlsSettings

namespace PemSource

/-- The size in bytes that a file may have. -/
def maxFileBytes : Nat := 1024 * 1024

/-- The text of a source. -/
def read (files : FileReader) : PemSource → Except SettingsError String
  | .inline text => .ok text
  | .file path => match files path with
    | .error e => .error (.io (path ++ ": " ++ e.message))
    | .ok bytes =>
      if bytes.size > maxFileBytes then .error (.invalid (path ++ " exceeds pem size limit"))
      else match String.fromUTF8? bytes with
        | some text => .ok text
        | none => .error (.invalid (path ++ " must be utf-8"))

/-- The text of a source, if there is one. -/
def readOptional (files : FileReader) : Option PemSource → Except SettingsError (Option String)
  | none => .ok none
  | some source => (source.read files).map some

end PemSource

/-- The certificates and keys. -/
def TlsSettings.load (files : FileReader) (t : TlsSettings) : Except SettingsError TlsMaterial := do
  let ca ← PemSource.readOptional files t.ca
  let cert ← PemSource.readOptional files t.cert
  let key ← PemSource.readOptional files t.key
  return ⟨ca, cert, key⟩

namespace Settings

/-- The version of this program. -/
def programVersion : String := "0.1.0"

/-- A path without blanks and slashes at its end, and with a slash at its start. -/
def normalizePath (path : String) : String :=
  let cs := ((Text.trimChars path.toList).reverse.dropWhile (· = '/')).reverse
  String.ofList (if cs.head? = some '/' then cs else '/' :: cs)

/-- The settings that the variables state, whether they make sense together or not. -/
def ofVariables (vars : Variables) : Except SettingsError Settings := do
  let inline ← vars.flag "ENT_CERTS_FROM_ENV" false
  let port ← vars.number "ENT_PORT" Decimal.maxU16 3000
  let timeout ← vars.number "ENT_IT_SERVICES_TIMEOUT_SECONDS" Decimal.maxU64 10
  let allowEmptyBundles ← vars.flag "ENT_ALLOW_EMPTY_BUNDLES" false
  let accountsMock ← vars.flag "ENT_AMS_MOCK" false
  let directoryMock ← vars.flag "ENT_BOP_MOCK" false
  let debug ← vars.flag "ENT_DEBUG" false
  let entitleAll ← vars.flag "ENT_ENTITLE_ALL" false
  let cacheTtl ← vars.number "ENT_CACHE_TTL_SECONDS" Decimal.maxU64 1800
  let cacheMaxEntries ← vars.number "ENT_CACHE_MAX_ENTRIES" Decimal.maxU64 10000
  return {
    port := port
    featuresHost := vars.string "ENT_SUBS_HOST" "https://subscription.qa.api.redhat.com"
    featuresPath := normalizePath (vars.string "ENT_FEATURES_PATH" "/svcrest/subscription/v5")
    timeout := timeout
    bundlesFile := vars.string "ENT_BUNDLE_INFO_YAML" "bundles/bundles.yml"
    allowEmptyBundles := allowEmptyBundles
    openapiFile := vars.string "ENT_OPENAPI_SPEC_PATH" "apispec/api.spec.json"
    accounts := {
      host := vars.string "ENT_AMS_HOST" "https://api.openshift.com"
      credentials := {
        clientId := vars.string "ENT_CLIENT_ID" ""
        clientSecret := vars.string "ENT_CLIENT_SECRET" ""
        tokenUrl := vars.string "ENT_TOKEN_URL" ("https://sso.redhat.com/auth/realms/"
          ++ "redhat-external/protocol/openid-connect/token") }
      mock := accountsMock
      hint := vars.optional "ENT_AMS_ACCT_MGMT_11_ERR_MSG" }
    directory := {
      url := vars.string "ENT_BOP_URL" ""
      clientId := vars.string "ENT_BOP_CLIENT_ID" ""
      token := vars.string "ENT_BOP_TOKEN" ""
      environment := vars.string "ENT_BOP_ENV" ""
      mock := directoryMock }
    screeningHost := vars.string "ENT_COMPL_HOST" ""
    paidSuffix := vars.string "ENT_PAID_FEATURE_SUFFIX" Registry.defaultSuffix
    debug := debug
    entitleAll := entitleAll
    tls := TlsSettings.ofVariables vars inline
    cacheTtl := cacheTtl
    cacheMaxEntries := cacheMaxEntries
    apiVersion := vars.string "ENT_API_VERSION" programVersion
    commit := vars.string "ENT_COMMIT" "unknown" }

/-! ### Checks -/

/-- A number may not be zero. -/
def checkPositive (key : String) (n : Nat) : Except SettingsError Unit :=
  if n = 0 then .error (.invalid (key ++ " must be greater than zero")) else .ok ()

/-- A text that is not empty has to be the URL of a web service. -/
def checkUrl (parse : Url.Parser) (key value : String) : Except SettingsError Unit :=
  if value = "" then .ok ()
  else match parse value with
    | .error e => .error (.invalid (key ++ " is not a valid url: " ++ e.message))
    | .ok url =>
      if url.scheme = "http" || url.scheme = "https" then .ok ()
      else .error (.invalid (key ++ " uses unsupported scheme " ++ url.scheme))

/-- The credentials for the accounts system are all set, or identifier and secret both are
not. -/
def checkCredentials (c : Client.Credentials) : Except SettingsError Unit :=
  if c.clientId = "" && c.clientSecret = "" then .ok ()
  else
    let empty := [("ENT_CLIENT_ID", c.clientId), ("ENT_CLIENT_SECRET", c.clientSecret),
      ("ENT_TOKEN_URL", c.tokenUrl)].find? fun p ↦ p.2 = ""
    match empty with
    | some (key, _) =>
      .error (.missing (key ++ " must be set together with the other AMS credentials"))
    | none => .ok ()

/-- A certificate needs a key, and a key a certificate. -/
def checkPair (t : TlsSettings) : Except SettingsError Unit :=
  match t.cert, t.key with
  | some _, none => .error (.missing "client certificate configured without a private key")
  | none, some _ => .error (.missing "private key configured without a client certificate")
  | _, _ => .ok ()

/-- The settings make sense together, by a reader of URLs. -/
def validateBy (parse : Url.Parser) (s : Settings) : Except SettingsError Unit := do
  checkPositive "ENT_PORT" s.port
  checkPositive "ENT_IT_SERVICES_TIMEOUT_SECONDS" s.timeout
  checkPositive "ENT_CACHE_TTL_SECONDS" s.cacheTtl
  checkPositive "ENT_CACHE_MAX_ENTRIES" s.cacheMaxEntries
  if Text.isBlank s.paidSuffix then .error (.invalid "ENT_PAID_FEATURE_SUFFIX must not be empty")
  checkUrl parse "ENT_SUBS_HOST" s.featuresHost
  checkUrl parse "ENT_AMS_HOST" s.accounts.host
  checkUrl parse "ENT_TOKEN_URL" s.accounts.credentials.tokenUrl
  checkUrl parse "ENT_BOP_URL" s.directory.url
  checkUrl parse "ENT_COMPL_HOST" s.screeningHost
  if s.accounts.mock then pure () else checkCredentials s.accounts.credentials
  checkPair s.tls

/-- The settings make sense together. -/
def validate (s : Settings) : Except SettingsError Unit :=
  s.validateBy Url.parse

/-- The settings that the variables state, if they make sense together by a reader of URLs. -/
def loadBy (parse : Url.Parser) (vars : Variables) : Except SettingsError Settings := do
  let s ← ofVariables vars
  s.validateBy parse
  return s

/-- The settings that the variables state, if they make sense together. -/
def load (vars : Variables) : Except SettingsError Settings :=
  loadBy Url.parse vars

/-! ### What follows from them -/

/-- The address that the service listens to. -/
def listenAddress (s : Settings) : String :=
  "0.0.0.0:" ++ toString s.port

/-- There are credentials for the accounts system. -/
def hasCredentials (s : Settings) : Bool :=
  s.accounts.credentials.clientId ≠ ""

/-- The settings of the cache. -/
def cacheConfig (s : Settings) : Cache.Config :=
  ⟨s.cacheTtl * 1000, s.cacheMaxEntries⟩

end Settings

end Licensing
