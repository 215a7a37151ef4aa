import Licensing.Client.Directory
import Licensing.Client.Features
import Licensing.Service.Router
import Licensing.Settings

/-!
# Starting the service

The service is put together from its settings: the registry, the clients of the services behind,
and what takes the place of those that are not there.
-/

namespace Licensing.Service

open Client (AccountsClient DirectoryClient FeatureClient InitError Network ScreeningClient)

/-- Why the service cannot be started. -/
inductive StartError where
  /-- The settings make no sense. -/
  | config (e : SettingsError)
  /-- The registry cannot be loaded. -/
  | bundles (e : BundleError)
  /-- A client cannot be made. -/
  | provider (e : InitError)
  /-- The port cannot be listened to. -/
  | transport (message : String)
deriving Inhabited

/-- The error in words. -/
def StartError.message : StartError → String
  | .config e => "config error: " ++ e.message
  | .bundles e => e.message
  | .provider e => e.message
  | .transport message => "transport error: " ++ message

/-- The services behind, with the state of the network that they are reached by. What has no
client is in memory. -/
structure Links (σ : Type) where
  /-- The client of the feature service. -/
  features : FeatureClient
  /-- The client of the accounts system. -/
  accounts : Option AccountsClient
  /-- The client of the user directory. -/
  directory : Option DirectoryClient
  /-- The accounts system and the user directory in memory. -/
  memory : Accounts
  /-- The state of the network. -/
  network : σ

variable {σ : Type}

/-- Asks the accounts system. -/
def Links.askAccounts (network : Network σ) (l : Links σ) (c : SeatCall) : c.Answer × Links σ :=
  match l.accounts with
  | some client =>
    let (answer, client, s) := client.ask network l.network c
    (answer, { l with accounts := some client, network := s })
  | none =>
    let (answer, memory) := l.memory.answer c
    (answer, { l with memory := memory })

/-- Asks the service that a question is for. -/
def Links.ask (network : Network σ) (l : Links σ) : (c : SeatCall) → c.Answer × Links σ
  | .user username => match l.directory with
    | some client =>
      let (answer, s) := client.ask network l.network username
      (answer, { l with network := s })
    | none =>
      let (answer, memory) := l.memory.answer (.user username)
      (answer, { l with memory := memory })
  | c => l.askAccounts network c

/-- The services behind as they are reached by a network. -/
def Links.backends (network : Network σ) (screening : Option ScreeningClient) :
    Backends (Links σ) where
  features l org :=
    let (outcome, s) := l.features.fetch network l.network org
    (outcome, { l with network := s })
  seats l c := l.ask network c
  screening := screening.map fun client l r ↦
    let (answer, s) := client.ask network l.network r
    (answer, { l with network := s })

/-- The service with what reaches the services behind. -/
structure Running (σ : Type) where
  /-- The settings. -/
  settings : Settings
  /-- The service. -/
  state : State (Links σ)
  /-- The client of the screening service. -/
  screening : Option ScreeningClient

/-- The client of the accounts system, unless one in memory takes its place. -/
def accountsClient (s : Settings) : Except InitError (Option AccountsClient) :=
  if s.accounts.mock then .ok none
  else
    let credentials := if s.hasCredentials then some s.accounts.credentials else none
    (AccountsClient.create s.accounts.host credentials).map some

/-- The client of the user directory, unless there is none or one in memory takes its place. -/
def directoryClient (s : Settings) : Except InitError (Option DirectoryClient) :=
  if s.directory.mock || s.directory.url = "" then .ok none
  else (DirectoryClient.create s.directory.url s.directory.clientId s.directory.token
    s.directory.environment).map some

/-- The client of the screening service, unless there is none. -/
def screeningClient (s : Settings) : Except InitError (Option ScreeningClient) :=
  if s.screeningHost = "" then .ok none else (ScreeningClient.create s.screeningHost).map some

/-- The service that the settings describe. -/
def start (files : FileReader) (s : Settings) (network : σ) : Except StartError (Running σ) := do
  s.validate.mapError .config
  let registry ← (Registry.load files s.bundlesFile s.paidSuffix s.allowEmptyBundles).mapError
    .bundles
  let material ← (s.tls.load files).mapError .config
  material.check.mapError .provider
  let features ← (FeatureClient.create s.featuresHost s.featuresPath
    registry.skuBasedNames).mapError .provider
  let accounts ← (accountsClient s).mapError .provider
  let directory ← (directoryClient s).mapError .provider
  let screening ← (screeningClient s).mapError .provider
  return {
    settings := s
    screening := screening
    state := {
      evaluator := Evaluator.start registry s.cacheConfig s.entitleAll
      envelopes := EnvelopeStyle.ofHint s.accounts.hint
      metrics := some default
      world := ⟨features, accounts, directory, default, network⟩
      apiVersion := s.apiVersion
      commit := s.commit
      openapiFile := s.openapiFile } }

end Licensing.Service
