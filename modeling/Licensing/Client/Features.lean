import Licensing.Cache.Store
import Licensing.Client.Build

/-!
# The client of the feature service

The service is asked about one organization at a time, always about the same features. They are
part of the address, so the only thing that a request adds is the organization.
-/

namespace Licensing.Client

/-- The client of the feature service. -/
structure FeatureClient where
  /-- The address, which names the features. -/
  endpoint : Url
deriving Inhabited

namespace FeatureClient

/-- The name of the service. -/
abbrev service : String := featureService

/-- The client for a host, a path on it and the features. -/
def create (host basePath : String) (features : List String) : Except InitError FeatureClient :=
  let base := String.ofList ((basePath.toList.reverse.dropWhile (· = '/')).reverse)
  (buildUrl service host (base ++ "/featureStatus") (features.map (("features", ·)))).map .mk

/-- The URL that is asked about an organization. -/
def urlFor (c : FeatureClient) (org : String) : Url :=
  c.endpoint.extendQuery [("accountId", org)]

/-- The request about an organization. -/
def request (c : FeatureClient) (org : String) : Request :=
  ⟨"GET", c.urlFor org, [], []⟩

/-- What the reply says about the features. -/
def understand (status : Nat) (body : Utf8.Bytes) : Except RemoteError Snapshot :=
  if isSuccess status then decodeBody service Snapshot.ofDocument? body
  else .error (statusError service status body)

/-- Asks about an organization. -/
def fetch {σ : Type} (network : Network σ) (c : FeatureClient) (s : σ) (org : String) :
    Cache.Outcome × σ :=
  match Client.fetch network service s (c.request org) with
  | (.error e, s) => (.error e, s)
  | (.ok (status, body), s) => (understand status body, s)

end FeatureClient

end Licensing.Client
