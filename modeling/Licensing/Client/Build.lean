import Licensing.Client.Exchange
import Licensing.Url.Parse

/-!
# Addresses of services
-/

namespace Licensing.Client

/-- The URL of a path below the base of a service, with pairs in its query. -/
def buildUrl (service base path : String) (pairs : List (String × String)) :
    Except InitError Url :=
  let joined := joinUrl base path
  match Url.parse joined with
  | .ok url => .ok (url.extendQuery pairs)
  | .error e =>
    let failure := RemoteError.transport service ("invalid url " ++ joined ++ ": " ++ e.message)
    .error (.client failure.message)

end Licensing.Client
