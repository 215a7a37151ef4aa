/-!
# Failures of the services behind

The feature service, the accounts system, the user directory and the screening service fail in
the same ways: with an answer that states an error, with no answer, or with one that cannot be
understood. Only the first have a status.
-/

namespace Licensing

/-- The failure of a request to a service. -/
inductive RemoteError where
  /-- An answer that states an error with a code. -/
  | api (service : String) (status : Nat) (code : String) (identifier operationId : Option String)
      (reason : String)
  /-- An answer with the status of an error. -/
  | client (service : String) (status : Nat) (message : String)
  /-- An answer of the user directory with the status of an error. -/
  | directory (status : Nat) (message : String)
  /-- No answer in time. -/
  | timeout (service : String)
  /-- The request did not get through. -/
  | transport (service message : String)
  /-- An answer that cannot be understood. -/
  | decode (service message : String)
deriving DecidableEq, Inhabited

namespace RemoteError

/-- The name of the user directory among the services. -/
def directoryService : String := "user-directory"

/-- The service that failed. -/
def service : RemoteError → String
  | .api service .. | .client service .. | .timeout service | .transport service _
  | .decode service _ => service
  | .directory .. => directoryService

/-- The status of the answer, if there was one to be understood. -/
def observedStatus : RemoteError → Option Nat
  | .api _ status .. | .client _ status _ | .directory status _ => some status
  | .timeout _ | .transport .. | .decode .. => none

/-- The failure in words. -/
def message : RemoteError → String
  | .api service status code _ _ reason =>
    service ++ " api error " ++ toString status ++ " " ++ code ++ ": " ++ reason
  | .client service status message =>
    service ++ " returned status " ++ toString status ++ ": " ++ message
  | .directory status message =>
    "user directory returned status " ++ toString status ++ ": " ++ message
  | .timeout service => service ++ " request timed out"
  | .transport service message => service ++ " request failed: " ++ message
  | .decode service message => service ++ " response could not be decoded: " ++ message

end RemoteError

end Licensing
