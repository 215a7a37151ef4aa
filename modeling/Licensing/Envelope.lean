import Licensing.Json.Value
import Licensing.Text.Blank
import Licensing.Remote

/-!
# What a caller is told about an error

Every error of the seat operations, and every failure of a service behind them, is told in one
shape, the envelope. An answer that states an error with a code keeps its code, its identifiers
and its status. To one of those, the refusal that the terms were not accepted, a sentence of the
operator's own can be added.
-/

namespace Licensing

/-- Why a seat operation fails. -/
inductive SeatError where
  /-- The request makes no sense. -/
  | badRequest (message : String)
  /-- The caller may not do that. -/
  | forbidden (message : String)
  /-- There are no seats left. -/
  | conflict (message : String)
  /-- A service gave an answer that cannot be right. -/
  | internal (message : String)
  /-- A service failed. -/
  | remote (e : RemoteError)
deriving DecidableEq, Inhabited

/-- The error in words. -/
def SeatError.message : SeatError → String
  | .badRequest message | .forbidden message | .conflict message | .internal message => message
  | .remote e => e.message

/-- What a caller is told. -/
structure Envelope where
  /-- The error in words. -/
  error : String
  /-- The code that the service stated. -/
  code : Option String
  /-- The identifier that the service stated. -/
  identifier : Option String
  /-- The operation that the service stated. -/
  operationId : Option String
  /-- The status of the answer. -/
  status : Nat
deriving DecidableEq, Inhabited

namespace Envelope

/-- An envelope without what only a service can state. -/
def plain (status : Nat) (error : String) : Envelope :=
  ⟨error, none, none, none, status⟩

/-- The error is not the caller's. -/
def isInternal (e : Envelope) : Bool :=
  500 ≤ e.status

/-- An envelope as a JSON value. -/
def toValue (e : Envelope) : Json.Value :=
  .present [("error", some (.text e.error)), ("code", e.code.map .text),
    ("identifier", e.identifier.map .text), ("operationId", e.operationId.map .text),
    ("status", some (.nat e.status))]

end Envelope

/-! ### Envelopes of failures -/

/-- What turns errors into envelopes. -/
structure EnvelopeStyle where
  /-- The sentence added to the refusal that the terms were not accepted. -/
  hint : Option String
deriving DecidableEq, Inhabited

namespace EnvelopeStyle

/-- The envelopes with a sentence, which is trimmed and may be blank. -/
def ofHint (hint : Option String) : EnvelopeStyle :=
  ⟨(hint.map Text.trim).filter (· ≠ "")⟩

/-- The code of the refusal that the terms were not accepted. -/
def termsCode : String := "ACCT-MGMT-11"

/-- The reason that a service stated, with the sentence where it belongs. -/
def reasonWithHint (t : EnvelopeStyle) (status : Nat) (code reason : String) : String :=
  match t.hint with
  | some hint => if code = termsCode && status = 403 then reason ++ " " ++ hint else reason
  | none => reason

/-- The envelope of a failure; `otherwise` is the status for one without. -/
def ofRemote (t : EnvelopeStyle) (e : RemoteError) (otherwise : Nat) : Envelope :=
  match e with
  | .api _ status code identifier operationId reason =>
    ⟨t.reasonWithHint status code reason, some code, identifier, operationId, status⟩
  | .client _ status message | .directory status message => .plain status message
  | .timeout _ | .transport .. | .decode .. => .plain otherwise e.message

/-- The envelope of an error of a seat operation. -/
def ofSeat (t : EnvelopeStyle) : SeatError → Envelope
  | .badRequest message => .plain 400 message
  | .forbidden message => .plain 403 message
  | .conflict message => .plain 409 message
  | .internal message => .plain 500 message
  | .remote e => t.ofRemote e 500

end EnvelopeStyle

end Licensing
