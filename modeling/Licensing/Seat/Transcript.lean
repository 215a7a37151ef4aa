import Licensing.Seat.Dialogue

/-!
# What is said in a conversation

A conversation with services is watched: every question is noted with its answer, in the order in
which they are asked. What a caller made the services do can be read off its transcript.
-/

namespace Licensing

/-- A question with its answer. -/
structure Exchange where
  /-- The question. -/
  call : SeatCall
  /-- The answer. -/
  answer : call.Answer

namespace Exchange

/-- The subscription whose deletion was asked for. -/
@[simp] def deletion? : Exchange → Option String
  | ⟨.deleteSubscription id, _⟩ => some id
  | _ => none

/-- The authorization that was asked for. -/
@[simp] def authorization? : Exchange → Option AuthorizationRequest
  | ⟨.authorize request, _⟩ => some request
  | _ => none

/-- The failure of a service. -/
@[simp] def failure? : Exchange → Option RemoteError
  | ⟨_, .error e⟩ => some e
  | ⟨_, .ok _⟩ => none

/-- The subscription that was made. -/
def issued? : Exchange → Option String
  | ⟨.authorize _, .ok answer⟩ => if answer.allowed then answer.subscriptionId else none
  | _ => none

/-- Something was changed: a seat was granted, or a subscription deleted. -/
def effective : Exchange → Bool
  | ⟨.authorize _, .ok answer⟩ => answer.allowed
  | ⟨.deleteSubscription _, .ok _⟩ => true
  | _ => false

end Exchange

/-- The subscriptions whose deletion was asked for. -/
def deletions (es : List Exchange) : List String :=
  es.filterMap Exchange.deletion?

/-- The authorizations that were asked for. -/
def authorizations (es : List Exchange) : List AuthorizationRequest :=
  es.filterMap Exchange.authorization?

/-- The failures that were met. -/
def failures (es : List Exchange) : List RemoteError :=
  es.filterMap Exchange.failure?

/-- The questions of a conversation with services that have a state and answer immediately, with
their answers. -/
def Dialogue.transcript {α σ : Type} (answer : σ → (c : SeatCall) → c.Answer × σ)
    (d : Dialogue α) (s : σ) : List Exchange :=
  match d with
  | .done _ | .fail _ => []
  | .ask c next =>
    let (r, s) := answer s c
    ⟨c, r⟩ :: (next r).transcript answer s
  | .join c c' next => match answer s c with
    | (.error e, _) => [⟨c, .error e⟩]
    | (.ok a, s) => match answer s c' with
      | (.error e, _) => [⟨c, .ok a⟩, ⟨c', .error e⟩]
      | (.ok b, s) => ⟨c, .ok a⟩ :: ⟨c', .ok b⟩ :: (next a b).transcript answer s

end Licensing
