import Licensing.Envelope
import Licensing.Seat.Types

/-!
# Conversations with the accounts system and the user directory

A seat operation asks the two services and decides by their answers. Such a conversation is data: it
ends with a result or an error, it asks a question and goes on with the answer, or it asks two
questions at once and goes on when both are answered. What the services answer, and which of two
answers comes first, is left open here, so whatever holds of all conversations of an operation holds
for every behaviour of the services.
-/

namespace Licensing

/-- A question to one of the services. -/
inductive SeatCall where
  /-- The quota of an organization. -/
  | quotaCost (org search : String)
  /-- A page of subscriptions. -/
  | subscriptions (query : SubscriptionQuery)
  /-- One subscription. -/
  | subscription (id : String)
  /-- The deletion of a subscription. -/
  | deleteSubscription (id : String)
  /-- The authorization of a seat. -/
  | authorize (request : AuthorizationRequest)
  /-- The name that an organization has in the accounts system. -/
  | convertOrg (org : String)
  /-- A user of the directory. -/
  | user (username : String)
deriving DecidableEq, Inhabited

/-- What a question is answered with when all goes well. -/
abbrev SeatCall.Reply : SeatCall → Type
  | .quotaCost .. => Option Quota
  | .subscriptions _ => List Subscription
  | .subscription _ => Subscription
  | .deleteSubscription _ => Unit
  | .authorize _ => Authorization
  | .convertOrg _ => String
  | .user _ => DirectoryUser

/-- The answer to a question. -/
abbrev SeatCall.Answer (c : SeatCall) : Type :=
  Except RemoteError c.Reply

/-- A conversation. -/
inductive Dialogue (α : Type) where
  /-- It ends with a result. -/
  | done (result : α)
  /-- It ends with an error. -/
  | fail (e : SeatError)
  /-- It asks a question and goes on with the answer. -/
  | ask (c : SeatCall) (next : c.Answer → Dialogue α)
  /-- It asks two questions at once and goes on when both are answered well. It ends with the first
  failure that comes, and then the other answer is not waited for. -/
  | join (c c' : SeatCall) (next : c.Reply → c'.Reply → Dialogue α)

namespace Dialogue

variable {α β σ : Type}

/-- A conversation that goes on with the result of another. -/
def bind (d : Dialogue α) (f : α → Dialogue β) : Dialogue β :=
  match d with
  | .done a => f a
  | .fail e => .fail e
  | .ask c next => .ask c fun r ↦ (next r).bind f
  | .join c c' next => .join c c' fun a b ↦ (next a b).bind f

instance : Monad Dialogue where
  pure := .done
  bind := Dialogue.bind

/-- Goes on with the reply in an answer; a service that fails ends the conversation. -/
def settle {ρ : Type} (next : ρ → Dialogue α) : Except RemoteError ρ → Dialogue α
  | .ok reply => next reply
  | .error e => .fail (.remote e)

/-- Asks a question; a service that fails ends the conversation. -/
def call (c : SeatCall) : Dialogue c.Reply :=
  .ask c (settle .done)

/-- Asks two questions at once; a service that fails ends the conversation. -/
def both (c c' : SeatCall) : Dialogue (c.Reply × c'.Reply) :=
  .join c c' fun a b ↦ .done (a, b)

/-- Ends the conversation unless a condition holds. -/
def require (condition : Bool) (e : SeatError) : Dialogue Unit :=
  if condition then .done () else .fail e

/-- The next question, with how the conversation goes on with the answer. Of two questions at once
this is the first one, and the other one is asked when that is answered well: so it is with services
that answer immediately. -/
def next? : Dialogue α → Option ((c : SeatCall) × (c.Answer → Dialogue α))
  | .done _ | .fail _ => none
  | .ask c next => some ⟨c, next⟩
  | .join c c' next => some ⟨c, settle fun a ↦ .ask c' (settle (next a))⟩

/-- The outcome of a conversation with services that have a state and answer immediately. -/
def run (answer : σ → (c : SeatCall) → c.Answer × σ) (d : Dialogue α) (s : σ) :
    Except SeatError α × σ :=
  match d with
  | .done a => (.ok a, s)
  | .fail e => (.error e, s)
  | .ask c next =>
    let (r, s) := answer s c
    (next r).run answer s
  | .join c c' next => match answer s c with
    | (.error e, s) => (.error (.remote e), s)
    | (.ok a, s) => match answer s c' with
      | (.error e, s) => (.error (.remote e), s)
      | (.ok b, s) => (next a b).run answer s

end Dialogue

end Licensing
