import Licensing.Seat.Manager
import Licensing.Seat.Memory

/-!
# Seat operations at the same time

Any number of seat operations go on at the same time with one accounts system, which others ask
too. It answers one question after another, so between two questions of an operation anything can
be asked by others.

This is a machine: the accounts system with the operations that have started, and events that
change it. Each event is the start of another operation, the next question of one that goes on, or
a question of somebody else. What the user directory answers is left open, so it comes with the
event. An operation that is never asked to go on was cancelled.

The last part says what a list of events made the accounts system do.
-/

namespace Licensing

namespace Seat

/-- A seat operation. -/
inductive Operation where
  /-- A page of seats is listed. -/
  | list (query : SeatQuery)
  /-- A seat is assigned to a user. -/
  | assign (account : String)
  /-- The seat behind a subscription is revoked. -/
  | revoke (id : String)

/-- What a seat operation ends with when all goes well. -/
inductive Outcome where
  /-- A page of seats. -/
  | page (p : SeatPage)
  /-- The seat that was assigned. -/
  | assigned (s : AssignedSeat)
  /-- The seat is no more. -/
  | revoked
deriving DecidableEq

/-- The conversation of an operation that a caller starts. -/
def Operation.dialogue (i : Identity) : Operation → Dialogue Outcome
  | .list query => do
    let page ← Seat.list i query
    return .page page
  | .assign account => do
    let seat ← Seat.assign i account
    return .assigned seat
  | .revoke id => do
    Seat.revoke i id
    return .revoked

/-- An accounts system with the operations that ever started. -/
structure Office where
  /-- The accounts system. -/
  accounts : Accounts
  /-- What the operations have still to say, by number. -/
  operations : List (Dialogue Outcome)

/-- Something that happens. -/
inductive Event where
  /-- A caller starts another operation. -/
  | start (i : Identity) (operation : Operation)
  /-- An operation asks its next question. If it is one to the user directory, this is what the
  directory answers. -/
  | ask (operation : Nat) (user : Except RemoteError DirectoryUser)
  /-- Somebody else asks the accounts system. -/
  | other (c : SeatCall)

namespace Office

variable (o : Office)

/-- A question is answered, by the user directory or by the accounts system. -/
def answer (a : Accounts) (user : Except RemoteError DirectoryUser) :
    (c : SeatCall) → c.Answer × Accounts
  | .user _ => (user, a)
  | c => a.answer c

/-- What happens next, if it can happen. -/
def step : Event → Option Office
  | .start i operation => some { o with operations := o.operations ++ [operation.dialogue i] }
  | .ask n user => match o.operations[n]?.bind Dialogue.next? with
    | some ⟨c, next⟩ =>
      let (r, accounts) := answer o.accounts user c
      some ⟨accounts, o.operations.set n (next r)⟩
    | none => none
  | .other c => some { o with accounts := (o.accounts.answer c).2 }

/-- The state after a list of events, if they can happen one after another. -/
def run (es : List Event) : Option Office :=
  es.foldlM step o

end Office

/-! ### What the accounts system did -/

/-- A change to how many seats an organization has in use. -/
inductive Deed where
  /-- A seat was granted against the quota of an organization. -/
  | granted (org : String)
  /-- A subscription of an organization was deleted. -/
  | deleted (org : String)
deriving DecidableEq

/-- What the accounts system does when it is asked. -/
def deed? (a : Accounts) : SeatCall → Option Deed
  | .authorize r => match (a.answer (.authorize r)).1 with
    | .ok answer =>
      if answer.allowed then (a.versionHolder r).map fun holder ↦ .granted holder.1 else none
    | .error _ => none
  | .deleteSubscription id => match (a.answer (.deleteSubscription id)).1 with
    | .ok () => ((a.subscriptions.get? id).bind Subscription.organizationId).map .deleted
    | .error _ => none
  | _ => none

namespace Office

variable (o : Office)

/-- The question that an event brings to the accounts system. -/
def question? : Event → Option SeatCall
  | .start .. => none
  | .ask n _ => match o.operations[n]?.bind Dialogue.next? with
    | some ⟨.user _, _⟩ => none
    | some ⟨c, _⟩ => some c
    | none => none
  | .other c => some c

/-- What an event makes the accounts system do. -/
def deed? (e : Event) : Option Deed :=
  (o.question? e).bind (Seat.deed? o.accounts)

/-- What a list of events makes the accounts system do, as far as the events can happen. -/
def deeds (o : Office) : List Event → List Deed
  | [] => []
  | e :: es => match o.step e with
    | some next => (o.deed? e).toList ++ next.deeds es
    | none => []

/-- How many seats were granted against the quota of an organization. -/
def grants (es : List Event) (org : String) : Nat :=
  (o.deeds es).count (.granted org)

/-- How many subscriptions of an organization were deleted. -/
def deletions (es : List Event) (org : String) : Nat :=
  (o.deeds es).count (.deleted org)

end Office

end Seat

end Licensing
