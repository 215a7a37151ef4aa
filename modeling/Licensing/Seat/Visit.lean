import Licensing.Seat.Office
import Licensing.Seat.Transcript

/-!
# What one operation did

Among the operations that go on at the same time, one is watched: every question it asked is noted
with its answer, and with the accounts system as it was before and after. So what an operation did
can be told from what the others did between its questions.
-/

namespace Licensing.Seat

/-- A question of an operation, with what it made of the accounts system. -/
structure Visit where
  /-- The accounts system that was asked. -/
  before : Accounts
  /-- The question with its answer. -/
  exchange : Exchange
  /-- The accounts system that had answered. -/
  after : Accounts

/-- A quota or a subscription was changed. -/
def Visit.changes (v : Visit) : Bool :=
  decide (v.after.quotas ≠ v.before.quotas) ||
    decide (v.after.subscriptions ≠ v.before.subscriptions)

/-- The operation that an event starts, with its caller. -/
def Event.start? : Event → Option (Identity × Operation)
  | .start i operation => some (i, operation)
  | _ => none

/-- The operations that a list of events starts, with their callers. -/
def started (es : List Event) : List (Identity × Operation) :=
  es.filterMap Event.start?

namespace Office

variable (o : Office)

/-- What an event is for an operation: its next question, or nothing. -/
def visit? (n : Nat) : Event → Option Visit
  | .ask k user => if k = n then
      match o.operations[n]?.bind Dialogue.next? with
      | some ⟨c, _⟩ =>
        let (r, accounts) := answer o.accounts user c
        some ⟨o.accounts, ⟨c, r⟩, accounts⟩
      | none => none
    else none
  | _ => none

/-- What an operation asked in the course of a list of events, as far as the events can happen. -/
def visits (o : Office) (n : Nat) : List Event → List Visit
  | [] => []
  | e :: es => match o.step e with
    | some next => (o.visit? n e).toList ++ next.visits n es
    | none => []

end Office

end Licensing.Seat
