import Licensing.Cache.Machine

/-!
# A run without the other organizations

What would be left of a run if nobody asked about the other organizations: the callers about one
organization do what they did, and time passes as it did, but the callers are numbered without the
others (`Machine.only`). What is seen of a run are these events, when they happened, and the
answers that the callers got (`Machine.sights`).
-/

namespace Licensing.Cache

/-- The caller that does a step. -/
def Event.caller? : Event → Option Nat
  | .move n _ => some n
  | .call .. | .tick _ => none

/-- What is seen of an event. -/
structure Sight where
  /-- What happened. -/
  event : Event
  /-- When it happened. -/
  time : Nat
  /-- The answer of the caller that did it, if that is done. -/
  answer : Option Lookup

namespace Machine

/-- The number of a caller when those about other organizations are left out. -/
def place (m : Machine) (org : String) (caller : Nat) : Nat :=
  (m.callers.take caller).countP fun c ↦ c.org = org

/-- What is left of an event without the callers about other organizations. -/
def only? (m : Machine) (org : String) : Event → Option Event
  | .call about force => if about = org then some (.call about force) else none
  | .move n mv => match m.callers[n]? with
    | some c => if c.org = org then some (.move (m.place org n) mv) else none
    | none => none
  | .tick ms => some (.tick ms)

/-- What is left of a list of events, as far as they can happen. -/
def only (m : Machine) (org : String) : List Event → List Event
  | [] => []
  | e :: es => match m.step e with
    | some next => (m.only? org e).toList ++ next.only org es
    | none => []

/-- What is seen of a list of events, as far as they can happen. -/
def sights (m : Machine) (org : String) : List Event → List Sight
  | [] => []
  | e :: es => match m.step e with
    | some next =>
      ((m.only? org e).map fun own ↦ ⟨own, m.now, e.caller?.bind next.answer?⟩).toList ++
        next.sights org es
    | none => []

end Machine

end Licensing.Cache
