import Licensing.Cache.Machine

/-!
# What a run tells about requests

A list of events says what the callers did. Here it is said what the feature service saw of it:
which requests were sent, which of them came back with which outcome and when, and which were
given up because their caller was cancelled.
-/

namespace Licensing.Cache

/-- A request that came back. -/
structure Fetch where
  /-- The caller that sent it. -/
  caller : Nat
  /-- The organization it was about. -/
  org : String
  /-- Its outcome. -/
  outcome : Outcome
  /-- When it came back. -/
  time : Nat
deriving Inhabited

/-- Something that happens to a request. -/
inductive Signal where
  /-- A caller sends it. -/
  | sent (caller : Nat) (org : String)
  /-- It comes back. -/
  | returned (f : Fetch)
  /-- Its caller is cancelled. -/
  | lost (caller : Nat) (org : String)
deriving Inhabited

namespace Signal

/-- The request about an organization that came back. -/
def fetch? (org : String) : Signal → Option Fetch
  | .returned f => if f.org = org then some f else none
  | _ => none

/-- The organization whose outcome is remembered. -/
def stored? : Signal → Option String
  | .returned f => some f.org
  | _ => none

/-- A request about an organization is sent. -/
def isSent (org : String) : Signal → Bool
  | .sent _ about => about = org
  | _ => false

/-- A request about an organization is given up. -/
def isLost (org : String) : Signal → Bool
  | .lost _ about => about = org
  | _ => false

end Signal

namespace Machine

/-- What an event does to requests. -/
def signal? (m : Machine) : Event → Option Signal
  | .move n .fetch => m.callers[n]?.map fun c ↦ .sent n c.org
  | .move n (.store o) => m.callers[n]?.map fun c ↦ .returned ⟨n, c.org, o, m.now⟩
  | .move n .cancel => if m.isFetching n then m.callers[n]?.map fun c ↦ .lost n c.org else none
  | _ => none

/-- What a list of events does to requests, as far as the events can happen. -/
def history (m : Machine) : List Event → List Signal
  | [] => []
  | e :: es => match m.step e with
    | some next => (m.signal? e).toList ++ next.history es
    | none => []

/-- The requests about an organization that came back, the first in front. -/
def fetches (m : Machine) (es : List Event) (org : String) : List Fetch :=
  (m.history es).filterMap (Signal.fetch? org)

/-- The organizations whose outcomes were remembered. -/
def storedOrgs (m : Machine) (es : List Event) : List String :=
  (m.history es).filterMap Signal.stored?

/-- The organizations whose outcomes were remembered after the last one about an organization, the
last in front; all of them, if there was none about it. -/
def newer (m : Machine) (es : List Event) (org : String) : List String :=
  (m.storedOrgs es).reverse.takeWhile (· ≠ org)

/-- How many requests about an organization were sent. -/
def sentCount (m : Machine) (es : List Event) (org : String) : Nat :=
  (m.history es).countP (Signal.isSent org)

/-- How many requests about an organization were given up. -/
def lostCount (m : Machine) (es : List Event) (org : String) : Nat :=
  (m.history es).countP (Signal.isLost org)

end Machine

end Licensing.Cache
