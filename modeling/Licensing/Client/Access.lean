import Licensing.Text.Decimal
import Licensing.Remote

/-!
# Access tokens

The accounts system wants a token with every request. A token is asked for when there is none, or
when the one there is has come close to its end; who asks holds a lock, so that the others wait
for the same token. Any number of calls may need a token at the same time, and any of them may be
cancelled while it waits.

Like the cache this is a machine whose events are the steps of single calls.
-/

namespace Licensing.Client

/-- A token as the accounts system grants it. -/
structure Grant where
  /-- The token. -/
  token : String
  /-- How long it lives, in seconds. -/
  lifetime : Option Nat
deriving DecidableEq, Inhabited

/-- A token that is kept. -/
structure Token where
  /-- The token. -/
  text : String
  /-- From when on another one is asked for, in milliseconds. -/
  refreshAt : Nat
deriving DecidableEq, Inhabited

namespace Access

/-- How long a token lives that does not say it, in seconds. -/
def defaultLifetime : Nat := 300

/-- How long before its end a token is no longer used, in seconds. -/
def margin : Nat := 30

/-- The last second that the clock can show. -/
def clockEnd : Nat := 0x7FFFFFFFFFFFFFFF

/-- How long a token is used, in seconds. -/
def useTime (g : Grant) : Nat :=
  g.lifetime.getD defaultLifetime - margin

/-- The token to be kept at some time; none when its end is beyond what the clock can show. -/
def keep? (now : Nat) (g : Grant) : Option Token :=
  let refreshAt := now + useTime g * 1000
  if clockEnd < refreshAt / 1000 then none else some ⟨g.token, refreshAt⟩

/-- How far a call has come. -/
inductive Phase where
  /-- It has not asked for the lock yet. -/
  | entering
  /-- It waits for the lock. -/
  | queued
  /-- It holds the lock. -/
  | holding
  /-- It waits for a token. -/
  | requesting
  /-- It has a token. -/
  | ready (token : String)
  /-- It sent its request with a token. -/
  | sending (token : String)
  /-- It has its reply. -/
  | finished
  /-- It got no token. -/
  | failed (e : RemoteError)
  /-- The end of its token is beyond what the clock can show. -/
  | crashed
  /-- It was cancelled. -/
  | cancelled
deriving DecidableEq, Inhabited

/-- The calls and the token they share. -/
structure Machine where
  /-- The time, in milliseconds. -/
  now : Nat
  /-- The token that is kept. -/
  token : Option Token
  /-- Who holds the lock. -/
  holder : Option Nat
  /-- Who waits for the lock, the first in front. -/
  queue : List Nat
  /-- The calls that ever started, by number. -/
  calls : List Phase
deriving Inhabited

/-- A step of a call. -/
inductive Move where
  /-- It asks for the lock. -/
  | acquire
  /-- It looks at the token that is kept. -/
  | look
  /-- A token comes, or the failure to get one. -/
  | receive (outcome : Except RemoteError Grant)
  /-- It sends its request. -/
  | send
  /-- The reply comes. -/
  | reply
  /-- It is cancelled. -/
  | cancel

/-- Something that happens. -/
inductive Event where
  /-- Another call starts. -/
  | call
  /-- A call does a step. -/
  | move (call : Nat) (m : Move)
  /-- Time passes. -/
  | tick (ms : Nat)

namespace Machine

/-- No token and no calls. -/
def start : Machine :=
  ⟨0, none, none, [], []⟩

/-- A call comes to a phase. -/
def setPhase (m : Machine) (call : Nat) (p : Phase) : Machine :=
  { m with calls := m.calls.set call p }

/-- The lock goes to the first that waits for it. -/
def unlock (m : Machine) : Machine :=
  match m.queue with
  | next :: rest => { m with holder := some next, queue := rest }.setPhase next .holding
  | [] => { m with holder := none }

/-- A call leaves the lock and comes to a phase. -/
def leave (m : Machine) (call : Nat) (p : Phase) : Machine :=
  (m.setPhase call p).unlock

/-- The token that is kept, as long as it is to be used. -/
def fresh? (m : Machine) : Option String :=
  (m.token.filter fun t ↦ m.now < t.refreshAt).map Token.text

/-- A call that holds the lock takes the token that is kept or asks for another. -/
def look (m : Machine) (call : Nat) : Machine :=
  match m.fresh? with
  | some token => m.leave call (.ready token)
  | none => m.setPhase call .requesting

/-- A call that asked for a token gets one or fails. -/
def receive (m : Machine) (call : Nat) : Except RemoteError Grant → Machine
  | .error e => m.leave call (.failed e)
  | .ok g => match keep? m.now g with
    | some t => { m with token := some t }.leave call (.ready g.token)
    | none => m.leave call .crashed

/-- A call does a step, if it is one that its phase allows. -/
def move (m : Machine) (call : Nat) : Phase → Move → Option Machine
  | .entering, .acquire =>
    if m.holder.isNone then some ({ m with holder := some call }.setPhase call .holding)
    else some ({ m with queue := m.queue ++ [call] }.setPhase call .queued)
  | .holding, .look => some (m.look call)
  | .requesting, .receive outcome => some (m.receive call outcome)
  | .ready token, .send => some (m.setPhase call (.sending token))
  | .sending _, .reply => some (m.setPhase call .finished)
  | .queued, .cancel =>
    some ({ m with queue := m.queue.filter (· ≠ call) }.setPhase call .cancelled)
  | .holding, .cancel => some (m.leave call .cancelled)
  | .requesting, .cancel => some (m.leave call .cancelled)
  | .sending _, .cancel => some (m.setPhase call .cancelled)
  | _, _ => none

/-- What happens next, if it can happen. -/
def step (m : Machine) : Event → Option Machine
  | .call => some { m with calls := m.calls ++ [.entering] }
  | .move call move => match m.calls[call]? with
    | some p => m.move call p move
    | none => none
  | .tick ms => some { m with now := m.now + ms }

/-- The state after a list of events, if they can happen one after another. -/
def run (m : Machine) (es : List Event) : Option Machine :=
  es.foldlM step m

/-- A call starts when there are no others, and looks at the token. Its number comes with the
state. -/
def enter (m : Machine) : Nat × Machine :=
  let call := m.calls.length
  (call, (m.run [.call, .move call .acquire, .move call .look]).getD m)

/-- How far a call has come. -/
def phase? (m : Machine) (call : Nat) : Option Phase :=
  m.calls[call]?

/-- A step of a call; nothing changes when it cannot happen. -/
def poke (m : Machine) (call : Nat) (move : Move) : Machine :=
  (m.step (.move call move)).getD m

end Machine

end Access

end Licensing.Client
