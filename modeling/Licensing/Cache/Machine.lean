import Licensing.Cache.Store

/-!
# Callers that share the cache

Any number of callers ask the cache at the same time. A caller whose answer is remembered is
done at once. The others take a *ticket* for the *flight* of their organization and wait for its
lock; who holds the lock looks again, for another caller may have made the request in the
meantime, and makes the request if there is still no answer. A caller may be cancelled while it
waits for the lock or for the feature service.

This is a machine: a state, and events that change it. Each event is one step of one caller,
the start of another caller, or time that passes, and an event that is not possible in a state
has no next state. What callers can do to each other is what can happen in a list of events.
-/

namespace Licensing.Cache

/-- How far a caller has come. -/
inductive Phase where
  /-- It has not looked yet. -/
  | entering
  /-- It found no answer; `seen` is the generation at that time. -/
  | checked (seen : Nat)
  /-- It has a ticket. -/
  | ticketed (seen lock : Nat)
  /-- It waits for the lock. -/
  | queued (seen lock : Nat)
  /-- It holds the lock. -/
  | holding (seen lock : Nat)
  /-- It looked again and found no answer. -/
  | cleared (lock : Nat)
  /-- It waits for the feature service. -/
  | fetching (lock : Nat)
  /-- It has its answer, or was cancelled, and still holds the lock. -/
  | releasing (lock : Nat) (answer : Option Lookup)
  /-- It has its answer, or was cancelled, and still has its ticket. -/
  | departing (lock : Nat) (answer : Option Lookup)
  /-- It is done. A caller without an answer was cancelled. -/
  | finished (answer : Option Lookup)
deriving DecidableEq, Inhabited

/-- A caller. -/
structure Caller where
  /-- The organization it asks about. -/
  org : String
  /-- Whether only an outcome that comes in after it started will do. -/
  force : Bool
  /-- How far it has come. -/
  phase : Phase
deriving DecidableEq, Inhabited

/-- The lock of a flight. -/
structure Lock where
  /-- Who holds it. -/
  holder : Option Nat
  /-- Who waits for it, the first in front. -/
  queue : List Nat
deriving DecidableEq, Inhabited

/-- A flight: what the callers for one organization share. -/
structure Flight where
  /-- The number of its lock. -/
  lock : Nat
  /-- How many tickets are out. -/
  tickets : Nat
deriving DecidableEq, Inhabited

/-- The cache with all its callers. -/
structure Machine where
  /-- How long outcomes are fresh and how many there is room for. -/
  config : Config
  /-- The time, in milliseconds. -/
  now : Nat
  /-- What the cache remembers. -/
  store : Store
  /-- The flights by organization. -/
  flights : OrderedMap Flight
  /-- The locks that were ever made, by number. -/
  locks : List Lock
  /-- The callers that ever started, by number. -/
  callers : List Caller
deriving Inhabited

/-- A step of a caller. -/
inductive Move where
  /-- It looks for an answer. -/
  | check
  /-- It takes a ticket. -/
  | join
  /-- It asks for the lock. -/
  | acquire
  /-- It looks again. -/
  | recheck
  /-- It sends the request. -/
  | fetch
  /-- The request comes back, and its outcome is remembered. -/
  | store (outcome : Outcome)
  /-- It gives the lock to the first that waits. -/
  | unlock
  /-- It gives its ticket back. -/
  | leave
  /-- It is cancelled. -/
  | cancel

/-- Something that happens. -/
inductive Event where
  /-- Another caller starts. -/
  | call (org : String) (force : Bool)
  /-- A caller does a step. -/
  | move (caller : Nat) (m : Move)
  /-- Time passes. -/
  | tick (ms : Nat)

namespace Machine

/-- The cache before anything has happened. -/
def start (c : Config) : Machine :=
  ⟨c, 0, .empty, ∅, [], []⟩

/-- A caller comes to a phase. -/
def setPhase (m : Machine) (caller : Nat) (p : Phase) : Machine :=
  { m with callers := m.callers.modify caller fun c ↦ { c with phase := p } }

/-- The answer that is remembered for an organization. -/
def lookup? (m : Machine) (org : String) (newerThan : Option Nat) : Option Lookup :=
  m.store.lookup? m.config.ttl m.now org newerThan

/-! ### Steps -/

/-- A caller looks for an answer. One that needs a later outcome does not look. -/
def check (m : Machine) (caller : Nat) (c : Caller) : Machine :=
  match if c.force then none else m.lookup? c.org none with
  | some hit => m.setPhase caller (.finished (some hit))
  | none => m.setPhase caller (.checked m.store.generation)

/-- A caller takes a ticket for the flight of its organization, which is opened if there is
none. -/
def join (m : Machine) (caller : Nat) (c : Caller) (seen : Nat) : Machine :=
  match m.flights.get? c.org with
  | some f =>
    { m with flights := m.flights.insert c.org { f with tickets := f.tickets + 1 } }.setPhase
      caller (.ticketed seen f.lock)
  | none =>
    let lock := m.locks.length
    { m with
      flights := m.flights.insert c.org ⟨lock, 1⟩
      locks := m.locks ++ [Lock.mk none []] }.setPhase caller (.ticketed seen lock)

/-- A caller takes a free lock, or waits for it behind the others. -/
def acquire (m : Machine) (caller seen lock : Nat) : Machine :=
  match m.locks[lock]? with
  | some ⟨none, _⟩ =>
    { m with locks := m.locks.modify lock fun l ↦ { l with holder := some caller } }.setPhase
      caller (.holding seen lock)
  | _ =>
    { m with locks := m.locks.modify lock fun l ↦ { l with queue := l.queue ++ [caller] } }.setPhase
      caller (.queued seen lock)

/-- A caller that holds the lock looks again. One that needs a later outcome takes only what
came in after it started. -/
def recheck (m : Machine) (caller : Nat) (c : Caller) (seen lock : Nat) : Machine :=
  match m.lookup? c.org (if c.force then some seen else none) with
  | some hit => m.setPhase caller (.releasing lock (some hit))
  | none => m.setPhase caller (.cleared lock)

/-- The outcome of a caller's request is remembered. -/
def record (m : Machine) (caller : Nat) (c : Caller) (lock : Nat) (o : Outcome) : Machine :=
  let (store, answer) := m.store.record m.config m.now c.org o
  { m with store := store }.setPhase caller (.releasing lock (some answer))

/-- A caller that was given the lock holds it. -/
def grant (m : Machine) (caller : Nat) : Machine :=
  { m with callers := m.callers.modify caller fun c ↦
      match c.phase with
      | .queued seen lock => { c with phase := .holding seen lock }
      | _ => c }

/-- A lock goes to the first that waits for it. -/
def unlock (m : Machine) (lock : Nat) : Machine :=
  match m.locks[lock]? with
  | some ⟨_, next :: rest⟩ =>
    { m with locks := m.locks.set lock ⟨some next, rest⟩ }.grant next
  | some ⟨_, []⟩ => { m with locks := m.locks.set lock ⟨none, []⟩ }
  | none => m

/-- A ticket for an organization is given back. The last one closes the flight. -/
def leave (m : Machine) (org : String) : Machine :=
  match m.flights.get? org with
  | some f =>
    if f.tickets ≤ 1 then { m with flights := m.flights.erase org }
    else { m with flights := m.flights.insert org { f with tickets := f.tickets - 1 } }
  | none => m

/-- A caller stops waiting for a lock. -/
def dequeue (m : Machine) (caller lock : Nat) : Machine :=
  { m with locks := m.locks.modify lock fun l ↦ { l with queue := l.queue.filter (· ≠ caller) } }

/-- A caller does a step, if it is one that its phase allows. -/
def move (m : Machine) (caller : Nat) (c : Caller) : Phase → Move → Option Machine
  | .entering, .check => some (m.check caller c)
  | .checked seen, .join => some (m.join caller c seen)
  | .ticketed seen lock, .acquire => some (m.acquire caller seen lock)
  | .ticketed _ lock, .cancel => some (m.setPhase caller (.departing lock none))
  | .queued _ lock, .cancel =>
    some ((m.dequeue caller lock).setPhase caller (.departing lock none))
  | .holding seen lock, .recheck => some (m.recheck caller c seen lock)
  | .holding _ lock, .cancel => some (m.setPhase caller (.releasing lock none))
  | .cleared lock, .fetch => some (m.setPhase caller (.fetching lock))
  | .fetching lock, .store outcome => some (m.record caller c lock outcome)
  | .fetching lock, .cancel => some (m.setPhase caller (.releasing lock none))
  | .releasing lock answer, .unlock =>
    some ((m.unlock lock).setPhase caller (.departing lock answer))
  | .departing _ answer, .leave => some ((m.leave c.org).setPhase caller (.finished answer))
  | _, _ => none

/-- What happens next, if it can happen. -/
def step (m : Machine) : Event → Option Machine
  | .call org force => some { m with callers := m.callers ++ [Caller.mk org force .entering] }
  | .move caller move => match m.callers[caller]? with
    | some c => m.move caller c c.phase move
    | none => none
  | .tick ms => some { m with now := m.now + ms }

/-- The state after a list of events, if they can happen one after another. -/
def run (m : Machine) (es : List Event) : Option Machine :=
  es.foldlM step m

/-- How far a caller has come. -/
def phase? (m : Machine) (caller : Nat) : Option Phase :=
  m.callers[caller]?.map Caller.phase

/-! ### Callers on their own -/

/-- The step that a caller in a phase does by itself; none where it waits or is done. -/
def ownMove? : Phase → Option Move
  | .entering => some .check
  | .checked _ => some .join
  | .ticketed .. => some .acquire
  | .holding .. => some .recheck
  | .cleared _ => some .fetch
  | .releasing .. => some .unlock
  | .departing .. => some .leave
  | .queued .. | .fetching _ | .finished _ => none

/-- A caller goes on as far as it can without waiting, for at most so many steps. -/
def proceed (caller : Nat) : Nat → Machine → Machine
  | 0, m => m
  | steps + 1, m =>
    match (m.phase? caller).bind ownMove? with
    | none => m
    | some move => match m.step (.move caller move) with
      | some next => proceed caller steps next
      | none => m

/-- More steps than a caller has in all. -/
def manySteps : Nat := 10

/-- A caller goes on as far as it can without waiting. -/
def settle (m : Machine) (caller : Nat) : Machine :=
  proceed caller manySteps m

/-- Something happens to a caller, which then goes on as far as it can; nothing changes when
it cannot happen. -/
def poke (m : Machine) (caller : Nat) (move : Move) : Machine :=
  match m.step (.move caller move) with
  | some next => next.settle caller
  | none => m

/-- Another caller starts, and goes on as far as it can. Its number comes with the state. -/
def enter (m : Machine) (org : String) (force : Bool) : Nat × Machine :=
  let caller := m.callers.length
  (caller, { m with callers := m.callers ++ [Caller.mk org force .entering] }.settle caller)

/-- Whether a caller waits for the feature service. -/
def isFetching (m : Machine) (caller : Nat) : Bool :=
  match m.phase? caller with
  | some (.fetching _) => true
  | _ => false

/-- The answer of a caller that is done. -/
def answer? (m : Machine) (caller : Nat) : Option Lookup :=
  match m.phase? caller with
  | some (.finished answer) => answer
  | _ => none

/-- The answer to one caller when there are no others, and whether it sent a request. The
request takes some time, after which its outcome is known. -/
def ask (m : Machine) (org : String) (force : Bool) (delay : Nat) (outcome : Outcome) :
    Machine × Option Lookup × Bool :=
  let (caller, m) := m.enter org force
  let fetched := m.isFetching caller
  let m := if fetched then { m with now := m.now + delay }.poke caller (.store outcome) else m
  (m, m.answer? caller, fetched)

end Machine

end Licensing.Cache
