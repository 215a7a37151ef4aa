import Licensing.Cache.Machine
import Licensing.FeatureSource

/-!
# Callers on a timeline

Callers that start, and are cancelled, at stated times, while the feature service changes at
stated times. What happens first is settled first; of what happens at one time, the changes of
the service come first, then requests that come back, then callers that start, and at last those
that are cancelled, each in the order they are listed.
-/

namespace Licensing.Cache.Timeline

/-- A caller with its times, which count from the start of the timeline. -/
structure Visit where
  /-- The organization it asks about. -/
  org : String
  /-- Whether only an outcome that comes in after it started will do. -/
  force : Bool
  /-- When it starts. -/
  start : Nat
  /-- When it is cancelled. -/
  stop : Option Nat
deriving DecidableEq, Inhabited

/-- What happens on a timeline. -/
inductive Happening where
  /-- The service changes. -/
  | change (c : SourceChange)
  /-- The request of a caller comes back. -/
  | reply (visit : Nat)
  /-- A caller starts. -/
  | start (visit : Nat)
  /-- A caller is cancelled. -/
  | stop (visit : Nat)

/-- The order of what happens at one time. -/
def Happening.rank : Happening → Nat
  | .change _ => 0
  | .reply _ => 1
  | .start _ => 2
  | .stop _ => 3

/-- Whether this is the request of a caller that comes back. -/
def Happening.isReplyTo (visit : Nat) : Happening → Bool
  | .reply i => i = visit
  | _ => false

/-- How a caller ended: with an answer at some time, or cancelled. -/
inductive Ending where
  /-- It got an answer. -/
  | answered (l : Lookup) (at_ : Nat)
  /-- It was cancelled. -/
  | cancelled
deriving DecidableEq, Inhabited

/-- A visit as far as it has come. -/
structure Progress where
  /-- The visit. -/
  visit : Visit
  /-- The number of its caller, once it has started. -/
  caller : Option Nat
  /-- The request of its caller has been sent. -/
  sent : Bool
  /-- How it ended. -/
  ending : Option Ending
deriving Inhabited

/-- The state of a timeline. -/
structure State where
  /-- The cache. -/
  machine : Machine
  /-- The feature service. -/
  source : FeatureSource
  /-- The visits. -/
  visits : List Progress
  /-- What is still to happen, with its time. -/
  agenda : List (Nat × Happening)
  /-- The organizations that requests were sent about, the last first. -/
  fetched : List String
deriving Inhabited

namespace State

/-- The time. -/
def now (s : State) : Nat :=
  s.machine.now

/-- Something is to happen after a while. -/
def plan (s : State) (delay : Nat) (h : Happening) : State :=
  { s with agenda := s.agenda ++ [(s.now + delay, h)] }

/-- Notes what became of a visit: its request, which will come back, or its ending. -/
def notice (s : State) (i : Nat) (p : Progress) : State :=
  match p.caller with
  | none => s
  | some caller =>
    if s.machine.isFetching caller && !p.sent then
      { s with
        visits := s.visits.set i { p with sent := true }
        fetched := p.visit.org :: s.fetched }.plan s.source.delay (.reply i)
    else match s.machine.phase? caller, p.ending with
      | some (.finished answer), none =>
        let ending := match answer with
          | some l => .answered l s.now
          | none => .cancelled
        { s with visits := s.visits.set i { p with ending := some ending } }
      | _, _ => s

/-- Every caller goes on as far as it can, and what became of it is noted. -/
def settle (s : State) : State :=
  (List.range s.visits.length).foldl (fun s i ↦
    match s.visits[i]? with
    | some p =>
      let s := match p.caller with
        | some caller => { s with machine := s.machine.settle caller }
        | none => s
      s.notice i p
    | none => s) s

/-- Every caller goes on until all of them wait or are done. A caller that ends lets at most one
other go on, so a round for every visit is enough. -/
def settleAll (s : State) : State :=
  (List.range (s.visits.length + 1)).foldl (fun s _ ↦ s.settle) s

/-- Something happens to the caller of a visit. -/
def move (s : State) (i : Nat) (m : Move) : State :=
  match (s.visits[i]?).bind Progress.caller with
  | some caller => match s.machine.step (.move caller m) with
    | some machine => { s with machine := machine }
    | none => s
  | none => s

/-- Something happens. -/
def apply (s : State) : Happening → State
  | .change c => { s with source := s.source.apply c }
  | .reply i => match s.visits[i]? with
    | some p => s.move i (.store (s.source.answer p.visit.org))
    | none => s
  | .start i => match s.visits[i]? with
    | some p =>
      if p.ending.isSome then s
      else
        let (caller, machine) := s.machine.enter p.visit.org p.visit.force
        { s with machine := machine, visits := s.visits.set i { p with caller := some caller } }
    | none => s
  | .stop i => match s.visits[i]? with
    | some p =>
      if p.caller.isNone && p.ending.isNone
      then { s with visits := s.visits.set i { p with ending := some .cancelled } }
      else
        let s := s.move i .cancel
        { s with agenda := s.agenda.filter fun h ↦ !h.2.isReplyTo i }
    | none => s

/-- Whether one thing is to happen before another that was planned earlier. -/
def before (a b : Nat × Happening) : Bool :=
  a.1 < b.1 || (a.1 = b.1 && a.2.rank < b.2.rank)

/-- What is to happen first, and the rest. -/
def first? : List (Nat × Happening) → Option ((Nat × Happening) × List (Nat × Happening))
  | [] => none
  | h :: rest => match first? rest with
    | some (g, others) => if before g h then some (g, h :: others) else some (h, rest)
    | none => some (h, [])

/-- Everything on the agenda happens. Each visit sends at most one request, so as many steps as
things are planned and visits are there are enough. -/
def play : Nat → State → State
  | 0, s => s
  | steps + 1, s => match first? s.agenda with
    | none => s
    | some ((time, h), rest) =>
      let s := { s with machine := { s.machine with now := max s.now time }, agenda := rest }
      play steps (s.apply h).settleAll

end State

/-- The outcome of a timeline. -/
structure Result where
  /-- The cache. -/
  machine : Machine
  /-- The feature service. -/
  source : FeatureSource
  /-- How the callers ended, in the order of the visits. -/
  endings : List Ending
  /-- The organizations that requests were sent about. -/
  fetched : List String

/-- Callers and changes on a timeline that starts now. The times of the endings count from its
start. -/
def run (m : Machine) (source : FeatureSource) (visits : List Visit)
    (changes : List (Nat × SourceChange)) : Result :=
  let begin := m.now
  let starts := visits.zipIdx.map fun v ↦ (begin + v.1.start, Happening.start v.2)
  let stops := visits.zipIdx.filterMap fun v ↦ v.1.stop.map fun t ↦ (begin + t, Happening.stop v.2)
  let agenda := changes.map (fun c ↦ (begin + c.1, Happening.change c.2)) ++ starts ++ stops
  let progress := visits.map fun v ↦ (⟨v, none, false, none⟩ : Progress)
  let s := State.play (agenda.length + visits.length) ⟨m, source, progress, agenda, []⟩
  let ending (p : Progress) : Ending := match p.ending with
    | some (.answered l time) => .answered l (time - begin)
    | _ => .cancelled
  ⟨s.machine, s.source, s.visits.map ending, s.fetched.reverse⟩

end Licensing.Cache.Timeline
