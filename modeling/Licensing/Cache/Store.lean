import Licensing.Features
import Licensing.OrderedMap
import Licensing.Remote

/-!
# What the cache remembers

For each organization the cache remembers the outcome of the last request to the feature
service: the snapshot with status 200, or after a failure the snapshot without features and the
status of an error. An outcome is fresh for a stated time. Every outcome gets the next
*generation*, a number that orders the outcomes by the time they came in; it wraps around at
64 bits. When there is no room for another organization, outcomes that are no longer fresh go
first, and then those of the lowest generations.
-/

namespace Licensing.Cache

/-- How long outcomes are fresh and how many organizations there is room for. -/
structure Config where
  /-- How long an outcome is fresh, in milliseconds. -/
  ttl : Nat
  /-- How many organizations there is room for; for one there always is. -/
  maxEntries : Nat
deriving DecidableEq, Inhabited

/-- Half an hour, and ten thousand organizations. -/
def Config.standard : Config :=
  ⟨1800000, 10000⟩

/-- How many organizations there is room for. -/
def Config.room (c : Config) : Nat :=
  max c.maxEntries 1

/-- The outcome of a request to the feature service. -/
abbrev Outcome := Except RemoteError Snapshot

/-- The snapshot that an outcome leaves. -/
def Outcome.snapshot : Outcome → Snapshot
  | .ok s => s
  | .error _ => .empty

/-- The first status that is an error. -/
def firstErrorStatus : Nat := 400

/-- The status that an outcome leaves. A failure without the status of an error is told as
an unavailable service. -/
def Outcome.status : Outcome → Nat
  | .ok _ => 200
  | .error e => (e.observedStatus.filter (firstErrorStatus ≤ ·)).getD 503

/-- What the cache answers. -/
structure Lookup where
  /-- The features of the organization. -/
  snapshot : Snapshot
  /-- The status they came with. -/
  status : Nat
  /-- The answer was remembered. -/
  hit : Bool
deriving DecidableEq, Inhabited

/-- The features are not known, for the request failed. -/
def Lookup.degraded (l : Lookup) : Bool :=
  firstErrorStatus ≤ l.status

/-- An outcome that is remembered. -/
structure Entry where
  /-- The snapshot that it left. -/
  snapshot : Snapshot
  /-- The status that it left. -/
  status : Nat
  /-- Its generation. -/
  generation : Nat
  /-- When it came in. -/
  since : Nat
deriving DecidableEq, Inhabited

/-- Less than the stated time has passed since an outcome came in. -/
def Entry.isFresh (e : Entry) (ttl now : Nat) : Bool :=
  now - e.since < ttl

/-- The outcomes that are remembered, by organization. -/
structure Store where
  /-- The outcomes. -/
  entries : OrderedMap Entry
  /-- The last generation. -/
  generation : Nat
deriving Inhabited

namespace Store

/-- The store without outcomes. -/
def empty : Store :=
  ⟨∅, 0⟩

/-- The fresh outcome for an organization, if its generation exceeds `newerThan`. -/
def lookup? (s : Store) (ttl now : Nat) (org : String) (newerThan : Option Nat) : Option Lookup :=
  match s.entries.get? org with
  | none => none
  | some e =>
    if e.isFresh ttl now && newerThan.all (· < e.generation)
    then some ⟨e.snapshot, e.status, true⟩ else none

/-! ### Making room -/

/-- The organization with the lowest generation. -/
def oldest? (entries : OrderedMap Entry) : Option String :=
  let step (best : Option (String × Entry)) (e : String × Entry) :=
    match best with
    | none => some e
    | some b => if e.2.generation < b.2.generation then some e else best
  (entries.entries.foldl step none).map (·.1)

/-- Drops the lowest generations until fewer than `room` entries are left, at most
`excess` of them. -/
def evict (room : Nat) : Nat → OrderedMap Entry → OrderedMap Entry
  | 0, entries => entries
  | excess + 1, entries =>
    if entries.size < room then entries
    else match oldest? entries with
      | some org => evict room excess (entries.erase org)
      | none => entries

/-- The entries with room for an organization. -/
def makeRoom (c : Config) (now : Nat) (org : String) (entries : OrderedMap Entry) :
    OrderedMap Entry :=
  if entries.contains org || entries.size < c.room then entries
  else
    let fresh := entries.filter fun _ e ↦ e.isFresh c.ttl now
    evict c.room fresh.size fresh

/-- How many generations there are. -/
def generations : Nat := 0x10000000000000000

/-- Remembers an outcome, with the answer to the caller that made the request. -/
def record (s : Store) (c : Config) (now : Nat) (org : String) (o : Outcome) : Store × Lookup :=
  let generation := (s.generation + 1) % generations
  let entry : Entry := ⟨o.snapshot, o.status, generation, now⟩
  (⟨(makeRoom c now org s.entries).insert org entry, generation⟩, ⟨o.snapshot, o.status, false⟩)

end Store

end Licensing.Cache
