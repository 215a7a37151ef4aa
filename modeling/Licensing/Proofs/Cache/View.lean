import Licensing.Cache.Restriction
import Licensing.Proofs.Cache.SingleFlight
import Licensing.Proofs.Cache.Store

/-!
# The cache as one organization sees it

Callers about one organization see of the cache what is remembered for it, its flight and lock, and
each other. `Machine.solo` leaves only this, in a form that does not tell what has been going on
otherwise: callers are numbered without the others, the lock of the flight has the number 0, and
of generations only that is left which callers compare. The lemmas say what is left of a machine of
which a part has been changed.
-/

namespace Licensing.Cache

/-! ### Lists without some of their elements -/

section Lists

variable {α β : Type} {l : List α} {p : α → Bool} {x : α} {n k : Nat}

/-- The place of an element among those that are kept. -/
theorem getElem?_filter_countP (hx : l[n]? = some x) (hp : p x = true) :
    (l.filter p)[(l.take n).countP p]? = some x := by
  induction l generalizing n with
  | nil => simp at hx
  | cons a l ih =>
    cases n with
    | zero =>
      obtain rfl := Option.some.inj hx
      simp [hp]
    | succ n =>
      have hrest := ih (n := n) (by simpa using hx)
      by_cases ha : p a = true <;> simp [ha, hrest]

/-- A change to an element that is kept is a change at its place. -/
theorem map_filter_modify {f : α → α} {f' : β → β} {g : α → β} (hx : l[n]? = some x)
    (hp : p x = true) (hf : p (f x) = true) (hg : g (f x) = f' (g x)) :
    ((l.modify n f).filter p).map g = ((l.filter p).map g).modify ((l.take n).countP p) f' := by
  induction l generalizing n with
  | nil => simp at hx
  | cons a l ih =>
    cases n with
    | zero =>
      obtain rfl := Option.some.inj hx
      simp [hp, hf, hg]
    | succ n =>
      have hrest := ih (n := n) (by simpa using hx)
      by_cases ha : p a = true <;> simp [ha, hrest]

/-- A change to an element that is not kept is none. -/
theorem filter_modify_of_not {f : α → α} (hx : l[n]? = some x) (hp : p x = false)
    (hf : p (f x) = false) : (l.modify n f).filter p = l.filter p := by
  induction l generalizing n with
  | nil => simp at hx
  | cons a l ih =>
    cases n with
    | zero =>
      obtain rfl := Option.some.inj hx
      simp [hp, hf]
    | succ n =>
      have hrest := ih (n := n) (by simpa using hx)
      by_cases ha : p a = true <;> simp [ha, hrest]

/-- Elements that are kept keep their order. -/
theorem countP_take_lt (hx : l[n]? = some x) (hp : p x = true) (h : n < k) :
    (l.take n).countP p < (l.take k).countP p := by
  have hsucc : (l.take (n + 1)).countP p = (l.take n).countP p + 1 := by
    rw [List.take_add_one, hx, List.countP_append]
    simp [hp]
  have hle : (l.take (n + 1)).countP p ≤ (l.take k).countP p :=
    (List.take_sublist_take_left (l := l) (Nat.succ_le_of_lt h)).countP_le
  omega

end Lists

/-! ### Phases and locks -/

namespace Phase

/-- The generation at which a caller found no answer. -/
def seen? : Phase → Option Nat
  | .checked seen | .ticketed seen _ | .queued seen _ | .holding seen _ => some seen
  | _ => none

/-- A phase with another number for the generation, and without the number of the lock. -/
def blur (f : Nat → Nat) : Phase → Phase
  | .entering => .entering
  | .checked seen => .checked (f seen)
  | .ticketed seen _ => .ticketed (f seen) 0
  | .queued seen _ => .queued (f seen) 0
  | .holding seen _ => .holding (f seen) 0
  | .cleared _ => .cleared 0
  | .fetching _ => .fetching 0
  | .releasing _ answer => .releasing 0 answer
  | .departing _ answer => .departing 0 answer
  | .finished answer => .finished answer

/-- Only the generation that a caller saw matters for the blurred phase. -/
theorem blur_congr {p : Phase} {f g : Nat → Nat}
    (h : ∀ seen, p.seen? = some seen → f seen = g seen) : p.blur f = p.blur g := by
  cases p <;> simp_all [blur, seen?]

/-- To blur twice is to blur once by both. -/
theorem blur_blur (p : Phase) (f g : Nat → Nat) : (p.blur f).blur g = p.blur (g ∘ f) := by
  cases p <;> rfl

end Phase

/-- A lock with other numbers for the callers. -/
def Lock.rename (f : Nat → Nat) (l : Lock) : Lock :=
  ⟨l.holder.map f, l.queue.map f⟩

/-- Only the numbers in a lock matter when callers are numbered anew. -/
theorem Lock.rename_congr {f g : Nat → Nat} {lock : Lock}
    (h : ∀ k, lock.holder = some k ∨ k ∈ lock.queue → f k = g k) :
    lock.rename f = lock.rename g := by
  obtain ⟨holder, queue⟩ := lock
  have hqueue : queue.map f = queue.map g := List.map_congr_left fun k hk ↦ h k (.inr hk)
  cases holder with
  | none => rw [rename, rename, hqueue]; rfl
  | some k => rw [rename, rename, hqueue, Option.map_some, Option.map_some, h k (.inl rfl)]

/-- What has come in is later than what a caller has seen. -/
def Caller.renew (c : Caller) : Caller :=
  if c.force then { c with phase := c.phase.blur fun _ ↦ 0 } else c

/-- An entry without its generation. -/
def Entry.undated (e : Entry) : Entry :=
  { e with generation := 1 }

namespace Machine

variable {m m' : Machine} {org : String} {n k l : Nat} {c : Caller} {e : Event}

/-! ### The view -/

/-- What is left of a generation: 0 if what is remembered came in later, and 1 otherwise. Callers
that take what is remembered do not compare generations. -/
def mark (m : Machine) (org : String) (force : Bool) (seen : Nat) : Nat :=
  if force && (m.store.entries.get? org).any (seen < ·.generation) then 0 else 1

/-- What is left of a caller. -/
def soloCaller (m : Machine) (org : String) (c : Caller) : Caller :=
  { c with phase := c.phase.blur (m.mark org c.force) }

/-- The lock of the flight of an organization. -/
def soloLock? (m : Machine) (org : String) : Option Lock :=
  (m.flightLock? org).bind fun l ↦ m.locks[l]?

/-- What is under one key, changed by a function. -/
def share {β : Type} (entries : OrderedMap β) (org : String) (f : β → β) : OrderedMap β :=
  (entries.filter fun about _ ↦ about = org).map fun _ ↦ f

/-- The cache as the callers about one organization see it. -/
def solo (m : Machine) (org : String) : Machine where
  config := m.config
  now := m.now
  store := ⟨share m.store.entries org Entry.undated, 1⟩
  flights := share m.flights org fun f ↦ { f with lock := 0 }
  locks := (m.soloLock? org).toList.map (Lock.rename (m.place org))
  callers := (m.callers.filter fun c ↦ c.org = org).map (m.soloCaller org)

/-- The place of a caller is how often its organization was asked about before it came. -/
theorem place_eq (m : Machine) (org : String) (n : Nat) :
    m.place org n = ((m.callers.map Caller.org).take n).count org := by
  rw [place, ← List.map_take, List.count, List.countP_map]
  congr 1

/-- Only the organizations of callers count for their places. -/
theorem place_congr (h : m'.callers.map Caller.org = m.callers.map Caller.org) :
    m'.place org = m.place org := by
  funext n
  rw [place_eq, place_eq, h]

/-- A phase does not change whom the callers ask about. -/
theorem map_org_setPhase (p : Phase) :
    (m.setPhase n p).callers.map Caller.org = m.callers.map Caller.org := by
  refine List.ext_getElem? fun i ↦ ?_
  simp only [setPhase, List.getElem?_map, List.getElem?_modify]
  cases m.callers[i]? with
  | none => rfl
  | some c => simp only [Option.map_eq_map, Option.map_some]; split <;> rfl

/-- Nor does a lock that one of them is given. -/
theorem map_org_grant : (m.grant n).callers.map Caller.org = m.callers.map Caller.org := by
  refine List.ext_getElem? fun i ↦ ?_
  simp only [grant, List.getElem?_map, List.getElem?_modify]
  cases m.callers[i]? with
  | none => rfl
  | some c => simp only [Option.map_eq_map, Option.map_some]; split <;> [split <;> rfl; rfl]

/-- A caller about the organization is found at its place in the view. -/
theorem getElem?_solo (hc : m.callers[n]? = some c) (horg : c.org = org) :
    (m.solo org).callers[m.place org n]? = some (m.soloCaller org c) := by
  rw [solo, List.getElem?_map, place, getElem?_filter_countP hc (by simpa using horg)]
  rfl

section Share

variable {β : Type} {entries entries' : OrderedMap β} {f : β → β}

/-- Of a map the view has what is under the organization. -/
theorem get?_share (about : String) : (share entries org f).get? about =
    if about = org then (entries.get? about).map f else none := by
  rw [share, OrderedMap.get?_map, OrderedMap.get?_filter]
  split <;> cases entries.get? about <;> simp [*]

/-- So it is the same for two maps that agree there. -/
theorem share_congr (h : entries'.get? org = entries.get? org) :
    share entries' org f = share entries org f := by
  refine OrderedMap.ext_get? fun about ↦ ?_
  rw [get?_share, get?_share]
  split
  · rename_i heq
    rw [heq, h]
  · rfl

/-- What is put in for the organization is put into the view. -/
theorem share_insert (v : β) :
    share (entries.insert org v) org f = (share entries org f).insert org (f v) := by
  refine OrderedMap.ext_get? fun about ↦ ?_
  rw [get?_share, OrderedMap.get?_insert, OrderedMap.get?_insert, get?_share]
  by_cases h : org = about
  · simp [h]
  · have h' : about ≠ org := fun heq ↦ h heq.symm
    simp [h, h']

/-- What is taken out for it is taken out of the view. -/
theorem share_erase : share (entries.erase org) org f = (share entries org f).erase org := by
  refine OrderedMap.ext_get? fun about ↦ ?_
  rw [get?_share, OrderedMap.get?_erase, OrderedMap.get?_erase, get?_share]
  by_cases h : about = org
  · simp [h]
  · simp [h]

end Share

/-! ### What the view shows -/

/-- What is remembered is found in the view as well. -/
theorem lookup?_solo : (m.solo org).lookup? org none = m.lookup? org none := by
  rw [lookup?, lookup?, Store.lookup?, Store.lookup?, solo, get?_share, if_pos rfl]
  cases m.store.entries.get? org <;> rfl

/-- So it is for a caller that compares with the generation it saw. -/
theorem lookup?_solo_mark (seen : Nat) :
    (m.solo org).lookup? org (some (m.mark org true seen)) = m.lookup? org (some seen) := by
  rw [lookup?, lookup?, Store.lookup?, Store.lookup?, solo, get?_share, if_pos rfl, mark]
  cases m.store.entries.get? org with
  | none => rfl
  | some e =>
    by_cases h : seen < e.generation <;> simp [h, Entry.isFresh, Entry.undated]

/-! ### Changes that callers about the organization make -/

/-- The phase of a caller about the organization changes at its place in the view. -/
theorem solo_setPhase (hc : m.callers[n]? = some c) (horg : c.org = org) (p : Phase) :
    (m.setPhase n p).solo org =
      (m.solo org).setPhase (m.place org n) (p.blur (m.mark org c.force)) := by
  have hplace : (m.setPhase n p).place org = m.place org := place_congr (map_org_setPhase p)
  have hlocks : (m.setPhase n p).soloLock? org = m.soloLock? org := rfl
  simp only [solo, hplace, hlocks]
  simp only [setPhase, Machine.mk.injEq, true_and]
  exact map_filter_modify hc (by simpa using horg) (by simpa using horg) rfl

/-- A caller comes to a phase, and the flights or locks change. -/
theorem solo_setPhase_of (flights : OrderedMap Flight) (locks : List Lock)
    (hc : m.callers[n]? = some c) (horg : c.org = org) (p : Phase) :
    (({ m with flights := flights, locks := locks } : Machine).setPhase n p).solo org =
      (({ m with flights := flights, locks := locks } : Machine).solo org).setPhase
        (m.place org n) (p.blur (m.mark org c.force)) :=
  solo_setPhase (m := { m with flights := flights, locks := locks }) hc horg p

/-- A caller that is given the lock. -/
theorem solo_grant (hc : m.callers[n]? = some c) (horg : c.org = org) :
    (m.grant n).solo org = (m.solo org).grant (m.place org n) := by
  have hplace : (m.grant n).place org = m.place org := place_congr map_org_grant
  have hlocks : (m.grant n).soloLock? org = m.soloLock? org := rfl
  simp only [solo, hplace, hlocks]
  simp only [grant, Machine.mk.injEq, true_and]
  refine map_filter_modify hc (by simpa using horg) ?_ ?_
  · cases c with | mk about force p => cases p <;> simpa using horg
  · cases c with | mk about force p => cases p <;> rfl

/-- The flight goes on with another number of tickets. -/
theorem solo_insertFlight (tickets : Nat) (hl : m.flightLock? org = some l) :
    ({ m with flights := m.flights.insert org ⟨l, tickets⟩ } : Machine).solo org =
      { m.solo org with flights := (m.solo org).flights.insert org ⟨0, tickets⟩ } := by
  have hlock : ({ m with flights := m.flights.insert org ⟨l, tickets⟩ } : Machine).soloLock? org =
      m.soloLock? org := by
    rw [soloLock?, soloLock?, hl, flightLock?, OrderedMap.get?_insert_self]
    rfl
  simp only [solo, hlock, share_insert]
  rfl

/-- A caller that opens the flight. -/
theorem solo_launch (hf : m.flights.get? org = none) :
    ({ m with
      flights := m.flights.insert org ⟨m.locks.length, 1⟩
      locks := m.locks ++ [Lock.mk none []] } : Machine).solo org =
    { m.solo org with
      flights := (m.solo org).flights.insert org ⟨(m.solo org).locks.length, 1⟩
      locks := (m.solo org).locks ++ [Lock.mk none []] } := by
  have hbefore : m.soloLock? org = none := by rw [soloLock?, flightLock?, hf]; rfl
  have hafter : ({ m with
      flights := m.flights.insert org ⟨m.locks.length, 1⟩
      locks := m.locks ++ [Lock.mk none []] } : Machine).soloLock? org = some ⟨none, []⟩ := by
    rw [soloLock?, flightLock?, OrderedMap.get?_insert_self]
    exact List.getElem?_concat_length
  simp only [solo, hbefore, hafter, share_insert]
  rfl

/-- If the organization has a flight, its lock is the one in the view. -/
theorem locks_solo {lock : Lock} (hl : m.flightLock? org = some l)
    (hlock : m.locks[l]? = some lock) : (m.solo org).locks = [lock.rename (m.place org)] := by
  rw [solo, soloLock?, hl, Option.bind_some, hlock]
  rfl

/-- A change of the lock. -/
theorem solo_locks {locks : List Lock} {lock : Lock} (hl : m.flightLock? org = some l)
    (hlock : locks[l]? = some lock) : ({ m with locks := locks } : Machine).solo org =
      { m.solo org with locks := [lock.rename (m.place org)] } := by
  have hsolo : ({ m with locks := locks } : Machine).soloLock? org = some lock := by
    rw [soloLock?]
    show (m.flightLock? org).bind (fun l ↦ locks[l]?) = some lock
    rw [hl, Option.bind_some, hlock]
  simp only [solo, hsolo]
  rfl

end Machine

end Licensing.Cache
