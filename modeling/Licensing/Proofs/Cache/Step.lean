import Licensing.Cache.Machine
import Licensing.Proofs.OrderedMap

/-!
# The steps of the machine, one by one

`Machine.step` says by computation what happens next. `Machine.Step` says the same as a relation
with one rule for each thing that can happen: a caller that looks finds an answer (`hit`) or not
(`miss`), one that asks for a lock gets it (`take`) or waits (`wait`), and so on. Both say the
same (`step_eq_some_iff`), so what every step keeps is proved by going through the rules.
-/

namespace Licensing.Cache.Machine

variable {m m' : Machine} {n k : Nat} {e : Event}

/-! ### What a phase change touches -/

/-- A phase is no matter of the locks. -/
@[simp] theorem setPhase_locks (p : Phase) : (m.setPhase n p).locks = m.locks := rfl

/-- It is a matter of no other caller, so there are as many as before. -/
@[simp] theorem setPhase_length (p : Phase) :
    (m.setPhase n p).callers.length = m.callers.length := by
  simp [setPhase]

/-- To tell a caller that it has the lock does not change the locks. -/
@[simp] theorem grant_locks : (m.grant n).locks = m.locks := rfl

/-- Neither does it change how many callers there are. -/
@[simp] theorem grant_length : (m.grant n).callers.length = m.callers.length := by
  simp [grant]

/-! ### The rules -/

/-- What can happen in a state. -/
inductive Step (m : Machine) : Event → Machine → Prop where
  /-- Another caller starts. -/
  | call (org : String) (force : Bool) :
    Step m (.call org force) { m with callers := m.callers ++ [Caller.mk org force .entering] }
  /-- Time passes. -/
  | tick (ms : Nat) : Step m (.tick ms) { m with now := m.now + ms }
  /-- A caller finds an answer. -/
  | hit {n : Nat} {c : Caller} {l : Lookup} (hc : m.callers[n]? = some c)
    (hp : c.phase = .entering) (hf : c.force = false) (hl : m.lookup? c.org none = some l) :
    Step m (.move n .check) (m.setPhase n (.finished (some l)))
  /-- A caller finds no answer, or does not look. -/
  | miss {n : Nat} {c : Caller} (hc : m.callers[n]? = some c) (hp : c.phase = .entering)
    (hl : c.force = true ∨ m.lookup? c.org none = none) :
    Step m (.move n .check) (m.setPhase n (.checked m.store.generation))
  /-- A caller takes a ticket for a flight. -/
  | join {n seen : Nat} {c : Caller} {f : Flight} (hc : m.callers[n]? = some c)
    (hp : c.phase = .checked seen) (hf : m.flights.get? c.org = some f) :
    Step m (.move n .join)
      ({ m with flights := m.flights.insert c.org { f with tickets := f.tickets + 1 } }.setPhase n
        (.ticketed seen f.lock))
  /-- A caller opens a flight and takes the first ticket. -/
  | launch {n seen : Nat} {c : Caller} (hc : m.callers[n]? = some c)
    (hp : c.phase = .checked seen) (hf : m.flights.get? c.org = none) :
    Step m (.move n .join)
      ({ m with
        flights := m.flights.insert c.org ⟨m.locks.length, 1⟩
        locks := m.locks ++ [Lock.mk none []] }.setPhase n (.ticketed seen m.locks.length))
  /-- A caller takes a free lock. -/
  | take {n seen lock : Nat} {c : Caller} {queue : List Nat} (hc : m.callers[n]? = some c)
    (hp : c.phase = .ticketed seen lock) (hl : m.locks[lock]? = some ⟨none, queue⟩) :
    Step m (.move n .acquire)
      ({ m with locks := m.locks.modify lock fun l ↦ { l with holder := some n } }.setPhase n
        (.holding seen lock))
  /-- A caller waits for a lock. -/
  | wait {n seen lock : Nat} {c : Caller} (hc : m.callers[n]? = some c)
    (hp : c.phase = .ticketed seen lock) (hl : ∀ queue, m.locks[lock]? ≠ some ⟨none, queue⟩) :
    Step m (.move n .acquire)
      ({ m with locks := m.locks.modify lock fun l ↦ { l with queue := l.queue ++ [n] } }.setPhase n
        (.queued seen lock))
  /-- A caller is cancelled before it waits for the lock. -/
  | resign {n seen lock : Nat} {c : Caller} (hc : m.callers[n]? = some c)
    (hp : c.phase = .ticketed seen lock) :
    Step m (.move n .cancel) (m.setPhase n (.departing lock none))
  /-- A caller is cancelled while it waits for the lock. -/
  | withdraw {n seen lock : Nat} {c : Caller} (hc : m.callers[n]? = some c)
    (hp : c.phase = .queued seen lock) :
    Step m (.move n .cancel) ((m.dequeue n lock).setPhase n (.departing lock none))
  /-- A caller with the lock finds the answer that another one brought. -/
  | share {n seen lock : Nat} {c : Caller} {l : Lookup} (hc : m.callers[n]? = some c)
    (hp : c.phase = .holding seen lock)
    (hl : m.lookup? c.org (if c.force then some seen else none) = some l) :
    Step m (.move n .recheck) (m.setPhase n (.releasing lock (some l)))
  /-- A caller with the lock finds no answer. -/
  | clear {n seen lock : Nat} {c : Caller} (hc : m.callers[n]? = some c)
    (hp : c.phase = .holding seen lock)
    (hl : m.lookup? c.org (if c.force then some seen else none) = none) :
    Step m (.move n .recheck) (m.setPhase n (.cleared lock))
  /-- A caller is cancelled when it has been given the lock. -/
  | abandon {n seen lock : Nat} {c : Caller} (hc : m.callers[n]? = some c)
    (hp : c.phase = .holding seen lock) :
    Step m (.move n .cancel) (m.setPhase n (.releasing lock none))
  /-- A caller sends its request. -/
  | send {n lock : Nat} {c : Caller} (hc : m.callers[n]? = some c)
    (hp : c.phase = .cleared lock) :
    Step m (.move n .fetch) (m.setPhase n (.fetching lock))
  /-- A request comes back. -/
  | record {n lock : Nat} {c : Caller} (hc : m.callers[n]? = some c)
    (hp : c.phase = .fetching lock) (o : Outcome) :
    Step m (.move n (.store o))
      ({ m with store := (m.store.record m.config m.now c.org o).1 }.setPhase n
        (.releasing lock (some (m.store.record m.config m.now c.org o).2)))
  /-- A caller is cancelled while its request is out. -/
  | lose {n lock : Nat} {c : Caller} (hc : m.callers[n]? = some c)
    (hp : c.phase = .fetching lock) :
    Step m (.move n .cancel) (m.setPhase n (.releasing lock none))
  /-- A lock goes to the first that waits for it. -/
  | pass {n k lock : Nat} {c : Caller} {answer : Option Lookup} {holder : Option Nat}
    {rest : List Nat} (hc : m.callers[n]? = some c) (hp : c.phase = .releasing lock answer)
    (hl : m.locks[lock]? = some ⟨holder, k :: rest⟩) :
    Step m (.move n .unlock)
      (({ m with locks := m.locks.set lock ⟨some k, rest⟩ }.grant k).setPhase n
        (.departing lock answer))
  /-- A lock for which nobody waits becomes free. -/
  | free {n lock : Nat} {c : Caller} {answer : Option Lookup} (hc : m.callers[n]? = some c)
    (hp : c.phase = .releasing lock answer)
    (hl : ∀ holder k rest, m.locks[lock]? ≠ some ⟨holder, k :: rest⟩) :
    Step m (.move n .unlock)
      ({ m with locks := m.locks.set lock ⟨none, []⟩ }.setPhase n (.departing lock answer))
  /-- A ticket is given back, and others are out. -/
  | leave {n lock : Nat} {c : Caller} {answer : Option Lookup} {f : Flight}
    (hc : m.callers[n]? = some c) (hp : c.phase = .departing lock answer)
    (hf : m.flights.get? c.org = some f) (ht : 1 < f.tickets) :
    Step m (.move n .leave)
      ({ m with flights := m.flights.insert c.org { f with tickets := f.tickets - 1 } }.setPhase n
        (.finished answer))
  /-- The last ticket is given back, which closes the flight. -/
  | close {n lock : Nat} {c : Caller} {answer : Option Lookup}
    (hc : m.callers[n]? = some c) (hp : c.phase = .departing lock answer)
    (hf : ∀ f, m.flights.get? c.org = some f → f.tickets ≤ 1) :
    Step m (.move n .leave)
      ({ m with flights := m.flights.erase c.org }.setPhase n (.finished answer))

/-! ### The rules and the computation -/

section Computation

variable {c : Caller} {seen lock : Nat} {answer : Option Lookup}

/-- A caller begins with a look into the cache. -/
theorem step_check (hc : m.callers[n]? = some c) (hp : c.phase = .entering) :
    Step m (.move n .check) (m.check n c) := by
  rw [check]
  split
  · rename_i l hl
    split at hl
    · exact absurd hl (by simp)
    · rename_i hf
      exact .hit hc hp (by simpa using hf) hl
  · rename_i hl
    refine .miss hc hp ?_
    split at hl
    · exact .inl ‹_›
    · exact .inr hl

/-- A caller that found nothing joins the flight of its organization. -/
theorem step_join (hc : m.callers[n]? = some c) (hp : c.phase = .checked seen) :
    Step m (.move n .join) (m.join n c seen) := by
  rw [join]
  split
  · exact .join hc hp ‹_›
  · exact .launch hc hp ‹_›

/-- In the flight it takes the lock, or queues for it. -/
theorem step_acquire (hc : m.callers[n]? = some c) (hp : c.phase = .ticketed seen lock) :
    Step m (.move n .acquire) (m.acquire n seen lock) := by
  rw [acquire]
  split
  · exact .take hc hp ‹_›
  · exact .wait hc hp ‹_›

/-- With the lock it looks into the cache once more, for what came in while it waited. -/
theorem step_recheck (hc : m.callers[n]? = some c) (hp : c.phase = .holding seen lock) :
    Step m (.move n .recheck) (m.recheck n c seen lock) := by
  rw [recheck]
  split
  · exact .share hc hp ‹_›
  · exact .clear hc hp ‹_›

/-- A caller that is done with its lock gives it back. -/
theorem step_unlock (hc : m.callers[n]? = some c) (hp : c.phase = .releasing lock answer) :
    Step m (.move n .unlock) ((m.unlock lock).setPhase n (.departing lock answer)) := by
  rw [unlock]
  split
  · exact .pass hc hp ‹_›
  · rename_i hl
    exact .free hc hp fun _ _ _ h ↦ by simp [hl] at h
  · -- A lock that was never made: setting it changes nothing.
    rename_i hl
    have hset : m.locks.set lock ⟨none, []⟩ = m.locks :=
      List.set_eq_of_length_le (List.getElem?_eq_none_iff.1 hl)
    have hfree := Step.free hc hp fun _ _ _ h ↦ by simp [hl] at h
    rwa [hset] at hfree

/-- A caller that has given it back leaves the flight, and has its answer. -/
theorem step_leave (hc : m.callers[n]? = some c) (hp : c.phase = .departing lock answer) :
    Step m (.move n .leave) ((m.leave c.org).setPhase n (.finished answer)) := by
  rw [leave]
  split
  · rename_i f hf
    split
    · rename_i ht
      refine .close hc hp fun g hg ↦ ?_
      rw [hf] at hg
      exact Option.some.inj hg ▸ ht
    · exact .leave hc hp hf (by omega)
  · -- There is no flight to close: erasing it changes nothing.
    rename_i hf
    have hclose := Step.close hc hp fun g hg ↦ by simp [hf] at hg
    rwa [OrderedMap.erase_eq_self _ hf] at hclose

/-- A caller makes a move in its phase only if this is one of the steps that there are. -/
theorem step_of_move {mv : Move} (hc : m.callers[n]? = some c)
    (h : m.move n c c.phase mv = some m') : Step m (.move n mv) m' := by
  unfold move at h
  split at h <;> simp only [Option.some.injEq, reduceCtorEq] at h <;> subst h
  · exact step_check hc ‹_›
  · exact step_join hc ‹_›
  · exact step_acquire hc ‹_›
  · exact .resign hc ‹_›
  · exact .withdraw hc ‹_›
  · exact step_recheck hc ‹_›
  · exact .abandon hc ‹_›
  · exact .send hc ‹_›
  · exact .record hc ‹_› _
  · exact .lose hc ‹_›
  · exact step_unlock hc ‹_›
  · exact step_leave hc ‹_›

end Computation

/-- What the computation finds is what can happen. -/
theorem step_of_step (h : m.step e = some m') : Step m e m' := by
  cases e with
  | call org force =>
    obtain rfl := Option.some.inj h
    exact .call org force
  | tick ms =>
    obtain rfl := Option.some.inj h
    exact .tick ms
  | move n mv =>
    rw [step] at h
    split at h
    · exact step_of_move ‹_› h
    · exact absurd h (by simp)

/-- What can happen is what the computation finds. -/
theorem step_of_rule (h : Step m e m') : m.step e = some m' := by
  cases h with
  | call | tick => rfl
  | hit hc hp hf hl => simp [step, hc, hp, move, check, hf, hl]
  | miss hc hp hl => rcases hl with hl | hl <;> simp [step, hc, hp, move, check, hl]
  | join hc hp hf => simp [step, hc, hp, move, join, hf]
  | launch hc hp hf => simp [step, hc, hp, move, join, hf]
  | take hc hp hl => simp [step, hc, hp, move, acquire, hl]
  | wait hc hp => simp [step, hc, hp, move, acquire]
  | resign hc hp | withdraw hc hp | abandon hc hp | send hc hp | lose hc hp | record hc hp =>
    simp [step, hc, hp, move, Machine.record]
  | share hc hp hl | clear hc hp hl => simp [step, hc, hp, move, recheck, hl]
  | pass hc hp hl => simp [step, hc, hp, move, unlock, hl]
  | @free n lock c answer hc hp hl =>
    simp only [step, hc, hp, move, unlock]
    split
    · exact absurd ‹_› (hl _ _ _)
    · rfl
    · rw [List.set_eq_of_length_le (List.getElem?_eq_none_iff.1 ‹_›)]
  | leave hc hp hf ht => simp [step, hc, hp, move, Machine.leave, hf, Nat.not_le.2 ht]
  | @close n lock c answer hc hp hf =>
    simp only [step, hc, hp, move, Machine.leave]
    split
    · rw [if_pos (hf _ ‹_›)]
    · rw [OrderedMap.erase_eq_self _ ‹_›]

/-- **The steps of the machine are those that are listed.** -/
theorem step_eq_some_iff : m.step e = some m' ↔ Step m e m' :=
  ⟨step_of_step, step_of_rule⟩

end Licensing.Cache.Machine
