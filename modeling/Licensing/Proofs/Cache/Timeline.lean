import Licensing.Cache.Timeline
import Licensing.Proofs.Cache.Alone

/-!
# A timeline is a run

Callers on a timeline start, move and are cancelled in the order that the timeline says. Whatever
it says, all that happens to the cache are events, one after another (`reaches_run`), so what
holds in every run holds on every timeline.
-/

namespace Licensing.Cache

open Machine (GoesOn)

variable {m m' m'' : Machine} {e : Event}

/-- Some events bring one state to another. -/
def Machine.Reaches (m m' : Machine) : Prop :=
  ∃ es, m.run es = some m'

namespace Machine

/-- A machine reaches itself, without events. -/
theorem Reaches.refl (m : Machine) : Reaches m m :=
  ⟨[], rfl⟩

/-- What is reached in two parts is reached in one. -/
theorem Reaches.trans (h : Reaches m m') (h' : Reaches m' m'') : Reaches m m'' := by
  obtain ⟨es, hrun⟩ := h
  obtain ⟨es', hrun'⟩ := h'
  exact ⟨es ++ es', by rw [run_append, hrun]; exact hrun'⟩

/-- One event is enough to reach what it makes. -/
theorem reaches_of_step (h : m.step e = some m') : Reaches m m' :=
  ⟨[e], by rw [run_cons, h]; rfl⟩

/-- What is gone on to is reached by the events of going on. -/
theorem GoesOn.reaches (h : GoesOn m m') : Reaches m m' := by
  obtain ⟨es, -, hrun⟩ := h
  exact ⟨es, hrun⟩

/-- A caller that comes and goes on as far as it can is reached by its events. -/
theorem reaches_enter (m : Machine) (org : String) (force : Bool) :
    Reaches m (m.enter org force).2 :=
  (reaches_of_step (e := .call org force) rfl).trans (goesOn_settle _ _).reaches

/-- Time passes up to a time, if that has not come yet. -/
theorem reaches_until (m : Machine) (time : Nat) :
    Reaches m { m with now := max m.now time } := by
  refine reaches_of_step (e := .tick (time - m.now)) ?_
  have hmax : m.now + (time - m.now) = max m.now time := by omega
  rw [step, hmax]

end Machine

namespace Timeline.State

variable {s : State}

/-- To take a note does not change the machine. -/
theorem machine_notice (s : State) (i : Nat) (p : Progress) :
    (s.notice i p).machine = s.machine := by
  rw [notice]
  split
  · rfl
  · split
    · rfl
    · split <;> rfl

/-- Steps that each bring the cache on do so all together. -/
theorem reaches_foldl {α : Type} {f : State → α → State}
    (hf : ∀ s a, Machine.Reaches s.machine (f s a).machine) (as : List α) (s : State) :
    Machine.Reaches s.machine (as.foldl f s).machine := by
  induction as generalizing s with
  | nil => exact .refl _
  | cons a as ih => exact (hf s a).trans (ih (f s a))

/-- To settle what can go on is reached by the events of the callers that do. -/
theorem reaches_settle (s : State) : Machine.Reaches s.machine s.settle.machine := by
  refine reaches_foldl (fun s i ↦ ?_) _ s
  split
  · rw [machine_notice]
    split
    · exact (Machine.goesOn_settle _ _).reaches
    · exact .refl _
  · exact .refl _

/-- So it is when this is done until nothing goes on. -/
theorem reaches_settleAll (s : State) : Machine.Reaches s.machine s.settleAll.machine :=
  reaches_foldl (fun s _ ↦ s.reaches_settle) _ s

/-- A move of a caller is an event. -/
theorem reaches_move (s : State) (i : Nat) (mv : Move) :
    Machine.Reaches s.machine (s.move i mv).machine := by
  rw [move]
  split
  · split
    · exact Machine.reaches_of_step ‹_›
    · exact .refl _
  · exact .refl _

/-- Whatever happens is reached by events. -/
theorem reaches_apply (s : State) (h : Happening) :
    Machine.Reaches s.machine (s.apply h).machine := by
  cases h with
  | change c => exact .refl _
  | reply i =>
    rw [apply]
    split
    · exact s.reaches_move i _
    · exact .refl _
  | start i =>
    rw [apply]
    split
    · split
      · exact .refl _
      · exact Machine.reaches_enter _ _ _
    · exact .refl _
  | stop i =>
    rw [apply]
    split
    · split
      · exact .refl _
      · exact s.reaches_move i _
    · exact .refl _

/-- **Whatever is played is reached by events**, however many steps it takes. -/
theorem reaches_play (steps : Nat) (s : State) :
    Machine.Reaches s.machine (play steps s).machine := by
  induction steps generalizing s with
  | zero => exact .refl _
  | succ steps ih =>
    rw [play]
    split
    · exact .refl _
    · rename_i time h rest _
      have htime := s.machine.reaches_until time
      have happly := reaches_apply
        { s with machine := { s.machine with now := max s.now time }, agenda := rest } h
      exact htime.trans ((happly.trans (reaches_settleAll _)).trans (ih _))

end Timeline.State

/-- **A timeline is a run.** So what is proved of every run is true of whatever is played. -/
theorem Timeline.reaches_run (m : Machine) (source : FeatureSource) (visits : List Timeline.Visit)
    (changes : List (Nat × SourceChange)) :
    Machine.Reaches m (Timeline.run m source visits changes).machine := by
  rw [run]
  exact State.reaches_play _ ⟨m, source, _, _, []⟩

end Licensing.Cache
