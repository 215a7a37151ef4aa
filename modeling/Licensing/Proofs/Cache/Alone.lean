import Licensing.Proofs.Cache.Run

/-!
# A caller on its own

`Machine.ask` brings a caller from its start to its answer when there are no others. All it does
is let events happen one after another: the caller starts, and then only moves and time follow
(`goesOn_ask`). So what holds in every run holds of it too.
-/

namespace Licensing.Cache.Machine

variable {m m' m'' : Machine} {e : Event} {n : Nat}

/-- One state comes after another without another caller starting. -/
def GoesOn (m m' : Machine) : Prop :=
  ∃ es, (∀ e ∈ es, ∀ org force, e ≠ Event.call org force) ∧ m.run es = some m'

theorem GoesOn.refl (m : Machine) : GoesOn m m :=
  ⟨[], by simp, rfl⟩

theorem GoesOn.cons (hs : m.step e = some m') (he : ∀ org force, e ≠ .call org force)
    (h : GoesOn m' m'') : GoesOn m m'' := by
  obtain ⟨es, hes, hrun⟩ := h
  refine ⟨e :: es, fun a ha ↦ ?_, by rw [run_cons, hs]; exact hrun⟩
  rcases List.mem_cons.1 ha with rfl | ha
  · exact he
  · exact hes a ha

theorem goesOn_proceed (n steps : Nat) (m : Machine) : GoesOn m (proceed n steps m) := by
  induction steps generalizing m with
  | zero => exact .refl m
  | succ steps ih =>
    rw [proceed]
    split
    · exact .refl m
    · split
      · exact .cons ‹_› (by simp) (ih _)
      · exact .refl m

theorem goesOn_settle (n : Nat) (m : Machine) : GoesOn m (m.settle n) :=
  goesOn_proceed n manySteps m

theorem goesOn_poke (n : Nat) (mv : Move) (m : Machine) : GoesOn m (m.poke n mv) := by
  rw [poke]
  split
  · exact .cons ‹_› (by simp) (goesOn_settle n _)
  · exact .refl m

theorem GoesOn.trans (h : GoesOn m m') (h' : GoesOn m' m'') : GoesOn m m'' := by
  obtain ⟨es, hes, hrun⟩ := h
  obtain ⟨es', hes', hrun'⟩ := h'
  refine ⟨es ++ es', fun a ha ↦ ?_, by rw [run_append, hrun]; exact hrun'⟩
  rcases List.mem_append.1 ha with ha | ha
  · exact hes a ha
  · exact hes' a ha

/-- A request that is out comes back after some time. -/
theorem goesOn_reply (n delay : Nat) (o : Outcome) (m : Machine) :
    GoesOn m (if m.isFetching n = true then
      ({ m with now := m.now + delay } : Machine).poke n (.store o) else m) := by
  split
  · exact .cons (e := .tick delay) rfl (by simp) (goesOn_poke _ _ _)
  · exact .refl m

/-- **Asking is a run**: a caller starts, and then goes on, by its own events and the one of its
request coming back. -/
theorem goesOn_ask (m : Machine) (org : String) (force : Bool) (delay : Nat) (o : Outcome) :
    ∃ m', m.step (.call org force) = some m' ∧ GoesOn m' (m.ask org force delay o).1 ∧
      (m.ask org force delay o).2.1 = (m.ask org force delay o).1.answer? m.callers.length :=
  ⟨_, rfl, (goesOn_settle m.callers.length _).trans (goesOn_reply _ delay o _), rfl⟩

end Licensing.Cache.Machine
