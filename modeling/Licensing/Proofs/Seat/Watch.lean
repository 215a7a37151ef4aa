import Licensing.Proofs.Seat.Allocation
import Licensing.Proofs.Seat.Passage
import Licensing.Proofs.Seat.Upkeep
import Licensing.Seat.Visit

/-!
# Watching one operation among many

What is known of an operation that goes on among others: how far it has come, that the accounts
system answered it, and that what it was told held whenever it asked further (`Recorded`). Its own
questions and those of others keep this up, so it is known of every operation after every run
(`watched_of_run`), as is everything that is kept up like this (`tracked_of_run`).
-/

namespace Licensing.Seat

open Dialogue (Reached)

variable {a a₀ a' : Accounts} {x : Exchange} {i : Identity} {operation : Operation}
  {vs : List Visit} {d : Dialogue Outcome}

/-! ### What is known of an operation -/

/-- What is known of the questions that an operation asked, when this is left of it. -/
structure Recorded (a₀ : Accounts) (i : Identity) (operation : Operation) (vs : List Visit)
    (d : Dialogue Outcome) (a : Accounts) : Prop where
  /-- The operation is what went on like this. -/
  reached : Reached (operation.dialogue i) (vs.map Visit.exchange) d
  /-- It was answered by the accounts system. -/
  reaction : ∀ v ∈ vs, Reaction v.before v.exchange v.after
  /-- The accounts system was kept. -/
  upkeep : ∀ v ∈ vs, Upkeep a₀ v.before
  /-- What it was told still held when it asked further. -/
  told : vs.Pairwise fun v w ↦ Told a₀ w.before v.exchange
  /-- It still holds. -/
  tells : ∀ v ∈ vs, Told a₀ a v.exchange
  /-- No fewer subscriptions were made since. -/
  made_le : ∀ v ∈ vs, v.after.made ≤ a.made

/-- When an operation starts, nothing is known of it but that it starts. -/
theorem recorded_nil (a₀ : Accounts) (i : Identity) (operation : Operation) (a : Accounts) :
    Recorded a₀ i operation [] (operation.dialogue i) a where
  reached := Dialogue.reached_nil _
  reaction := by simp
  upkeep := by simp
  told := .nil
  tells := by simp
  made_le := by simp

/-- Somebody else asks. -/
theorem Recorded.elsewhere (h : Recorded a₀ i operation vs d a) (hx : Reaction a x a') :
    Recorded a₀ i operation vs d a' :=
  { h with
    tells := fun v hv ↦ hx.told (h.tells v hv)
    made_le := fun v hv ↦ (h.made_le v hv).trans hx.made_le }

/-- The operation asks. -/
theorem Recorded.concat {c : SeatCall} {next : c.Answer → Dialogue Outcome} {r : c.Answer}
    (h : Recorded a₀ i operation vs d a) (hd : d.next? = some ⟨c, next⟩) (hu : Upkeep a₀ a)
    (hx : Reaction a ⟨c, r⟩ a') (ht : Told a₀ a' ⟨c, r⟩) :
    Recorded a₀ i operation (vs ++ [⟨a, ⟨c, r⟩, a'⟩]) (next r) a' where
  reached := by
    rw [List.map_append]
    exact h.reached.ask hd r
  reaction := List.forall_mem_append.2 ⟨h.reaction, List.forall_mem_singleton.2 hx⟩
  upkeep := List.forall_mem_append.2 ⟨h.upkeep, List.forall_mem_singleton.2 hu⟩
  told := by
    refine List.pairwise_append.2 ⟨h.told, List.pairwise_singleton _ _, fun v hv ↦ ?_⟩
    exact List.forall_mem_singleton.2 (h.tells v hv)
  tells := List.forall_mem_append.2
    ⟨fun v hv ↦ hx.told (h.tells v hv), List.forall_mem_singleton.2 ht⟩
  made_le := List.forall_mem_append.2
    ⟨fun v hv ↦ (h.made_le v hv).trans hx.made_le, List.forall_mem_singleton.2 (Nat.le_refl _)⟩

/-! ### What every question keeps up -/

/-- Something that can be known of an operation of a caller: by what was asked in it, what is left
of it, and how the accounts system is now. -/
abbrev Knowledge : Type :=
  Identity → Operation → List Visit → Dialogue Outcome → Accounts → Prop

/-- What is known of operations is true when they start, and kept up by every question, their own
and those of others, as long as the accounts system is as it should be. -/
structure KeptUp (Q : Accounts → Prop) (P : Knowledge) : Prop where
  /-- It is true when an operation starts. -/
  start : ∀ i operation a, P i operation [] (operation.dialogue i) a
  /-- The operation asks. -/
  ask : ∀ {i operation vs d c next a}, d.next? = some ⟨c, next⟩ → Q a →
    P i operation vs d a → ∀ user,
      P i operation (vs ++ [⟨a, ⟨c, (Office.answer a user c).1⟩, (Office.answer a user c).2⟩])
        (next (Office.answer a user c).1) (Office.answer a user c).2
  /-- Somebody else asks. -/
  elsewhere : ∀ {i operation vs d a}, Q a → P i operation vs d a → ∀ user c,
    P i operation vs d (Office.answer a user c).2
  /-- The accounts system stays as it should be. -/
  state : ∀ {a}, Q a → ∀ user c, Q (Office.answer a user c).2

/-! ### Runs -/

namespace Office

variable {o₀ o o' : Office} {es : List Event} {e : Event}

/-- The accounts system reacts to a question of an operation as it does to any other; a question to
the directory does not reach it. -/
theorem reaction_answer (hs : a.scripted = none) (user : Except RemoteError DirectoryUser)
    (c : SeatCall) : Reaction a ⟨c, (answer a user c).1⟩ (answer a user c).2 := by
  cases c with
  | user => exact .noted rfl a.log
  | _ => exact Seat.reaction_answer hs _

/-- What an operation is told holds when it is told. -/
theorem told_answer (hu : Upkeep a₀ a) (user : Except RemoteError DirectoryUser) (c : SeatCall) :
    Told a₀ (answer a user c).2 ⟨c, (answer a user c).1⟩ := by
  cases c with
  | user => exact trivial
  | _ => exact Seat.told_answer hu _

/-- Any answer of the directory can come with a question, also the one it has in memory. -/
theorem exists_answer_eq (a : Accounts) (c : SeatCall) : ∃ user, answer a user c = a.answer c := by
  cases c with
  | user username =>
    refine ⟨(a.answer (.user username)).1, Prod.ext rfl ?_⟩
    change a = (a.serve (.user username)).2
    rw [Accounts.serve]
    split <;> rfl
  | _ => exact ⟨.error (.timeout ""), rfl⟩

/-- An operation that is asked to go on has a next question. It goes on with the answer, and nothing
else happens. -/
theorem exists_of_step_ask {k : Nat} {user : Except RemoteError DirectoryUser}
    (h : o.step (.ask k user) = some o') :
    ∃ d c next, o.operations[k]? = some d ∧ d.next? = some ⟨c, next⟩ ∧
      o' = ⟨(answer o.accounts user c).2,
        o.operations.set k (next (answer o.accounts user c).1)⟩ := by
  rw [step] at h
  split at h
  · rename_i c next hnext
    obtain ⟨d, hk, hd⟩ := Option.bind_eq_some_iff.1 hnext
    exact ⟨d, c, next, hk, hd, (Option.some.inj h).symm⟩
  · cases h

/-- The last event of a run is the last visit of an operation, if it is one. -/
theorem visits_concat (h : o₀.run es = some o) (hs : o.step e = some o') (n : Nat) :
    o₀.visits n (es ++ [e]) = o₀.visits n es ++ (o.visit? n e).toList := by
  induction es generalizing o₀ with
  | nil =>
    obtain rfl := Option.some.inj h
    simp [visits, hs]
  | cons e₁ es ih =>
    rw [run_cons] at h
    obtain ⟨next, hstep, hrun⟩ := Option.bind_eq_some_iff.1 h
    simp only [List.cons_append, visits, hstep, ih hrun, List.append_assoc]

/-- An event that is no question of an operation is none of its visits. -/
theorem visits_concat_of_none (h : o₀.run es = some o) (hs : o.step e = some o') {n : Nat}
    (hn : o.visit? n e = none) : o₀.visits n (es ++ [e]) = o₀.visits n es := by
  rw [visits_concat h hs, hn, Option.toList_none, List.append_nil]

/-- The operation that the last event starts, if it starts one, is the last that was started. -/
theorem started_concat (es : List Event) (e : Event) :
    started (es ++ [e]) = started es ++ e.start?.toList := by
  simp only [started, List.filterMap_append, List.filterMap_cons, List.filterMap_nil]
  cases e.start? <;> rfl

/-- What is known of all operations after a run, by what is known of each. -/
structure Tracked (P : Knowledge) (o₀ : Office) (es : List Event) (o : Office) : Prop where
  /-- There are as many operations as were started. -/
  length : o.operations.length = (started es).length
  /-- Nothing is asked before it starts. -/
  visits_eq_nil : ∀ n, o.operations.length ≤ n → o₀.visits n es = []
  /-- What is known of an operation. -/
  known : ∀ n i operation, (started es)[n]? = some (i, operation) →
    ∃ d, o.operations[n]? = some d ∧ P i operation (o₀.visits n es) d o.accounts

section Tracked

variable {P : Knowledge} {Q : Accounts → Prop}

/-- Nothing has to be known before anything has started. -/
theorem tracked_nil (hop : o₀.operations = []) : Tracked P o₀ [] o₀ where
  length := by rw [hop]; rfl
  visits_eq_nil _ _ := rfl
  known n i operation hn := by simp [started] at hn

/-- An operation that starts is known from then on, and the others as before. -/
theorem Tracked.start (h : Tracked P o₀ es o) (hP : KeptUp Q P) (hrun : o₀.run es = some o)
    (i : Identity) (operation : Operation) :
    Tracked P o₀ (es ++ [.start i operation])
      { o with operations := o.operations ++ [operation.dialogue i] } := by
  have hvisits : ∀ n, o₀.visits n (es ++ [.start i operation]) = o₀.visits n es :=
    fun n ↦ visits_concat_of_none hrun rfl rfl
  have hstarted : started (es ++ [.start i operation]) = started es ++ [(i, operation)] :=
    started_concat es _
  refine ⟨by simp [hstarted, h.length], fun n hn ↦ ?_, fun n j operation' hn ↦ ?_⟩
  · rw [List.length_append] at hn
    rw [hvisits]
    exact h.visits_eq_nil n (by omega)
  · rw [hvisits]
    rw [hstarted, List.getElem?_append] at hn
    split at hn
    · rename_i hlt
      obtain ⟨d, hd, hknown⟩ := h.known n j operation' hn
      exact ⟨d, by rw [List.getElem?_append_left (h.length ▸ hlt), hd], hknown⟩
    · obtain ⟨hlast, heq⟩ := List.getElem?_eq_some_iff.1 hn
      obtain rfl : n = o.operations.length := by
        rw [List.length_singleton] at hlast
        rw [h.length]
        omega
      obtain ⟨rfl, rfl⟩ := Prod.mk.inj ((List.getElem_singleton hlast).symm.trans heq)
      rw [h.visits_eq_nil _ (Nat.le_refl _)]
      exact ⟨_, List.getElem?_concat_length, hP.start _ _ _⟩

/-- A question of an operation is known as the next one of this operation, and for all others as one
from elsewhere. -/
theorem Tracked.ask (h : Tracked P o₀ es o) (hP : KeptUp Q P) (hq : Q o.accounts)
    (hrun : o₀.run es = some o) {k : Nat} {user : Except RemoteError DirectoryUser}
    (hs : o.step (.ask k user) = some o') : Tracked P o₀ (es ++ [.ask k user]) o' := by
  have hvisits := visits_concat hrun hs
  have helse : ∀ n, k ≠ n → o₀.visits n (es ++ [.ask k user]) = o₀.visits n es :=
    fun n hkn ↦ visits_concat_of_none hrun hs (if_neg hkn)
  have hstarted : started (es ++ [.ask k user]) = started es :=
    (started_concat es _).trans (List.append_nil _)
  obtain ⟨d, c, next, hk, hd, rfl⟩ := exists_of_step_ask hs
  have hlt : k < o.operations.length := (List.getElem?_eq_some_iff.1 hk).1
  refine ⟨by simp [hstarted, h.length], fun n hn ↦ ?_, fun n i operation hn ↦ ?_⟩
  · rw [List.length_set] at hn
    rw [helse n (by omega), h.visits_eq_nil n hn]
  · rw [hstarted] at hn
    obtain ⟨d', hd', hknown⟩ := h.known n i operation hn
    by_cases hkn : k = n
    · subst hkn
      obtain rfl : d' = d := Option.some.inj (hd'.symm.trans hk)
      refine ⟨_, List.getElem?_set_self hlt, ?_⟩
      simp only [hvisits, visit?, if_true, hk, Option.bind_some, hd, Option.toList_some]
      exact hP.ask hd hq hknown user
    · rw [helse n hkn]
      exact ⟨d', by rw [List.getElem?_set_ne hkn, hd'], hP.elsewhere hq hknown user c⟩

/-- A question of somebody else comes from elsewhere for all operations. -/
theorem Tracked.other (h : Tracked P o₀ es o) (hP : KeptUp Q P) (hq : Q o.accounts)
    (hrun : o₀.run es = some o) (c : SeatCall) :
    Tracked P o₀ (es ++ [.other c]) { o with accounts := (o.accounts.answer c).2 } := by
  have hvisits : ∀ n, o₀.visits n (es ++ [.other c]) = o₀.visits n es :=
    fun n ↦ visits_concat_of_none hrun rfl rfl
  have hstarted : started (es ++ [.other c]) = started es :=
    (started_concat es _).trans (List.append_nil _)
  obtain ⟨user, huser⟩ := exists_answer_eq o.accounts c
  refine ⟨by rw [hstarted, h.length], fun n hn ↦ ?_, fun n i operation hn ↦ ?_⟩
  · rw [hvisits]
    exact h.visits_eq_nil n hn
  · rw [hstarted] at hn
    obtain ⟨d, hd, hknown⟩ := h.known n i operation hn
    refine ⟨d, hd, ?_⟩
    rw [hvisits, ← huser]
    exact hP.elsewhere hq hknown user c

/-- **What every question keeps up is known after every run.** By induction on the events: the last
one starts an operation, is its own question, or is a question of somebody else. -/
theorem tracked_of_run (hP : KeptUp Q P) (hop : o₀.operations = []) (hq : Q o₀.accounts)
    (h : o₀.run es = some o) : Q o.accounts ∧ Tracked P o₀ es o := by
  induction es using List.reverseRecOn generalizing o with
  | nil =>
    obtain rfl := Option.some.inj h
    exact ⟨hq, tracked_nil hop⟩
  | append_singleton es e ih =>
    obtain ⟨o₁, h₁, hstep⟩ := run_concat_iff.1 h
    obtain ⟨hq₁, htracked⟩ := ih h₁
    cases e with
    | start i operation =>
      obtain rfl := Option.some.inj hstep
      exact ⟨hq₁, htracked.start hP h₁ i operation⟩
    | ask k user =>
      have hnext := htracked.ask hP hq₁ h₁ hstep
      obtain ⟨d, c, next, -, -, rfl⟩ := exists_of_step_ask hstep
      exact ⟨hP.state hq₁ user c, hnext⟩
    | other c =>
      obtain rfl := Option.some.inj hstep
      obtain ⟨user, huser⟩ := exists_answer_eq o₁.accounts c
      exact ⟨huser ▸ hP.state hq₁ user c, htracked.other hP hq₁ h₁ c⟩

end Tracked

/-- What is known of all operations after a run. -/
structure Watched (o₀ : Office) (es : List Event) (o : Office) : Prop where
  /-- The accounts system is kept. -/
  upkeep : Upkeep o₀.accounts o.accounts
  /-- There are as many operations as were started. -/
  length : o.operations.length = (started es).length
  /-- Nothing is asked before it starts. -/
  visits_eq_nil : ∀ n, o.operations.length ≤ n → o₀.visits n es = []
  /-- What is known of an operation. -/
  recorded : ∀ n i operation, (started es)[n]? = some (i, operation) →
    ∃ d, o.operations[n]? = some d ∧
      Recorded o₀.accounts i operation (o₀.visits n es) d o.accounts

/-- What is recorded of operations is kept up by every question, as long as the accounts system is
kept. -/
theorem keptUp_recorded (a₀ : Accounts) : KeptUp (Upkeep a₀) (Recorded a₀) where
  start := recorded_nil a₀
  ask hd hu h user := h.concat hd hu (reaction_answer hu.scripted user _) (told_answer hu user _)
  elsewhere hu h user c := h.elsewhere (reaction_answer hu.scripted user c)
  state hu user c := (reaction_answer hu.scripted user c).upkeep hu

/-- **After every run everything is on record**: of each operation its questions, the answers, and
that what it was told held whenever it asked further. -/
theorem watched_of_run (hop : o₀.operations = []) (hu : Upkeep o₀.accounts o₀.accounts)
    (h : o₀.run es = some o) : Watched o₀ es o := by
  obtain ⟨hupkeep, htracked⟩ := tracked_of_run (keptUp_recorded o₀.accounts) hop hu h
  exact ⟨hupkeep, htracked.length, htracked.visits_eq_nil, htracked.known⟩

end Office

end Licensing.Seat
