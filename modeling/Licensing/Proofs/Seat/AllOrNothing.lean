import Licensing.Proofs.Seat.Watch

/-!
# Seat operations are all or nothing

A listing changes nothing that the accounts system keeps but its notes of what it was asked, and
neither does an assignment or a revocation that fails, wherever it fails (`allOrNothing`). Nothing
is taken back for this: the one question of an operation that can change anything is its last, and
once it is answered as it should be the operation does not fail any more. It fails only if the
answer was fixed in advance and names no subscription, and then there was no change
(`Passage.unidentified`).

Others may ask between any two questions of an operation, and the accounts system may be set up
anew, to fail or to answer in one way. So an operation meets another accounts system with every
question (`Rounds`), and what it leaves alone is told question by question.
-/

namespace Licensing.Seat

open Dialogue (Course Reached)

variable {α β : Type} {a a' a'' : Accounts} {c : SeatCall} {x : Exchange} {xs ys : List Exchange}
  {vs : List Visit} {d d' : Dialogue α} {i : Identity} {operation : Operation}

/-! ### What is left alone -/

/-- Nothing that counts has changed. -/
structure Spared (a a' : Accounts) : Prop where
  /-- The quotas. -/
  quotas : a'.quotas = a.quotas
  /-- The subscriptions. -/
  subscriptions : a'.subscriptions = a.subscriptions
  /-- What was deleted. -/
  deleted : a'.log.deleted = a.log.deleted
  /-- The numbers of subscriptions. -/
  made : a'.made = a.made

/-- An accounts system is spared by nothing. -/
theorem Spared.refl (a : Accounts) : Spared a a :=
  ⟨rfl, rfl, rfl, rfl⟩

/-- What is spared by one thing and then by another is spared by both. -/
theorem Spared.trans (h : Spared a a') (h' : Spared a' a'') : Spared a a'' where
  quotas := h'.quotas.trans h.quotas
  subscriptions := h'.subscriptions.trans h.subscriptions
  deleted := h'.deleted.trans h.deleted
  made := h'.made.trans h.made

/-- Neither was a subscription made, nor was one deleted. -/
def Harmless (x : Exchange) : Prop :=
  x.issued? = none ∧ ∀ id, x ≠ ⟨.deleteSubscription id, .ok ()⟩

/-- A question without an effect is harmless. -/
theorem harmless_of_effective (h : x.effective = false) : Harmless x := by
  refine ⟨Exchange.issued?_eq_none h, ?_⟩
  rintro id rfl
  cases h

/-- A request changes nothing unless a subscription is made for it. -/
theorem authorize_eq_or (a : Accounts) (r : AuthorizationRequest) :
    (a.authorize r).2 = a ∨
      (Exchange.issued? ⟨.authorize r, .ok (a.authorize r).1⟩).isSome = true := by
  rw [Accounts.authorize]
  split
  · exact .inl rfl
  · split
    · exact .inl rfl
    · split
      · exact .inl rfl
      · exact .inr rfl

/-! ### What is left alone by a question -/

/-- An accounts system that does not fail is spared by a harmless question. -/
theorem spared_serve (h : Harmless ⟨c, (a.serve c).1⟩) : Spared a (a.serve c).2 := by
  cases c with
  | authorize r =>
    -- The request is noted first, and notes of requests do not count.
    let noted : Accounts := { a with log :=
      { a.log with authorizationRequests := a.log.authorizationRequests ++ [r] } }
    have hserve : a.serve (.authorize r) = (.ok (noted.authorize r).1, (noted.authorize r).2) := rfl
    rw [hserve] at h ⊢
    rcases authorize_eq_or noted r with heq | hissued
    · rw [heq]
      exact ⟨rfl, rfl, rfl, rfl⟩
    · rw [h.1] at hissued
      cases hissued
  | deleteSubscription id =>
    rw [Accounts.serve] at h ⊢
    cases hs : a.subscriptions.get? id with
    | none => exact .refl a
    | some s =>
      rw [hs] at h
      exact absurd rfl (h.2 id)
  | subscription | user =>
    rw [Accounts.serve]
    split <;> exact .refl a
  | quotaCost | subscriptions | convertOrg => exact ⟨rfl, rfl, rfl, rfl⟩

/-- So is any accounts system, for one that fails does not change at all. -/
theorem spared_answer (h : Harmless ⟨c, (a.answer c).1⟩) : Spared a (a.answer c).2 := by
  rcases answer_eq a c with hc | ⟨e, -, hc⟩
  · rw [hc] at h ⊢
    exact spared_serve h
  · rw [hc]
    exact .refl a

/-- The directory keeps nothing. -/
theorem spared_visit {user : Except RemoteError DirectoryUser}
    (h : Harmless ⟨c, (Office.answer a user c).1⟩) : Spared a (Office.answer a user c).2 := by
  cases c with
  | user => exact .refl a
  | _ => exact spared_answer h

/-- An accounts system that fails does nothing, and does not even note the question. -/
theorem answer_of_failure {e : RemoteError} (hf : a.failure = some e)
    (hc : ∀ username, c ≠ .user username) : a.answer c = (.error e, a) := by
  cases c with
  | user username => exact absurd rfl (hc username)
  | _ => simp [Accounts.answer, hf]

/-! ### Operations question by question -/

/-- A conversation goes on as another once these questions are answered, each by an accounts
system as it is by then and by a directory that may answer anything. -/
inductive Rounds (d : Dialogue α) : List Visit → Dialogue α → Prop where
  /-- Nothing is asked. -/
  | nil : Rounds d [] d
  /-- One more question is asked. -/
  | concat {vs : List Visit} {d' : Dialogue α} {c : SeatCall} {next : c.Answer → Dialogue α}
    (h : Rounds d vs d') (hd : d'.next? = some ⟨c, next⟩) (a : Accounts)
    (user : Except RemoteError DirectoryUser) :
    Rounds d (vs ++ [⟨a, ⟨c, (Office.answer a user c).1⟩, (Office.answer a user c).2⟩])
      (next (Office.answer a user c).1)

/-- A conversation that has ended. -/
def ended : Except SeatError α → Dialogue α
  | .ok result => .done result
  | .error e => .fail e

/-- Whatever is asked on the way changes nothing that counts. -/
def Spares (d d' : Dialogue α) : Prop :=
  ∀ vs, Rounds d vs d' → ∀ v ∈ vs, Spared v.before v.after

namespace Rounds

/-- After these questions a conversation has been through the same with answers. -/
theorem reached (h : Rounds d vs d') : Reached d (vs.map Visit.exchange) d' := by
  induction h with
  | nil => exact Dialogue.reached_nil d
  | concat h hd a user ih =>
    rw [List.map_append]
    exact ih.ask hd _

/-- Harmless questions spare every accounts system that they meet. -/
theorem spared (h : Rounds d vs d') (hx : ∀ x ∈ vs.map Visit.exchange, Harmless x) :
    ∀ v ∈ vs, Spared v.before v.after := by
  induction h with
  | nil => simp
  | concat h hd a user ih =>
    rw [List.map_append] at hx
    obtain ⟨hvs, hv⟩ := List.forall_mem_append.1 hx
    refine List.forall_mem_append.2 ⟨ih hvs, List.forall_mem_singleton.2 ?_⟩
    exact spared_visit (hv _ (List.mem_singleton_self _))

/-- A conversation asks the same when another one goes on with its result. -/
theorem bind (h : Rounds d vs d') (f : α → Dialogue β) : Rounds (d >>= f) vs (d' >>= f) := by
  induction h with
  | nil => exact .nil
  | concat h hd a user ih => exact ih.concat (Dialogue.next?_bind hd f) a user

/-- With an accounts system that nobody else asks it goes on to its end. -/
theorem exists_run (h : Rounds d vs d') (a : Accounts) :
    ∃ ws, Rounds d (vs ++ ws) (ended (d'.run Accounts.answer a).1) ∧
      ((∀ v ∈ ws, Spared v.before v.after) → Spared a (d'.run Accounts.answer a).2) := by
  induction d' generalizing vs a with
  | done result => exact ⟨[], by rwa [List.append_nil], fun _ ↦ .refl a⟩
  | fail e => exact ⟨[], by rwa [List.append_nil], fun _ ↦ .refl a⟩
  | ask c next ih =>
    obtain ⟨user, huser⟩ := Office.exists_answer_eq a c
    have hnext := h.concat rfl a user
    rw [huser] at hnext
    obtain ⟨ws, hws, hspared⟩ := ih _ hnext (a.answer c).2
    rw [List.append_assoc] at hws
    refine ⟨_, hws, fun hall ↦ ?_⟩
    obtain ⟨hfirst, hrest⟩ := List.forall_mem_cons.1 hall
    exact hfirst.trans (hspared hrest)
  | join c c' next ih =>
    rw [Dialogue.run]
    obtain ⟨user, huser⟩ := Office.exists_answer_eq a c
    have hfirst := h.concat rfl a user
    rw [huser] at hfirst
    generalize a.answer c = first at hfirst ⊢
    obtain ⟨e | x, a₁⟩ := first
    · exact ⟨_, hfirst, List.forall_mem_singleton.1⟩
    -- The second question is asked once the first one is answered.
    obtain ⟨user', huser'⟩ := Office.exists_answer_eq a₁ c'
    have hsecond := hfirst.concat rfl a₁ user'
    rw [huser', List.append_assoc] at hsecond
    dsimp only
    generalize a₁.answer c' = second at hsecond ⊢
    obtain ⟨e | y, a₂⟩ := second
    · refine ⟨_, hsecond, fun hall ↦ ?_⟩
      obtain ⟨hspared, hrest⟩ := List.forall_mem_cons.1 hall
      exact hspared.trans (hrest _ (List.mem_singleton_self _))
    · obtain ⟨ws, hws, hlast⟩ := ih x y hsecond a₂
      rw [List.append_assoc] at hws
      refine ⟨_, hws, fun hall ↦ ?_⟩
      obtain ⟨hspared, hall⟩ := List.forall_mem_cons.1 hall
      obtain ⟨hspared', hrest⟩ := List.forall_mem_cons.1 hall
      exact hspared.trans (hspared'.trans (hlast hrest))

end Rounds

/-- A conversation that spares whatever it meets spares the accounts system that it is alone with.
-/
theorem Spares.run (h : Spares d (ended (d.run Accounts.answer a).1)) :
    Spared a (d.run Accounts.answer a).2 := by
  obtain ⟨ws, hws, hspared⟩ := Rounds.nil.exists_run (d := d) a
  exact hspared (h ws hws)

/-! ### What operations leave alone -/

/-- An operation that is a listing, or failed, can have done no harm. -/
theorem harmless_of_passage {o : Except SeatError Outcome} (h : Passage i operation xs o)
    (ho : (∃ q, operation = .list q) ∨ ∃ e, o = .error e) : ∀ x ∈ xs, Harmless x := by
  cases h with
  | idle hxs => exact fun x hx ↦ harmless_of_effective (hxs x hx)
  | unidentified hxs ha hid =>
    refine List.forall_mem_append.2 ⟨fun x hx ↦ harmless_of_effective (hxs x hx), ?_⟩
    refine List.forall_mem_singleton.2 ⟨?_, by simp⟩
    simp [Exchange.issued?, hid]
  | assigned | revoked => simp at ho

/-- A listing, however far it has come, and an operation that has failed have spared whatever they
met. -/
theorem spares_operation (i : Identity) (operation : Operation) {d : Dialogue Outcome}
    (ho : (∃ q, operation = .list q) ∨ ∃ e, d = .fail e) : Spares (operation.dialogue i) d := by
  intro vs hvs
  -- A listing may still go on, so one of its ends is taken.
  obtain ⟨ys, o, hys, hend⟩ : ∃ ys o, Course d ys o ∧
      ((∃ q, operation = .list q) ∨ ∃ e, o = .error e) := by
    rcases ho with hlist | ⟨e, rfl⟩
    · obtain ⟨ys, o, hys⟩ := Dialogue.exists_course d
      exact ⟨ys, o, hys, .inl hlist⟩
    · exact ⟨[], _, .fail e, .inr ⟨e, rfl⟩⟩
  have hharmless := harmless_of_passage (passage_of_course (hvs.reached ys o hys)) hend
  exact hvs.spared fun x hx ↦ hharmless x (List.mem_append_left _ hx)

/-- So it is for a listing on its own. -/
theorem spares_list (i : Identity) (q : SeatQuery) (d : Dialogue SeatPage) :
    Spares (Seat.list i q) d := fun vs hvs ↦
  spares_operation i (.list q) (.inl ⟨q, rfl⟩) vs
    (hvs.bind fun page ↦ pure (Outcome.page page))

/-- So it is for an assignment on its own. -/
theorem spares_assign (i : Identity) (account : String) (e : SeatError) :
    Spares (Seat.assign i account) (.fail e) := fun vs hvs ↦
  spares_operation i (.assign account) (.inr ⟨e, rfl⟩) vs
    (hvs.bind fun seat ↦ pure (Outcome.assigned seat))

/-- So it is for a revocation on its own. -/
theorem spares_revoke (i : Identity) (id : String) (e : SeatError) :
    Spares (Seat.revoke i id) (.fail e) := fun vs hvs ↦
  spares_operation i (.revoke id) (.inr ⟨e, rfl⟩) vs
    (hvs.bind fun _ ↦ pure Outcome.revoked)

/-- What is known of an operation among others: the questions it asked. -/
theorem keptUp_rounds :
    KeptUp (fun _ ↦ True) fun i operation vs d _ ↦ Rounds (operation.dialogue i) vs d where
  start _ _ _ := .nil
  ask hd _ h user := h.concat hd _ user
  elsewhere _ h _ _ := h
  state _ _ _ := trivial

/-- What is left alone by the operations of a caller. -/
structure AllOrNothing (i : Identity) : Prop where
  /-- A listing leaves everything alone, however far it has come. -/
  list : ∀ q d, Spares (Seat.list i q) d
  /-- An assignment that fails leaves everything alone. -/
  assign : ∀ account e, Spares (Seat.assign i account) (.fail e)
  /-- So does a revocation that fails. -/
  revoke : ∀ id e, Spares (Seat.revoke i id) (.fail e)
  /-- If nobody else asks, everything is after a listing as it was before. -/
  list_alone : ∀ q a, Spared a ((Seat.list i q).run Accounts.answer a).2
  /-- So it is after an assignment that fails. -/
  assign_alone : ∀ account a e, ((Seat.assign i account).run Accounts.answer a).1 = .error e →
    Spared a ((Seat.assign i account).run Accounts.answer a).2
  /-- So it is after a revocation that fails. -/
  revoke_alone : ∀ id a e, ((Seat.revoke i id).run Accounts.answer a).1 = .error e →
    Spared a ((Seat.revoke i id).run Accounts.answer a).2
  /-- Among other operations each question of a listing, or of an operation that failed, left
  everything alone. -/
  together : ∀ (o₀ o : Office) es, o₀.operations = [] → o₀.run es = some o →
    ∀ n operation d, (started es)[n]? = some (i, operation) → o.operations[n]? = some d →
      ((∃ q, operation = .list q) ∨ ∃ e, d = .fail e) →
        ∀ v ∈ o₀.visits n es, Spared v.before v.after
  /-- An accounts system that is told to fail does nothing at all when it is asked. -/
  failing : ∀ (a : Accounts) e, a.failure = some e → ∀ c, (∀ username, c ≠ .user username) →
    a.answer c = (.error e, a)

/-- **Seat operations are all or nothing.** Whatever state the accounts system is in, also between
two questions of an operation, whatever the directory answers and whoever asks: a listing changes
no quota and no subscription, deletes nothing and uses no number up, and neither does an assignment
or a revocation that ends with an error. -/
theorem allOrNothing (i : Identity) : AllOrNothing i where
  list := spares_list i
  assign := spares_assign i
  revoke := spares_revoke i
  list_alone q _ := (spares_list i q _).run
  assign_alone account a e h := by
    refine Spares.run ?_
    rw [h]
    exact spares_assign i account e
  revoke_alone id a e h := by
    refine Spares.run ?_
    rw [h]
    exact spares_revoke i id e
  together o₀ o es hop hrun n operation d hstart hd ho := by
    obtain ⟨-, htracked⟩ := Office.tracked_of_run keptUp_rounds hop trivial hrun
    obtain ⟨d', hd', hrounds⟩ := htracked.known n i operation hstart
    obtain rfl : d = d' := Option.some.inj (hd.symm.trans hd')
    exact spares_operation i operation ho _ hrounds
  failing _ _ hf _ hc := answer_of_failure hf hc

end Licensing.Seat
