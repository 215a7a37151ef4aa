import Licensing.Proofs.Client.Failures
import Licensing.Proofs.Seat.Screening
import Licensing.Proofs.Seat.Unaffiliated
import Licensing.Service.Start

/-!
# What a failed seat operation is answered with

The answer to an operation that failed is the envelope of its error, and has the status that the
envelope tells whenever an answer can have it (`TellsError`). The failure of a service behind keeps
its status, though, and only that of a success is taken for none: where a service redirects, or says
that nothing has changed, the caller is told an error by an answer that has not the status of one
(`passes_redirect`). No failed operation is answered like one that succeeded, whatever the network
does (`seatErrors`).
-/

namespace Licensing.Service

open Client (AccountsClient DirectoryClient Network ScreeningClient isSuccess)
open Json (Value)

/-! ### Envelopes -/

/-- The status that an envelope tells. -/
theorem exists_fields_toValue (e : Envelope) :
    ∃ fields, e.toValue = .object fields ∧ fields.lookup "status" = some (.nat e.status) := by
  refine ⟨_, rfl, ?_⟩
  rcases e with ⟨error, _ | code, _ | identifier, _ | operationId, status⟩ <;> rfl

/-- A service behind failed with a status that no error has. -/
def PassesOn (e : SeatError) (n : Nat) : Prop :=
  ∃ u, e = .remote u ∧ u.observedStatus = some n ∧ 100 ≤ n ∧ n < 400

/-- What the answer to a failed operation tells. -/
structure TellsError (t : EnvelopeStyle) (e : SeatError) (r : Response) : Prop where
  /-- It is a document, the envelope of the error. -/
  envelope : r = .json r.status (t.ofSeat e).toValue
  /-- The document has a field for the status. -/
  field : ∃ fields, (t.ofSeat e).toValue = .object fields ∧
    fields.lookup "status" = some (.nat (t.ofSeat e).status)
  /-- The envelope tells the status that a service behind failed with. -/
  told : ∀ u n, e = .remote u → u.observedStatus = some n → (t.ofSeat e).status = n
  /-- The envelope tells the status, whenever an answer can have it. -/
  status_eq : Response.isStatus (t.ofSeat e).status = true → r.status = (t.ofSeat e).status
  /-- An answer cannot have it only if it is one that a service behind failed with. -/
  fallback : Response.isStatus (t.ofSeat e).status = false →
    r.status = 500 ∧ ∃ u, e = .remote u ∧ u.observedStatus = some (t.ofSeat e).status
  /-- It has the status of an error, unless a service failed with a status that no error has. -/
  isError_iff : 400 ≤ r.status ↔ ∀ n, ¬ PassesOn e n

section TellsError

variable {t : EnvelopeStyle} {e : SeatError} {u : RemoteError} {n : Nat} {r : Response}

theorem status_ofRemote_of_some (h : u.observedStatus = some n) (otherwise : Nat) :
    (t.ofRemote u otherwise).status = n := by
  cases u <;> simp_all [RemoteError.observedStatus, EnvelopeStyle.ofRemote, Envelope.plain]

theorem status_ofRemote_of_none (h : u.observedStatus = none) (otherwise : Nat) :
    (t.ofRemote u otherwise).status = otherwise := by
  cases u <;> simp_all [RemoteError.observedStatus, EnvelopeStyle.ofRemote, Envelope.plain]

/-- The status in the envelope of an error is that of an error, or one that a service behind failed
with. -/
theorem status_ofSeat (t : EnvelopeStyle) (e : SeatError) :
    ((∀ n, ¬ PassesOn e n) ∧ 400 ≤ (t.ofSeat e).status ∧ (t.ofSeat e).status ≤ 500) ∨
      ∃ u, e = .remote u ∧ u.observedStatus = some (t.ofSeat e).status := by
  cases e with
  | remote u =>
    rcases hu : u.observedStatus with _ | n
    · refine .inl ⟨?_, ?_⟩
      · rintro n ⟨u', heq, hn, -⟩
        obtain rfl := SeatError.remote.inj heq
        exact absurd (hu.symm.trans hn) (by simp)
      · simp [EnvelopeStyle.ofSeat, status_ofRemote_of_none hu]
    · exact .inr ⟨u, rfl, by rw [EnvelopeStyle.ofSeat, status_ofRemote_of_some hu, hu]⟩
  | _ => exact .inl ⟨by simp [PassesOn], by simp [EnvelopeStyle.ofSeat, Envelope.plain]⟩

theorem passesOn_remote_iff (h : u.observedStatus = some n) {k : Nat} :
    PassesOn (.remote u) k ↔ k = n ∧ 100 ≤ n ∧ n < 400 := by
  constructor
  · rintro ⟨u', heq, hk, hrange⟩
    obtain rfl := SeatError.remote.inj heq
    obtain rfl := Option.some.inj (hk.symm.trans h)
    exact ⟨rfl, hrange⟩
  · rintro ⟨rfl, hrange⟩
    exact ⟨u, rfl, h, hrange⟩

theorem status_ofEnvelope (e : Envelope) : (Response.ofEnvelope e).status =
    if 100 ≤ e.status ∧ e.status ≤ 999 then e.status else 500 := by
  simp [Response.ofEnvelope, Response.json, Response.isStatus]

/-- **What a failed operation is answered with.** It is the envelope of the error, under the status
that this has unless no response can have it. -/
theorem tellsError_ofEnvelope (t : EnvelopeStyle) (e : SeatError) :
    TellsError t e (.ofEnvelope (t.ofSeat e)) where
  envelope := rfl
  field := exists_fields_toValue _
  told u n he hn := by rw [he, EnvelopeStyle.ofSeat, status_ofRemote_of_some hn]
  status_eq h := by
    rw [Response.ofEnvelope, if_pos h]
    rfl
  fallback h := by
    refine ⟨by rw [Response.ofEnvelope, h]; rfl, (status_ofSeat t e).resolve_left ?_⟩
    rintro ⟨-, hle, hge⟩
    simp only [Response.isStatus, Bool.and_eq_false_iff, decide_eq_false_iff_not] at h
    omega
  isError_iff := by
    rw [status_ofEnvelope]
    rcases status_ofSeat t e with ⟨hnot, hle, hge⟩ | ⟨u, rfl, hu⟩
    · refine iff_of_true ?_ hnot
      split <;> omega
    · simp only [passesOn_remote_iff hu, not_and, forall_eq]
      split <;> omega

/-- A failure that has not the status of a success is not answered with one. -/
theorem TellsError.isSuccess_eq_false (h : TellsError t e r)
    (he : ∀ u, e = .remote u → u.Unsuccessful) : isSuccess r.status = false := by
  rcases Nat.lt_or_ge r.status 400 with hlt | hle
  · obtain ⟨n, u, rfl, hn, hrange⟩ : ∃ n, PassesOn e n := by
      by_contra hnot
      exact absurd (h.isError_iff.2 (not_exists.1 hnot)) (Nat.not_le.2 hlt)
    have htold := h.told u n rfl hn
    rw [h.status_eq (by simp [htold, Response.isStatus]; omega), htold]
    exact he u rfl n hn
  · simp [isSuccess]
    omega

end TellsError

/-! ### Services behind -/

/-- The answer to a question is no failure with the status of a success. -/
def Sound (x : Exchange) : Prop :=
  ∀ u, x.answer = .error u → u.Unsuccessful

theorem unsuccessful_of_mem_failures {es : List Exchange} (h : ∀ x ∈ es, Sound x)
    {u : RemoteError} (hu : u ∈ failures es) : u.Unsuccessful := by
  obtain ⟨⟨c, e | reply⟩, hx, hfailure⟩ := List.mem_filterMap.1 hu
  · obtain rfl := Option.some.inj hfailure
    exact h _ hx _ rfl
  · exact absurd hfailure (by simp)

/-- What is not there is not found. -/
theorem unsuccessful_of_serve {a : Accounts} {c : SeatCall} {u : RemoteError}
    (h : (a.serve c).1 = .error u) : u.Unsuccessful := by
  have hmissing : ∀ {u : RemoteError}, u.observedStatus = some 404 → u.Unsuccessful :=
    fun hu ↦ RemoteError.unsuccessful_of_some hu rfl
  cases c with
  | quotaCost | subscriptions | authorize => exact absurd h (by simp [Accounts.serve])
  | subscription | deleteSubscription | user =>
    rw [Accounts.serve] at h
    split at h
    · exact absurd h (by simp)
    · obtain rfl := Except.error.inj h
      exact hmissing rfl
  | convertOrg org =>
    have h : a.convertOrg org = .error u := h
    rw [Accounts.convertOrg] at h
    split at h
    · exact absurd h (by simp)
    split at h
    · exact absurd h (by simp)
    · obtain rfl := Except.error.inj h
      exact hmissing rfl

/-- The accounts system in memory fails like that only if it was told to. -/
theorem sound_answer {a : Accounts} (ha : ∀ u, a.failure = some u → u.Unsuccessful)
    (c : SeatCall) : Sound ⟨c, (a.answer c).1⟩ := by
  intro u hu
  have hu : (a.answer c).1 = .error u := hu
  rcases Seat.answer_eq a c with h | ⟨u', hu', h⟩ <;> rw [h] at hu
  · exact unsuccessful_of_serve hu
  · obtain rfl := Except.error.inj hu
    exact ha u' hu'

section Links

variable {σ : Type} {network : Network σ} {l : Links σ}

theorem sound_askAccounts (hl : ∀ u, l.memory.failure = some u → u.Unsuccessful) (c : SeatCall) :
    Sound ⟨c, (l.askAccounts network c).1⟩ := by
  rw [Links.askAccounts]
  split
  · exact fun u hu ↦ AccountsClient.unsuccessful_of_ask hu
  · exact sound_answer hl c

/-- Nothing behind fails with the status of a success. -/
theorem sound_ask (hl : ∀ u, l.memory.failure = some u → u.Unsuccessful) (c : SeatCall) :
    Sound ⟨c, (l.ask network c).1⟩ := by
  cases c with
  | user username =>
    rw [Links.ask]
    split
    · exact fun u hu ↦ DirectoryClient.unsuccessful_of_ask hu
    · exact sound_answer hl _
  | _ => exact sound_askAccounts hl _

theorem failure_askAccounts (network : Network σ) (l : Links σ) (c : SeatCall) :
    (l.askAccounts network c).2.memory.failure = l.memory.failure := by
  rw [Links.askAccounts]
  split
  · rfl
  · exact (Seat.sameSetup_answer l.memory c).failure

theorem failure_ask (network : Network σ) (l : Links σ) (c : SeatCall) :
    (l.ask network c).2.memory.failure = l.memory.failure := by
  cases c with
  | user username =>
    rw [Links.ask]
    split
    · rfl
    · exact (Seat.sameSetup_answer l.memory _).failure
  | _ => exact failure_askAccounts network l _

end Links

/-! ### Operations -/

section Operations

variable {σ α : Type} {b : Backends σ} {s : State σ} {d : Dialogue α} {answer : α → Response}
  {e : SeatError}

theorem tellsError_handleSeats (h : (d.run b.seats s.world).1 = .error e) :
    TellsError s.envelopes e (handleSeats b s d answer).1 := by
  rcases hrun : d.run b.seats s.world with ⟨o, world⟩
  rw [hrun] at h
  obtain rfl : o = .error e := h
  rw [handleSeats, hrun]
  exact tellsError_ofEnvelope s.envelopes e

/-- An operation that is answered like one that succeeded did succeed, if it reports no failure of
a service behind but one that it met. -/
theorem exists_ok_of_isSuccess {network : Network σ} {screening : Option ScreeningClient}
    {s : State (Links σ)} (hs : ∀ u, s.world.memory.failure = some u → u.Unsuccessful)
    (hd : ∀ es u, Dialogue.Course d es (.error (.remote u)) → u ∈ failures es)
    (h : isSuccess (handleSeats (Links.backends network screening) s d answer).1.status = true) :
    ∃ a, (d.run (Links.backends network screening).seats s.world).1 = .ok a := by
  rcases hrun : (d.run (Links.backends network screening).seats s.world).1 with e | a
  · have htells : TellsError s.envelopes e
        (handleSeats (Links.backends network screening) s d answer).1 :=
      tellsError_handleSeats hrun
    refine absurd (h.symm.trans (htells.isSuccess_eq_false ?_)) (by simp)
    rintro u rfl
    -- What the accounts system in memory was told to fail with stays the same.
    have hkeep : ∀ (l : Links σ) (c : SeatCall),
        (∀ u, l.memory.failure = some u → u.Unsuccessful) →
          ∀ u, ((Links.backends network screening).seats l c).2.memory.failure = some u →
            u.Unsuccessful :=
      fun l c hl u hu ↦ hl u ((failure_ask network l c).symm.trans hu)
    refine unsuccessful_of_mem_failures
      (Dialogue.forall_mem_transcript hkeep (fun l c hl ↦ sound_ask hl c) d hs) ?_
    exact hd _ u (hrun ▸ Dialogue.course_transcript _ d s.world)
  · exact ⟨a, rfl⟩

/-- What the service makes of seat operations that fail. -/
structure AnswersFailures (b : Backends σ) (s : State σ) (i : Identity) : Prop where
  /-- Whatever is asked, an operation that fails is told its error. -/
  tells : ∀ {α : Type} (d : Dialogue α) (answer : α → Response) (e : SeatError),
    (d.run b.seats s.world).1 = .error e → TellsError s.envelopes e (handleSeats b s d answer).1
  /-- A listing that is answered with the status of a success made a page. -/
  list : ∀ query, isSuccess (handleListSeats b s i query).1.status = true →
    ∃ q page, seatQuery query = .ok q ∧ ((Seat.list i q).run b.seats s.world).1 = .ok page
  /-- An assignment that is answered with the status of a success assigned a seat. -/
  assign : ∀ body, isSuccess (handleAssignSeat b s i body).1.status = true →
    ∃ username seat, Json.readAs assignee? body = some username ∧
      ((Seat.assign i username).run b.seats s.world).1 = .ok seat
  /-- A revocation that is answered with the status of a success revoked a seat. -/
  revoke : ∀ id, isSuccess (handleRevokeSeat b s i id).1.status = true →
    ((Seat.revoke i id).run b.seats s.world).1 = .ok ()

theorem status_badRequest (message : String) : (Response.badRequest message).status = 400 := rfl

theorem answersFailures_of_memory (network : Network σ) (screening : Option ScreeningClient)
    (s : State (Links σ)) (i : Identity)
    (hs : ∀ u, s.world.memory.failure = some u → u.Unsuccessful) :
    AnswersFailures (Links.backends network screening) s i where
  tells _ _ _ h := tellsError_handleSeats h
  list query h := by
    rw [handleListSeats] at h
    split at h
    · exact absurd h (by simp [status_badRequest, isSuccess])
    · rename_i q hq
      obtain ⟨page, hpage⟩ := exists_ok_of_isSuccess hs
        (fun es u hc ↦ ((Seat.listing_of_course hc).remote_iff u).1 rfl) h
      exact ⟨q, page, hq, hpage⟩
  assign body h := by
    rw [handleAssignSeat] at h
    split at h
    · exact absurd h (by simp [Response.text, isSuccess])
    split at h
    · exact absurd h (by simp [status_badRequest, isSuccess])
    · rename_i username husername
      obtain ⟨seat, hseat⟩ := exists_ok_of_isSuccess hs
        (fun es u hc ↦ ((Seat.assignment_of_course hc).remote_iff u).1 rfl) h
      exact ⟨username, seat, husername, hseat⟩
  revoke id h := by
    rw [handleRevokeSeat] at h
    obtain ⟨_, hdone⟩ := exists_ok_of_isSuccess hs
      (fun es u hc ↦ ((Seat.revocation_of_course hc).remote_iff u).1 rfl) h
    exact hdone

end Operations

/-- **A failed seat operation is told its error and is never answered like one that succeeded.** The
envelope of the error is the answer, with the status that it tells where an answer can have it. This
is the status of an error, unless a service behind failed with a status that is neither that of an
error nor that of a success. -/
theorem seatErrors {σ : Type} (network : Network σ) (screening : Option ScreeningClient)
    (s : State (Links σ)) (i : Identity) :
    (∀ e : SeatError, TellsError s.envelopes e (seatErrorResponse s e).1) ∧
      ((∀ u, s.world.memory.failure = some u → u.Unsuccessful) →
        AnswersFailures (Links.backends network screening) s i) :=
  ⟨fun e ↦ tellsError_ofEnvelope s.envelopes e, answersFailures_of_memory network screening s i⟩

/-! ### Redirections -/

/-- A network in which every service redirects. -/
def redirecting : Network Unit :=
  fun s _ ↦ (.ok ⟨302, none, [], none⟩, s)

/-- A client of an accounts system, without credentials. -/
def gateway : AccountsClient :=
  ⟨⟨"https", some ⟨"", "", "accounts.test", none⟩, .segments [], none, none⟩, none, .start⟩

/-- A service with this client. -/
def behindGateway : State (Links Unit) where
  evaluator := default
  envelopes := ⟨none⟩
  metrics := some default
  world := ⟨default, some gateway, none, default, ()⟩
  apiVersion := ""
  commit := ""
  openapiFile := ""

/-- An administrator. -/
def admin : Identity :=
  ⟨"", "7", false, "", "ann", .user, true⟩

/-- **An operation that failed at a redirection is answered by one.** -/
theorem passes_redirect :
    ((Seat.revoke admin "sub-1").run (Links.backends redirecting none).seats
      behindGateway.world).1 =
        .error (.remote (.client "accounts" 302 "empty response body")) ∧
    (handleRevokeSeat (Links.backends redirecting none) behindGateway admin "sub-1").1.status =
      302 := by
  decide +kernel

/-- It is not answered like one that succeeded. -/
theorem answersFailures_redirecting :
    (∀ u, behindGateway.world.memory.failure = some u → u.Unsuccessful) ∧
    AnswersFailures (Links.backends redirecting none) behindGateway admin :=
  have hmemory : ∀ u, behindGateway.world.memory.failure = some u → u.Unsuccessful :=
    fun _ hu ↦ nomatch hu
  ⟨hmemory, (seatErrors redirecting none behindGateway admin).2 hmemory⟩

end Licensing.Service
