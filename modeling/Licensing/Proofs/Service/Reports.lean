import Licensing.Proofs.Client.Refusals
import Licensing.Proofs.Service.SeatErrors

/-!
# What a caller learns of a refusal by a service behind

A refusal goes a long way. A client makes a failure of the answer (`Client.Reports`), the seat
operation that asked fails with it (`Passes`), and the caller is told its envelope. The envelope has
the status of the failure and the fields of an error with a code (`Keeps`). The words of one error
change on the way, those of the refusal that the terms were not accepted: if the operator has a hint
for it, the hint follows the reason. `intact` says this of every network, every operation and every
hint.
-/

namespace Licensing.Service

open Client (AccountsClient Answered Network)
open Json (Value)

/-! ### Envelopes of failures -/

/-- A failure is the refusal that the terms were not accepted, and there is a hint for it. -/
structure Hinted (hint : Option String) (status : Nat) (code h : String) : Prop where
  /-- The hint. -/
  hint_eq : hint = some h
  /-- It is not blank. -/
  not_blank : Text.isBlank h = false
  /-- The failure has the code of this refusal. -/
  code_eq : code = "ACCT-MGMT-11"
  /-- It is a refusal. -/
  status_eq : status = 403

/-- What an envelope keeps of the failure of a service behind. -/
structure Keeps (hint : Option String) (u : RemoteError) (e : Envelope) : Prop where
  /-- The status that was observed. -/
  status : ∀ n, u.observedStatus = some n → e.status = n
  /-- A failure without one is an internal error, in its own words. -/
  internal : u.observedStatus = none → e = .plain 500 u.message
  /-- Of an answer without a code, the words that the client found for it. -/
  excerpt : ∀ service n message, u = .client service n message ∨ u = .directory n message →
    e = .plain n message
  /-- Of an error with a code, the code and both identifiers. -/
  stated : ∀ service n code identifier operation reason,
    u = .api service n code identifier operation reason →
      e.code = some code ∧ e.identifier = identifier ∧ e.operationId = operation
  /-- Its reason, which the hint follows where there is one. -/
  hinted : ∀ service n code identifier operation reason h,
    u = .api service n code identifier operation reason → Hinted hint n code h →
      e.error = reason ++ " " ++ Text.trim h
  /-- Nothing follows it elsewhere. -/
  unhinted : ∀ service n code identifier operation reason,
    u = .api service n code identifier operation reason → (∀ h, ¬Hinted hint n code h) →
      e.error = reason

section Envelopes

variable {hint : Option String} {status : Nat} {code h : String}

/-- The hint that is used is the given one without the blanks around it, unless it is blank. -/
theorem hint_ofHint_eq_some_iff {t : String} : (EnvelopeStyle.ofHint hint).hint = some t ↔
    ∃ h, hint = some h ∧ Text.isBlank h = false ∧ Text.trim h = t := by
  rw [EnvelopeStyle.ofHint, Option.filter_eq_some_iff, Option.map_eq_some_iff]
  constructor
  · rintro ⟨⟨h, hh, rfl⟩, hne⟩
    refine ⟨h, hh, ?_, rfl⟩
    rw [Bool.eq_false_iff, Ne, ← Text.trim_eq_empty_iff]
    exact of_decide_eq_true hne
  · rintro ⟨h, hh, hblank, rfl⟩
    refine ⟨⟨h, hh, rfl⟩, decide_eq_true ?_⟩
    rw [Ne, Text.trim_eq_empty_iff, hblank]
    exact Bool.false_ne_true

theorem reasonWithHint_of_hinted (hh : Hinted hint status code h) (reason : String) :
    (EnvelopeStyle.ofHint hint).reasonWithHint status code reason =
      reason ++ " " ++ Text.trim h := by
  have hused := hint_ofHint_eq_some_iff.2 ⟨h, hh.hint_eq, hh.not_blank, rfl⟩
  rw [EnvelopeStyle.reasonWithHint, hused, hh.code_eq, hh.status_eq]
  rfl

theorem reasonWithHint_of_not_hinted (hnot : ∀ h, ¬Hinted hint status code h) (reason : String) :
    (EnvelopeStyle.ofHint hint).reasonWithHint status code reason = reason := by
  rw [EnvelopeStyle.reasonWithHint]
  split
  · rename_i t hused
    obtain ⟨h, hh, hblank, -⟩ := hint_ofHint_eq_some_iff.1 hused
    refine if_neg fun hboth ↦ ?_
    rw [Bool.and_eq_true, decide_eq_true_iff, decide_eq_true_iff] at hboth
    exact hnot h ⟨hh, hblank, hboth.1, hboth.2⟩
  · rfl

/-- **What the envelope of a failure keeps of it.** -/
theorem keeps_ofSeat (hint : Option String) (u : RemoteError) :
    Keeps hint u ((EnvelopeStyle.ofHint hint).ofSeat (.remote u)) where
  status _ hn := status_ofRemote_of_some hn 500
  internal hu := by
    cases u with
    | api | client | directory => exact absurd hu (by simp [RemoteError.observedStatus])
    | timeout | transport | decode => rfl
  excerpt _ _ _ hu := by rcases hu with rfl | rfl <;> rfl
  stated _ _ _ _ _ _ hu := by
    subst hu
    exact ⟨rfl, rfl, rfl⟩
  hinted _ _ _ _ _ reason _ hu hh := by
    subst hu
    exact reasonWithHint_of_hinted hh reason
  unhinted _ _ _ _ _ reason hu hnot := by
    subst hu
    exact reasonWithHint_of_not_hinted hnot reason

end Envelopes

/-! ### Seat operations -/

/-- Whatever answers it, a conversation that meets a failure fails with it. -/
def Passes {α : Type} (d : Dialogue α) : Prop :=
  ∀ {τ : Type} (answer : τ → (c : SeatCall) → c.Answer × τ) (s : τ) (u : RemoteError),
    u ∈ failures (d.transcript answer s) → (d.run answer s).1 = .error (.remote u)

/-- So it is if every course on which it meets one ends with it. -/
theorem passes_of_course {α : Type} {d : Dialogue α}
    (h : ∀ es o u, Dialogue.Course d es o → u ∈ failures es → o = .error (.remote u)) :
    Passes d :=
  fun answer s u hu ↦ h _ _ u (Dialogue.course_transcript answer d s) hu

/-- Whoever has such a conversation is told what the failure says. -/
theorem exists_keeps_of_passes {τ α : Type} {b : Backends τ} {s : State τ} {d : Dialogue α}
    {hint : Option String} {u : RemoteError} (hd : Passes d)
    (hs : s.envelopes = EnvelopeStyle.ofHint hint)
    (hu : u ∈ failures (d.transcript b.seats s.world)) (answer : α → Response) :
    ∃ e, (handleSeats b s d answer).1 = .ofEnvelope e ∧ Keeps hint u e := by
  have hfails := hd b.seats s.world u hu
  rcases hrun : d.run b.seats s.world with ⟨o, world⟩
  rw [hrun] at hfails
  obtain rfl : o = .error (.remote u) := hfails
  refine ⟨_, ?_, keeps_ofSeat hint u⟩
  rw [handleSeats, hrun, ← hs]
  rfl

/-! ### The main statement -/

/-- What becomes of a refusal by a service behind. -/
structure Intact {σ : Type} (network : Network σ) (hint : Option String) : Prop where
  /-- The clients make a failure of it. -/
  reports : Client.Reports network
  /-- A listing fails with the failure that it meets. -/
  list : ∀ i q, Passes (Seat.list i q)
  /-- So does an assignment. -/
  assign : ∀ i username, Passes (Seat.assign i username)
  /-- So does a revocation. -/
  revoke : ∀ i id, Passes (Seat.revoke i id)
  /-- The envelope of the failure keeps what it says. -/
  keeps : ∀ u, Keeps hint u ((EnvelopeStyle.ofHint hint).ofSeat (.remote u))
  /-- The answer of a service with this hint is such an envelope. -/
  told : ∀ {τ α : Type} (b : Backends τ) (s : State τ) (d : Dialogue α) (answer : α → Response)
    (u : RemoteError), s.envelopes = EnvelopeStyle.ofHint hint → Passes d →
      u ∈ failures (d.transcript b.seats s.world) →
        ∃ e, (handleSeats b s d answer).1 = .ofEnvelope e ∧ Keeps hint u e

/-- **Refusals by the services behind reach the caller intact**: through the client, which makes a
failure of the reply, through the operation, which fails with it, and through the envelope, which
keeps what it says. -/
theorem intact {σ : Type} (network : Network σ) (hint : Option String) : Intact network hint where
  reports := Client.reports network
  list _ _ := passes_of_course fun _ _ u hc ↦ ((Seat.listing_of_course hc).remote_iff u).2
  assign _ _ := passes_of_course fun _ _ u hc ↦ ((Seat.assignment_of_course hc).remote_iff u).2
  revoke _ _ := passes_of_course fun _ _ u hc ↦ ((Seat.revocation_of_course hc).remote_iff u).2
  keeps := keeps_ofSeat hint
  told _ _ _ answer _ hs hd hu := exists_keeps_of_passes hd hs hu answer

/-! ### A refusal because of the terms -/

/-- What the accounts system answers to somebody who has not accepted the terms. -/
def refusal : Utf8.Bytes :=
  Utf8.encodeText (Value.object [("id", .text "11"), ("code", .text "ACCT-MGMT-11"),
    ("reason", .text "Terms not accepted."), ("operation_id", .text "op-9")]).compact

/-- A network in which it answers this to everything. -/
def refusing : Network Unit :=
  fun s _ ↦ (.ok ⟨403, none, [refusal], none⟩, s)

/-- The failure that a client makes of it. -/
def notAccepted : RemoteError :=
  .api "accounts" 403 "ACCT-MGMT-11" (some "11") (some "op-9") "Terms not accepted."

/-- A hint for it. -/
def termsHint : String := " Accept them first.\n"

/-- **An administrator who has not accepted the terms is told so, with the hint.** -/
theorem intact_notAccepted :
    AccountsClient.Asks refusing gateway () (.subscription "sub-1")
      (gateway.request (.subscription "sub-1")) () ∧
    Answered refusing () (gateway.request (.subscription "sub-1")) 403 refusal ∧
    (∃ e, (gateway.ask refusing () (.subscription "sub-1")).1 = .error e ∧
      AccountsClient.Tells 403 refusal e) ∧
    ((Seat.revoke admin "sub-1").run (Links.backends refusing none).seats
      behindGateway.world).1 = .error (.remote notAccepted) ∧
    ((EnvelopeStyle.ofHint (some termsHint)).ofSeat (.remote notAccepted)).error =
      "Terms not accepted. Accept them first." ∧
    ((EnvelopeStyle.ofHint (some termsHint)).ofSeat (.remote notAccepted)).status = 403 := by
  have hintact := intact refusing (some termsHint)
  have hasks : AccountsClient.Asks refusing gateway () (.subscription "sub-1")
      (gateway.request (.subscription "sub-1")) () := .plain (by decide +kernel) rfl
  have hanswered : Answered refusing () (gateway.request (.subscription "sub-1")) 403 refusal :=
    { sound := by decide +kernel
      reply := ⟨none, [refusal], (), rfl, fun _ h ↦ (nomatch h), List.append_nil _⟩
      small := by decide +kernel }
  refine ⟨hasks, hanswered, ?_, ?_, ?_, ?_⟩
  · exact hintact.reports.accounts _ _ _ _ _ _ _ hasks (fun _ h ↦ nomatch h) hanswered rfl
  · exact hintact.revoke admin "sub-1" _ behindGateway.world notAccepted (by decide +kernel)
  · refine ((hintact.keeps notAccepted).hinted _ _ _ _ _ _ termsHint rfl ?_).trans
      (by decide +kernel)
    exact ⟨rfl, by decide +kernel, rfl, rfl⟩
  · exact (hintact.keeps notAccepted).status 403 rfl

end Licensing.Service
