import Licensing.Proofs.Client.Failures

/-!
# What clients report of a refusal

A service refuses a request by the status of its answer, and what it says about that is in the body.
The clients report the status as it is. Of the accounts system they report an error object with a
code field by field (`States`), and of any other body an excerpt; without an answer that can be read
there is no status to report. `reports` says this of every network and every body.
-/

namespace Licensing.Client

open Utf8 (Bytes)
open Json (Document)

variable {σ : Type} {network : Network σ} {s s₁ : σ} {r : Request} {status : Nat} {body : Bytes}
  {e : RemoteError}

/-! ### Answers that are read -/

/-- A request is answered: it can be sent, and the body of the reply keeps within the limit. -/
structure Answered (network : Network σ) (s : σ) (r : Request) (status : Nat) (body : Bytes) :
    Prop where
  /-- Nothing is wrong with the request. -/
  sound : r.flaw? = none
  /-- The reply has the status and the body, in some chunks. A length that it declares keeps within
  the limit. -/
  reply : ∃ declared chunks s', network s r = (.ok ⟨status, declared, chunks, none⟩, s') ∧
    (∀ n, declared = some n → n ≤ maxReplyBytes) ∧ chunks.flatten = body
  /-- So does the body. -/
  small : body.length ≤ maxReplyBytes

/-- A request that is answered has its reply as it is: the status, and the body put together from
the chunks in which it came. -/
theorem fetch_of_answered (h : Answered network s r status body) (service : String) :
    (fetch network service s r).1 = .ok (status, body) := by
  obtain ⟨declared, chunks, s', hreply, hdeclared, rfl⟩ := h.reply
  have hread : readBody service maxReplyBytes (Failure.toRemote service r)
      ⟨status, declared, chunks, none⟩ = .ok chunks.flatten :=
    readBody_eq_ok_iff.2 ⟨hdeclared, h.small, rfl, rfl⟩
  simp only [fetch, h.sound, hreply, hread]
  rfl

/-! ### Excerpts -/

/-- Something is told of every body. -/
theorem excerpt_ne_empty (body : Bytes) : excerpt body ≠ "" := by
  rw [excerpt]
  split
  · decide
  · rename_i hne
    intro heq
    have htake := congrArg String.toList heq
    rw [String.toList_ofList, String.toList_empty, List.take_eq_nil_iff] at htake
    exact htake.elim (by decide) hne

/-- No more than so many characters are told of it. -/
theorem length_excerpt_le (body : Bytes) : (excerpt body).length ≤ maxExcerpt := by
  rw [excerpt]
  split
  · decide
  · rw [String.length_ofList, List.length_take]
    exact Nat.min_le_left _ _

/-! ### Errors that a body states -/

/-- A field that may be missing or null holds a text, or none. -/
inductive MayHold : Option Document → Option String → Prop where
  /-- The field is missing. -/
  | missing : MayHold none none
  /-- The field is null. -/
  | null : MayHold (some .null) none
  /-- The field is a text. -/
  | text {raw : Bytes} {t : String} (h : Json.textOf raw = some t) :
    MayHold (some (.text raw)) (some t)

/-- A body is an error object, or a list in place of one, with these fields. -/
def States (body : Bytes) (id code reason operation : Option String) : Prop :=
  ∃ d i c r o, Document.read body = some d ∧
    d.fields? ["id", "code", "reason", "operation_id"] = some [i, c, r, o] ∧
    MayHold i id ∧ MayHold c code ∧ MayHold r reason ∧ MayHold o operation

/-! ### Answers that cannot be read -/

/-- The failure of an answer that cannot be read. -/
def unreadable (service : String) : RemoteError :=
  .decode service "not a document of the expected form"

/-- A body that cannot be read is reported without a status, whatever the status of the reply was.
-/
theorem decodeBody_of_readAs_eq_none {α : Type} {value : Document → Option α}
    (h : Json.readAs value body = none) (service : String) :
    decodeBody service value body = .error (unreadable service) := by
  rw [decodeBody, h]
  rfl

namespace AccountsClient

/-! ### Errors of the accounts system -/

/-- A member that may be missing or null is read as the text it holds, or as none. -/
theorem maybeText_eq_some_iff {d : Option Document} {t : Option String} :
    maybeText d = some t ↔ MayHold d t := by
  constructor
  · intro h
    match d, h with
    | none, h =>
      obtain rfl := Option.some.inj h
      exact .missing
    | some .null, h =>
      obtain rfl := Option.some.inj h
      exact .null
    | some (.text raw), h =>
      obtain ⟨t, ht, rfl⟩ := Option.map_eq_some_iff.1 h
      exact .text ht
  · intro h
    cases h with
    | missing | null => rfl
    | text h => exact congrArg (Option.map some) h

/-- An error object is one with a code, and the error that is made of it has its fields one by one.
All other fields may be missing. -/
theorem statedError?_eq_some_iff {d : Document} : statedError? status d = some e ↔
    ∃ i c r o id code reason operation,
      d.fields? ["id", "code", "reason", "operation_id"] = some [i, c, r, o] ∧
      MayHold i id ∧ MayHold c (some code) ∧ MayHold r reason ∧ MayHold o operation ∧
      e = .api AccountsClient.service status code id operation (reason.getD "") := by
  constructor
  · intro h
    rw [statedError?] at h
    split at h
    · rename_i i c r o hfields
      simp only [Option.bind_eq_bind, Option.bind_eq_some_iff, Option.map_eq_some_iff] at h
      obtain ⟨id, hid, _, hcode, reason, hreason, operation, hoperation, code, rfl, rfl⟩ := h
      exact ⟨i, c, r, o, id, code, reason, operation, hfields, maybeText_eq_some_iff.1 hid,
        maybeText_eq_some_iff.1 hcode, maybeText_eq_some_iff.1 hreason,
        maybeText_eq_some_iff.1 hoperation, rfl⟩
    · exact absurd h (by simp)
  · rintro ⟨i, c, r, o, id, code, reason, operation, hfields, hid, hcode, hreason, hoperation, rfl⟩
    rw [← maybeText_eq_some_iff] at hid hcode hreason hoperation
    simp [statedError?, hfields, hid, hcode, hreason, hoperation]

/-- A body is read as an error exactly if it states one with a code. -/
theorem readAs_statedError?_eq_some_iff : Json.readAs (statedError? status) body = some e ↔
    ∃ id code reason operation, States body id (some code) reason operation ∧
      e = .api AccountsClient.service status code id operation (reason.getD "") := by
  rw [Json.readAs, Option.bind_eq_some_iff]
  constructor
  · rintro ⟨d, hd, hstated⟩
    obtain ⟨i, c, r, o, id, code, reason, operation, hfields, hid, hcode, hreason, hoperation,
      rfl⟩ := statedError?_eq_some_iff.1 hstated
    exact ⟨id, code, reason, operation,
      ⟨d, i, c, r, o, hd, hfields, hid, hcode, hreason, hoperation⟩, rfl⟩
  · rintro ⟨id, code, reason, operation,
      ⟨d, i, c, r, o, hd, hfields, hid, hcode, hreason, hoperation⟩, rfl⟩
    exact ⟨d, hd, statedError?_eq_some_iff.2
      ⟨i, c, r, o, id, code, reason, operation, hfields, hid, hcode, hreason, hoperation, rfl⟩⟩

/-- What a failure tells of the answer of the accounts system for which it is reported. -/
structure Tells (status : Nat) (body : Bytes) (e : RemoteError) : Prop where
  /-- Its status is that of the answer. -/
  observed : e.observedStatus = some status
  /-- It has a code exactly if the body states an error with a code, and then has its fields, with
  the empty text for a missing reason. -/
  api_iff : ∀ code id operation text,
    e = .api AccountsClient.service status code id operation text ↔
      ∃ reason, States body id (some code) reason operation ∧ text = reason.getD ""
  /-- Otherwise it has a short excerpt of the body, which is not empty. -/
  client : (∀ id code reason operation, ¬States body id (some code) reason operation) →
    e = .client AccountsClient.service status (excerpt body) ∧ excerpt body ≠ "" ∧
      (excerpt body).length ≤ 512

/-- **What is reported of a refusal by the accounts system**: an error object with a code by its
fields, and any other body by an excerpt. -/
theorem tells_apiError (status : Nat) (body : Bytes) :
    Tells status body (apiError status body) where
  observed := observedStatus_apiError status body
  api_iff code id operation text := by
    constructor
    · intro h
      have hread : Json.readAs (statedError? status) body =
          some (.api AccountsClient.service status code id operation text) := by
        rw [apiError] at h
        cases hread : Json.readAs (statedError? status) body with
        | none =>
          rw [hread] at h
          exact absurd h (by simp [statusError])
        | some e =>
          rw [hread] at h
          exact congrArg some h
      obtain ⟨_, _, reason, _, hstates, heq⟩ := readAs_statedError?_eq_some_iff.1 hread
      obtain ⟨-, -, rfl, rfl, rfl, rfl⟩ := RemoteError.api.inj heq
      exact ⟨reason, hstates, rfl⟩
    · rintro ⟨reason, hstates, rfl⟩
      have hread : Json.readAs (statedError? status) body =
          some (.api AccountsClient.service status code id operation (reason.getD "")) :=
        readAs_statedError?_eq_some_iff.2 ⟨id, code, reason, operation, hstates, rfl⟩
      rw [apiError, hread]
      rfl
  client h := by
    have hread : Json.readAs (statedError? status) body = none := by
      refine Option.eq_none_iff_forall_ne_some.2 fun e he ↦ ?_
      obtain ⟨id, code, reason, operation, hstates, -⟩ := readAs_statedError?_eq_some_iff.1 he
      exact h id code reason operation hstates
    refine ⟨?_, excerpt_ne_empty body, length_excerpt_le body⟩
    rw [apiError, hread]
    rfl

/-! ### Requests for an answer -/

variable {c : AccountsClient} {call : SeatCall} {credentials : Credentials} {url : Url}

/-- The request that a client sends to ask a question, with a token if it has credentials, and the
state of the network by then. -/
inductive Asks (network : Network σ) (c : AccountsClient) (s : σ) (call : SeatCall) :
    Request → σ → Prop where
  /-- The client has no credentials. -/
  | plain {c₁ : AccountsClient} {s₁ : σ} (hr : refused? call = none)
    (hb : c.bearer network s = (.ok none, c₁, s₁)) : Asks network c s call (c.request call) s₁
  /-- The client has a token. -/
  | bearing {c₁ : AccountsClient} {s₁ : σ} {k : Nat} {token : String} (hr : refused? call = none)
    (hb : c.bearer network s = (.ok (some (k, token)), c₁, s₁)) :
    Asks network c s call ((c.request call).withToken token) s₁

/-- What comes of the request comes of the question. -/
theorem ask_eq_of_asks (h : Asks network c s call r s₁) : (c.ask network s call).1 =
    (fetch network service s₁ r).1.bind fun answer ↦ understand answer.1 answer.2 call := by
  cases h with
  | plain hr hb =>
    rcases hfetch : fetch network service s₁ (c.request call) with ⟨e | ⟨status, body⟩, s₂⟩ <;>
      simp only [ask, hr, send, hb, hfetch] <;> rfl
  | @bearing c₁ _ k token hr hb =>
    rcases hfetch : fetch network service s₁ ((c.request call).withToken token) with
      ⟨e | ⟨status, body⟩, s₂⟩ <;>
      rw [Request.withToken] at hfetch <;> simp only [ask, hr, send, hb, hfetch] <;> rfl

/-- What a client that asks is answered is what it understands of the reply. -/
theorem ask_of_answered (h : Asks network c s call r s₁) (ha : Answered network s₁ r status body) :
    (c.ask network s call).1 = understand status body call := by
  rw [ask_eq_of_asks h, fetch_of_answered ha]
  rfl

/-- A client that asks and is not answered fails with what kept the reply away. -/
theorem ask_of_unanswered (h : Asks network c s call r s₁)
    (he : (fetch network service s₁ r).1 = .error e) : (c.ask network s call).1 = .error e := by
  rw [ask_eq_of_asks h, he]
  rfl

/-! ### Requests for a token -/

/-- A client asks for a token before it asks a question: it has credentials, nobody else asks for a
token, and none is kept that is still to be used. -/
structure AsksForToken (c : AccountsClient) (credentials : Credentials) (url : Url) : Prop where
  /-- The credentials. -/
  credentials_eq : c.credentials = some credentials
  /-- The URL where tokens are granted. -/
  url_eq : Url.parse credentials.tokenUrl = .ok url
  /-- Nobody holds the lock. -/
  free : c.access.holder = none
  /-- Nobody waits for it. -/
  alone : c.access.queue = []
  /-- There is no token to be used. -/
  stale : c.access.fresh? = none

/-- The request for a token goes to the URL of the credentials, and what comes back is read as a
grant. -/
theorem fetchGrant_eq (hurl : Url.parse credentials.tokenUrl = .ok url) :
    (fetchGrant network credentials s).1 =
      (fetch network service s (tokenRequest credentials url)).1.bind fun answer ↦
        understandGrant answer.1 answer.2 := by
  rcases hfetch : fetch network service s (tokenRequest credentials url) with
    ⟨e | ⟨status, body⟩, s₂⟩ <;> simp only [fetchGrant, hurl, hfetch] <;> rfl

/-- Without a token the question fails. -/
theorem ask_of_fetchGrant (h : AsksForToken c credentials url) (hr : refused? call = none)
    (he : (fetchGrant network credentials s).1 = .error e) :
    (c.ask network s call).1 = .error e := by
  rcases hgrant : fetchGrant network credentials s with ⟨o, s₂⟩
  rw [hgrant] at he
  obtain rfl : o = .error e := he
  have hbearer := bearer_of_refused h.credentials_eq h.free h.alone h.stale hgrant
  simp only [ask, hr, send_of_bearer_error hbearer, Stop.notice]

/-- A call whose request for a token is answered by no grant fails with what the answer says, before
it has sent anything else. -/
theorem ask_of_answered_token (h : AsksForToken c credentials url) (hr : refused? call = none)
    (ha : Answered network s (tokenRequest credentials url) status body)
    (he : understandGrant status body = .error e) : (c.ask network s call).1 = .error e := by
  refine ask_of_fetchGrant h hr ?_
  rw [fetchGrant_eq h.url_eq, fetch_of_answered ha]
  exact he

/-- So does a call whose request for a token is not answered. -/
theorem ask_of_unanswered_token (h : AsksForToken c credentials url) (hr : refused? call = none)
    (he : (fetch network service s (tokenRequest credentials url)).1 = .error e) :
    (c.ask network s call).1 = .error e := by
  refine ask_of_fetchGrant h hr ?_
  rw [fetchGrant_eq h.url_eq, he]
  rfl

/-- However many calls there are, one whose request for a token fails has failed with it, and does
nothing more. -/
theorem phase?_of_receive_error {m m' m'' : Access.Machine} {es es' : List Access.Event} {k : Nat}
    (h : Access.Machine.start.run es = some m)
    (hs : m.step (.move k (.receive (.error e))) = some m') (h' : m'.run es' = some m'') :
    m''.phase? k = some (.failed e) ∧ ∀ mv, .move k mv ∉ es' := by
  have hlocked := Access.Machine.locked_of_run h
  have hrun : Access.Machine.start.run (es ++ [.move k (.receive (.error e))]) = some m' :=
    Access.Machine.run_concat_iff.2 ⟨m, h, hs⟩
  have hstep := Access.Machine.step_of_step hs
  obtain ⟨p, hp⟩ : ∃ p, m.phase? k = some p := by
    cases hstep with
    | fail hp => exact ⟨_, hp⟩
  obtain ⟨p', hp', ⟨mv, heq, ht⟩ | ⟨hne, -⟩⟩ :=
    Access.Machine.exists_phase_of_step hlocked hstep hp
  · obtain ⟨-, rfl⟩ := Access.Event.move.inj heq
    obtain rfl : p' = .failed e := by
      cases ht with
      | fail => rfl
    exact Access.Machine.phase?_of_isOver hrun hp' rfl h'
  · exact absurd rfl (hne _)

/-! ### Answers to questions that cannot be read -/

/-- The body of an answer to a question has to be read, and cannot be. -/
def Unreadable (body : Bytes) : SeatCall → Prop
  | .quotaCost .. => Json.readAs (items? quota?) body = none
  | .subscriptions _ => Json.readAs (items? subscription?) body = none
  | .subscription _ => Json.readAs subscription? body = none
  | .authorize _ => Json.readAs authorization? body = none
  | .convertOrg _ => Json.readAs (items? id?) body = none
  | .deleteSubscription _ | .user _ => False

/-- A success whose body cannot be read is a failure without a status. -/
theorem understand_of_unreadable (hs : isSuccess status = true) (h : Unreadable body call) :
    understand status body call = .error (unreadable service) := by
  rw [understand_of_isSuccess hs]
  cases call with
  | deleteSubscription | user => exact absurd h id
  | quotaCost => exact congrArg (Except.map List.head?) (decodeBody_of_readAs_eq_none h service)
  | convertOrg org =>
    refine (congrArg (Except.bind · _) (decodeBody_of_readAs_eq_none h service)).trans ?_
    rfl
  | subscriptions | subscription | authorize => exact decodeBody_of_readAs_eq_none h service

end AccountsClient

/-! ### The user directory -/

namespace DirectoryClient

variable {c : DirectoryClient} {username : String}

/-- What comes of the request comes of the question. -/
theorem ask_eq (network : Network σ) (c : DirectoryClient) (s : σ) (username : String) :
    (c.ask network s username).1 =
      (fetch network service s (c.request username)).1.bind fun answer ↦
        understand username answer.1 answer.2 := by
  rcases hfetch : fetch network service s (c.request username) with ⟨e | ⟨status, body⟩, s₂⟩ <;>
    simp only [ask, hfetch] <;> rfl

/-- What a user directory that is asked answers is what the client understands of the reply. -/
theorem ask_of_answered (h : Answered network s (c.request username) status body) :
    (c.ask network s username).1 = understand username status body := by
  rw [ask_eq, fetch_of_answered h]
  rfl

/-- A user directory that does not answer makes the call fail with what kept the reply away. -/
theorem ask_of_unanswered (he : (fetch network service s (c.request username)).1 = .error e) :
    (c.ask network s username).1 = .error e := by
  rw [ask_eq, he]
  rfl

/-- Of a refusal by the directory its status is reported, and an excerpt of what it says. -/
theorem understand_of_not_isSuccess (hs : isSuccess status = false) :
    understand username status body = .error (.directory status (excerpt body)) := by
  rw [understand, hs]
  rfl

/-- A success of the directory whose body cannot be read is a failure without a status. -/
theorem understand_of_unreadable (hs : isSuccess status = true)
    (h : Json.readAs (Document.list? user?) body = none) :
    understand username status body = .error (unreadable service) := by
  rw [understand, hs, decodeBody_of_readAs_eq_none h]
  rfl

end DirectoryClient

/-! ### The main statement -/

/-- What the clients report of the answers that they get, and of those that they do not. -/
structure Reports (network : Network σ) : Prop where
  /-- A question that the accounts system refuses fails, and the failure tells of the answer. -/
  accounts : ∀ (c : AccountsClient) (s s₁ : σ) (call : SeatCall) (r : Request) (status : Nat)
    (body : Bytes), AccountsClient.Asks network c s call r s₁ →
      (∀ username, call ≠ .user username) → Answered network s₁ r status body →
      isSuccess status = false →
        ∃ e, (c.ask network s call).1 = .error e ∧ AccountsClient.Tells status body e
  /-- So does one for which it refuses a token, with the status of this answer. -/
  token : ∀ (c : AccountsClient) (credentials : Credentials) (url : Url) (s : σ) (call : SeatCall)
    (status : Nat) (body : Bytes), AccountsClient.AsksForToken c credentials url →
      AccountsClient.refused? call = none →
      Answered network s (AccountsClient.tokenRequest credentials url) status body →
      isSuccess status = false → (c.ask network s call).1 =
        .error (.client AccountsClient.service status (excerpt body))
  /-- Of many calls each whose own request for a token fails has failed with that, for good. -/
  token_shared : ∀ (es es' : List Access.Event) (m m' m'' : Access.Machine) (k : Nat)
    (e : RemoteError), Access.Machine.start.run es = some m →
      m.step (.move k (.receive (.error e))) = some m' → m'.run es' = some m'' →
        m''.phase? k = some (.failed e) ∧ ∀ mv, .move k mv ∉ es'
  /-- A question that the user directory refuses fails with its status. -/
  directory : ∀ (c : DirectoryClient) (s : σ) (username : String) (status : Nat) (body : Bytes),
    Answered network s (c.request username) status body → isSuccess status = false →
      (c.ask network s username).1 = .error (.directory status (excerpt body))
  /-- An answer that has to be read and cannot be has no status. -/
  unreadable : ∀ (c : AccountsClient) (s s₁ : σ) (call : SeatCall) (r : Request) (status : Nat)
    (body : Bytes), AccountsClient.Asks network c s call r s₁ →
      Answered network s₁ r status body → isSuccess status = true →
      AccountsClient.Unreadable body call →
        ∃ e, (c.ask network s call).1 = .error e ∧ e.observedStatus = none
  /-- Neither has one with a token. -/
  unreadable_token : ∀ (c : AccountsClient) (credentials : Credentials) (url : Url) (s : σ)
    (call : SeatCall) (status : Nat) (body : Bytes),
      AccountsClient.AsksForToken c credentials url → AccountsClient.refused? call = none →
      Answered network s (AccountsClient.tokenRequest credentials url) status body →
      isSuccess status = true → Json.readAs AccountsClient.grant? body = none →
        ∃ e, (c.ask network s call).1 = .error e ∧ e.observedStatus = none
  /-- Neither has one of the user directory. -/
  unreadable_directory : ∀ (c : DirectoryClient) (s : σ) (username : String) (status : Nat)
    (body : Bytes), Answered network s (c.request username) status body →
      isSuccess status = true → Json.readAs (Document.list? DirectoryClient.user?) body = none →
        ∃ e, (c.ask network s username).1 = .error e ∧ e.observedStatus = none
  /-- A request for which no answer is read fails without a status. -/
  unanswered : ∀ (c : AccountsClient) (s s₁ : σ) (call : SeatCall) (r : Request) (e : RemoteError),
    AccountsClient.Asks network c s call r s₁ →
      (fetch network AccountsClient.service s₁ r).1 = .error e →
        (c.ask network s call).1 = .error e ∧ e.observedStatus = none
  /-- So does one for a token. -/
  unanswered_token : ∀ (c : AccountsClient) (credentials : Credentials) (url : Url) (s : σ)
    (call : SeatCall) (e : RemoteError), AccountsClient.AsksForToken c credentials url →
      AccountsClient.refused? call = none →
      (fetch network AccountsClient.service s
        (AccountsClient.tokenRequest credentials url)).1 = .error e →
        (c.ask network s call).1 = .error e ∧ e.observedStatus = none
  /-- So does one about a user. -/
  unanswered_directory : ∀ (c : DirectoryClient) (s : σ) (username : String) (e : RemoteError),
    (fetch network DirectoryClient.service s (c.request username)).1 = .error e →
      (c.ask network s username).1 = .error e ∧ e.observedStatus = none

/-- **The clients report a refusal by its status**, and what cannot be read or did not come without
one, whatever the network does. -/
theorem reports (network : Network σ) : Reports network where
  accounts c s s₁ call r status body hasks hcall ha hs :=
    ⟨_, (AccountsClient.ask_of_answered hasks ha).trans
      (AccountsClient.understand_of_not_isSuccess hs hcall), AccountsClient.tells_apiError _ _⟩
  token c credentials url s call status body h hr ha hs := by
    refine AccountsClient.ask_of_answered_token h hr ha ?_
    rw [AccountsClient.understandGrant, hs]
    rfl
  token_shared es es' m m' m'' k e h hs h' := AccountsClient.phase?_of_receive_error h hs h'
  directory c s username status body ha hs :=
    (DirectoryClient.ask_of_answered ha).trans (DirectoryClient.understand_of_not_isSuccess hs)
  unreadable c s s₁ call r status body hasks ha hs hbody :=
    ⟨_, (AccountsClient.ask_of_answered hasks ha).trans
      (AccountsClient.understand_of_unreadable hs hbody), rfl⟩
  unreadable_token c credentials url s call status body h hr ha hs hbody := by
    refine ⟨unreadable AccountsClient.service,
      AccountsClient.ask_of_answered_token h hr ha ?_, rfl⟩
    rw [AccountsClient.understandGrant, if_pos hs, decodeBody_of_readAs_eq_none hbody]
  unreadable_directory c s username status body ha hs hbody :=
    ⟨_, (DirectoryClient.ask_of_answered ha).trans
      (DirectoryClient.understand_of_unreadable hs hbody), rfl⟩
  unanswered c s s₁ call r e hasks he :=
    ⟨AccountsClient.ask_of_unanswered hasks he, observedStatus_fetch he⟩
  unanswered_token c credentials url s call e h hr he :=
    ⟨AccountsClient.ask_of_unanswered_token h hr he, observedStatus_fetch he⟩
  unanswered_directory c s username e he :=
    ⟨DirectoryClient.ask_of_unanswered he, observedStatus_fetch he⟩

end Licensing.Client
