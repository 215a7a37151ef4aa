import Licensing.Client.Directory
import Licensing.Proofs.Client.Reading
import Licensing.Proofs.Client.Tokens

/-!
# No failure has the status of a success

The clients tell the answer of a service from its failure by the status alone. What they report as
a failure has therefore no status, or one that is none of a success (`RemoteError.Unsuccessful`),
whatever the network does.
-/

namespace Licensing

open Client (isSuccess)

/-- A failure that has no status, or one that is none of a success. -/
def RemoteError.Unsuccessful (e : RemoteError) : Prop :=
  ∀ n, e.observedStatus = some n → isSuccess n = false

/-- A failure without a status is not the report of a success. -/
theorem RemoteError.unsuccessful_of_none {e : RemoteError} (h : e.observedStatus = none) :
    e.Unsuccessful := by
  intro n hn
  exact absurd (h.symm.trans hn) (by simp)

/-- Neither is a failure with a status that is none of success. -/
theorem RemoteError.unsuccessful_of_some {e : RemoteError} {n : Nat}
    (h : e.observedStatus = some n) (hn : isSuccess n = false) : e.Unsuccessful := by
  intro n' hn'
  obtain rfl := Option.some.inj (h.symm.trans hn')
  exact hn

namespace Client

open RemoteError (Unsuccessful unsuccessful_of_none unsuccessful_of_some)
open Utf8 (Bytes)

variable {σ α : Type} {network : Network σ} {s : σ} {r : Request} {status : Nat} {body : Bytes}
  {e : RemoteError}

/-! ### Requests without an answer -/

section Fetch

variable {service : String}

/-- A body that could not be read has no status. -/
theorem observedStatus_readBody {limit : Nat} {onFailure : Failure → RemoteError}
    (hf : ∀ f, (onFailure f).observedStatus = none) {reply : Reply}
    (h : readBody service limit onFailure reply = .error e) : e.observedStatus = none := by
  rw [readBody_eq] at h
  split at h
  · obtain rfl := Except.error.inj h
    rfl
  · cases hfailure : reply.failure with
    | none => exact absurd h (by simp [hfailure])
    | some f =>
      rw [hfailure] at h
      obtain rfl := Except.error.inj h
      exact hf f

/-- A failure of the network itself comes without a status. -/
theorem observedStatus_toRemote (f : Failure) : (f.toRemote service r).observedStatus = none := by
  cases f <;> rfl

/-- A request that gets no answer has no status. -/
theorem observedStatus_fetch (h : (fetch network service s r).1 = .error e) :
    e.observedStatus = none := by
  rw [fetch] at h
  split at h
  · obtain rfl := Except.error.inj h
    rfl
  split at h
  · obtain rfl := Except.error.inj h
    exact observedStatus_toRemote _
  · rename_i reply s₁ hreply
    cases hbody : readBody service maxReplyBytes (Failure.toRemote service r) reply with
    | error e' =>
      rw [hbody] at h
      obtain rfl := Except.error.inj h
      exact observedStatus_readBody (fun f ↦ observedStatus_toRemote f) hbody
    | ok bytes =>
      rw [hbody] at h
      exact absurd h (by simp [Except.map])

/-- A body that cannot be read is a failure without a status. -/
theorem observedStatus_decodeBody {value : Json.Document → Option α}
    (h : decodeBody service value body = .error e) : e.observedStatus = none := by
  rw [decodeBody] at h
  split at h
  · exact absurd h (by simp)
  · obtain rfl := Except.error.inj h
    rfl

end Fetch

/-! ### Calls that failed -/

namespace Access.Machine

variable {m m' : Machine} {ev : Event} {es : List Event} {j k : Nat} {p : Phase}
  {err : RemoteError}

/-- A call has failed in another phase only if it was in this phase before, or it was put into it.
-/
theorem failed_of_setPhase {calls : List Phase} (hcalls : calls = m.calls)
    (h : (calls.set k p)[j]? = some (.failed err)) :
    m.phase? j = some (.failed err) ∨ k = j ∧ p = .failed err := by
  subst hcalls
  rw [List.getElem?_set] at h
  split at h
  · split at h
    · exact .inr ⟨‹_›, Option.some.inj h⟩
    · exact absurd h (by simp)
  · exact .inl h

/-- So it is when a call leaves the lock, which hands it to another call but does not make this one
fail. -/
theorem failed_of_leave {m₁ : Machine} (hcalls : m₁.calls = m.calls)
    (h : (m₁.leave k p).phase? j = some (.failed err)) :
    m.phase? j = some (.failed err) ∨ k = j ∧ p = .failed err := by
  rcases hq : m₁.queue with _ | ⟨next, rest⟩
  · rw [leave_of_nil hq] at h
    exact failed_of_setPhase hcalls h
  · rw [leave_of_cons hq, phase?_setPhase] at h
    split at h
    · split at h <;> exact absurd h (by simp)
    · exact failed_of_setPhase hcalls h

/-- A call fails only with the failure to get a token. -/
theorem failed_of_step (hs : Step m ev m') (h : m'.phase? j = some (.failed err)) :
    m.phase? j = some (.failed err) ∨ ev = .move j (.receive (.error err)) := by
  have hset : ∀ {calls : List Phase} {k : Nat} {p : Phase}, calls = m.calls →
      p ≠ .failed err → (calls.set k p)[j]? = some (.failed err) →
      m.phase? j = some (.failed err) :=
    fun hcalls hp h ↦ (failed_of_setPhase hcalls h).resolve_right fun heq ↦ hp heq.2
  have hleave : ∀ {m₁ : Machine} {k : Nat} {p : Phase}, m₁.calls = m.calls →
      p ≠ .failed err → (m₁.leave k p).phase? j = some (.failed err) →
      m.phase? j = some (.failed err) :=
    fun hcalls hp h ↦ (failed_of_leave hcalls h).resolve_right fun heq ↦ hp heq.2
  cases hs with
  | call =>
    have h : (m.calls ++ [.entering])[j]? = some (.failed err) := h
    rw [List.getElem?_append] at h
    split at h
    · exact .inl h
    · obtain ⟨hlt, h⟩ := List.getElem?_eq_some_iff.1 h
      exact absurd h (by simp)
  | tick ms => exact .inl h
  | fail hp err' =>
    rcases failed_of_leave rfl h with h | ⟨rfl, heq⟩
    · exact .inl h
    · obtain rfl := Phase.failed.inj heq
      exact .inr rfl
  | reuse | overflow | abandon => exact .inl (hleave rfl (by simp) h)
  | renew => refine .inl (hleave ?_ ?_ h) <;> simp
  | take | wait | request | send | reply | withdraw | resign =>
    exact .inl (hset rfl (by simp) h)

/-- A call that has failed at the end of a run had failed before, or its request for a token failed
with this. -/
theorem failed_of_run (hrun : m.run es = some m') (h : m'.phase? j = some (.failed err)) :
    m.phase? j = some (.failed err) ∨ .move j (.receive (.error err)) ∈ es := by
  refine run_induction (P := fun es m' ↦ m'.phase? j = some (.failed err) →
    m.phase? j = some (.failed err) ∨ .move j (.receive (.error err)) ∈ es) .inl ?_ hrun h
  intro es ev m₁ m₂ _ ih hs h
  rcases failed_of_step hs h with h | rfl
  · exact (ih h).imp_right (List.mem_append_left _)
  · exact .inr (List.mem_concat_self)

/-- A call that has only looked at the token has not failed. -/
theorem phase?_enter : m.enter.2.phase? m.enter.1 ≠ some (.failed err) := by
  have hnone : m.phase? m.calls.length = none := List.getElem?_eq_none (Nat.le_refl _)
  intro h
  have h : ((m.run m.looking).getD m).phase? m.calls.length = some (.failed err) := h
  rcases hrun : m.run m.looking with _ | m'
  · rw [hrun, Option.getD_none, hnone] at h
    exact absurd h (by simp)
  · rw [hrun, Option.getD_some] at h
    rcases failed_of_run hrun h with h | hmem
    · exact absurd (hnone.symm.trans h) (by simp)
    · simp [looking] at hmem

/-- A call that fails when its token should come has this failure from it. -/
theorem outcome_of_poke {outcome : Except RemoteError Grant}
    (hk : m.phase? k ≠ some (.failed err))
    (h : (m.poke k (.receive outcome)).phase? k = some (.failed err)) : outcome = .error err := by
  rw [poke] at h
  rcases hs : m.step (.move k (.receive outcome)) with _ | m'
  · rw [hs] at h
    exact absurd h hk
  · rw [hs] at h
    simpa using (failed_of_step (step_of_step hs) h).resolve_left hk

end Access.Machine

/-! ### The accounts system -/

namespace AccountsClient

open Access (Machine)

variable {c : AccountsClient} {call : SeatCall}

/-- An error object is reported with the status of the reply. -/
theorem observedStatus_of_statedError? {d : Json.Document}
    (h : statedError? status d = some e) : e.observedStatus = some status := by
  rw [statedError?] at h
  split at h
  · simp only [Option.bind_eq_bind, Option.bind_eq_some_iff, Option.map_eq_some_iff] at h
    obtain ⟨_, -, _, -, _, -, _, -, _, -, rfl⟩ := h
    rfl
  · exact absurd h (by simp)

/-- Whatever the body says, the failure has the status of the reply. -/
theorem observedStatus_apiError (status : Nat) (body : Bytes) :
    (apiError status body).observedStatus = some status := by
  rw [apiError]
  rcases h : Json.readAs (statedError? status) body with _ | e
  · rfl
  · obtain ⟨d, -, hd⟩ := Option.bind_eq_some_iff.1 h
    exact observedStatus_of_statedError? hd

/-- A reply with the status of an error is the failure that it states. -/
theorem understand_of_not_isSuccess (hs : isSuccess status = false)
    (hc : ∀ username, call ≠ .user username) :
    understand status body call = .error (apiError status body) := by
  match call with
  | .user username => exact absurd rfl (hc username)
  | .quotaCost .. | .subscriptions _ | .subscription _ | .deleteSubscription _ | .authorize _
  | .convertOrg _ =>
    simp only [understand, hs]
    rfl

/-- A reply with the status of a success is what its body says. -/
theorem understand_of_isSuccess (hs : isSuccess status = true) :
    understand status body call = match call with
      | .quotaCost .. => (decodeBody service (items? quota?) body).map List.head?
      | .subscriptions _ => decodeBody service (items? subscription?) body
      | .subscription _ => decodeBody service subscription? body
      | .deleteSubscription _ => .ok ()
      | .authorize _ => decodeBody service authorization? body
      | .convertOrg org => (decodeBody service (items? id?) body).bind fun ids ↦
        match ids.head? with
        | some id => .ok id
        | none => .error (orgNotFound org)
      | .user username => .error (.directory 404 ("user '" ++ username ++ "' not found")) := by
  cases call <;> simp only [understand, hs] <;> rfl

/-- A reply is understood as a failure because of its status, because it cannot be read, or because
it names no organization. -/
theorem unsuccessful_of_understand (h : understand status body call = .error e) :
    e.Unsuccessful := by
  have hread : ∀ {β : Type} {value : Json.Document → Option β} {e : RemoteError},
      decodeBody service value body = .error e → e.Unsuccessful :=
    fun h ↦ unsuccessful_of_none (observedStatus_decodeBody h)
  rcases hs : isSuccess status with _ | _
  · match call with
    | .user username =>
      obtain rfl := Except.error.inj h
      exact unsuccessful_of_some rfl rfl
    | .quotaCost .. | .subscriptions _ | .subscription _ | .deleteSubscription _ | .authorize _
    | .convertOrg _ =>
      rw [understand_of_not_isSuccess hs (by simp)] at h
      obtain rfl := Except.error.inj h
      exact unsuccessful_of_some (observedStatus_apiError status body) hs
  · rw [understand_of_isSuccess hs] at h
    match call with
    | .user username =>
      obtain rfl := Except.error.inj h
      exact unsuccessful_of_some rfl rfl
    | .subscriptions _ | .subscription _ | .authorize _ => exact hread h
    | .deleteSubscription _ => exact absurd h (by simp)
    | .quotaCost .. =>
      rcases hd : decodeBody service (items? quota?) body with e' | quotas <;>
        simp only [hd, Except.map, reduceCtorEq] at h
      obtain rfl := Except.error.inj h
      exact hread hd
    | .convertOrg org =>
      rcases hd : decodeBody service (items? id?) body with e' | ids <;>
        simp only [hd, Except.bind] at h
      · obtain rfl := Except.error.inj h
        exact hread hd
      · split at h
        · exact absurd h (by simp)
        · obtain rfl := Except.error.inj h
          exact unsuccessful_of_some rfl rfl

/-! ### Access tokens -/

/-- A request for a token fails with no report of a success. -/
theorem unsuccessful_of_fetchGrant {credentials : Credentials}
    (h : (fetchGrant network credentials s).1 = .error e) : e.Unsuccessful := by
  rw [fetchGrant] at h
  split at h
  · obtain rfl := Except.error.inj h
    exact unsuccessful_of_none rfl
  rename_i url hurl
  rcases hfetch : fetch network service s (tokenRequest credentials url) with
    ⟨e' | ⟨status, body⟩, s₁⟩
  · rw [hfetch] at h
    obtain rfl := Except.error.inj h
    exact unsuccessful_of_none (observedStatus_fetch (congrArg Prod.fst hfetch))
  · rw [hfetch] at h
    have h : understandGrant status body = .error e := h
    rw [understandGrant] at h
    split at h
    · exact unsuccessful_of_none (observedStatus_decodeBody h)
    · obtain rfl := Except.error.inj h
      exact unsuccessful_of_some rfl (eq_false_of_ne_true ‹_›)

/-- A call without a token was refused one, or its token cannot be kept. -/
theorem unsuccessful_of_bearer {stop : Stop} (h : (c.bearer network s).1 = .error stop) :
    stop.notice.Unsuccessful := by
  rw [bearer] at h
  split at h
  · exact absurd h (by simp)
  rename_i credentials hc
  rcases henter : c.access.enter with ⟨call, access⟩
  have hnot : ∀ err, access.phase? call ≠ some (.failed err) := fun err ↦ by
    have h : c.access.enter.2.phase? c.access.enter.1 ≠ some (.failed err) := Machine.phase?_enter
    rwa [henter] at h
  rw [henter] at h
  dsimp only at h
  split at h
  · exact absurd h (by simp)
  · rename_i err hfailed
    obtain rfl := Except.error.inj h
    split at hfailed
    · exact unsuccessful_of_fetchGrant (Machine.outcome_of_poke (hnot err) hfailed)
    · exact absurd hfailed (hnot err)
  · obtain rfl := Except.error.inj h
    exact unsuccessful_of_none rfl

/-- A request that is sent and has no reply stops its call with the failure of the service. -/
theorem unsuccessful_of_mapError {stop : Stop}
    (h : (fetch network service s r).1.mapError .failed = .error stop) :
    stop.notice.Unsuccessful := by
  cases hfetch : (fetch network service s r).1 with
  | ok reply =>
    rw [hfetch] at h
    cases h
  | error e =>
    rw [hfetch] at h
    obtain rfl := Except.error.inj h
    exact unsuccessful_of_none (observedStatus_fetch hfetch)

/-- Neither does any other request: what the caller is told of it reports no success. -/
theorem unsuccessful_of_send {stop : Stop} (h : (c.send network s r).1 = .error stop) :
    stop.notice.Unsuccessful := by
  rcases hb : c.bearer network s with ⟨err | _ | ⟨call, token⟩, c₁, s₁⟩ <;>
    simp only [send, hb] at h
  · obtain rfl := Except.error.inj h
    exact unsuccessful_of_bearer (congrArg Prod.fst hb)
  · exact unsuccessful_of_mapError h
  · exact unsuccessful_of_mapError h

/-- A question that is refused without a request is refused with the status of an error. -/
theorem unsuccessful_of_refused? (h : refused? call = some e) : e.Unsuccessful := by
  unfold refused? at h
  split at h
  · split at h
    · obtain rfl := Option.some.inj h
      exact unsuccessful_of_some rfl rfl
    · exact absurd h (by simp)
  · exact absurd h (by simp)

/-- **What the accounts system is reported to have failed with** has not the status of a
success. -/
theorem unsuccessful_of_ask (h : (c.ask network s call).1 = .error e) : e.Unsuccessful := by
  rw [ask] at h
  split at h
  · obtain rfl := Except.error.inj h
    exact unsuccessful_of_refused? ‹_›
  rcases hsend : c.send network s (c.request call) with ⟨err | ⟨status, body⟩, c₁, s₁⟩ <;>
    rw [hsend] at h
  · obtain rfl := Except.error.inj h
    exact unsuccessful_of_send (congrArg Prod.fst hsend)
  · exact unsuccessful_of_understand h

end AccountsClient

/-! ### The user directory -/

namespace DirectoryClient

/-- **What the user directory is reported to have failed with** has not the status of a success. -/
theorem unsuccessful_of_ask {c : DirectoryClient} {username : String}
    (h : (c.ask network s username).1 = .error e) : e.Unsuccessful := by
  rw [ask] at h
  rcases hfetch : fetch network service s (c.request username) with ⟨err | ⟨status, body⟩, s₁⟩ <;>
    rw [hfetch] at h
  · obtain rfl := Except.error.inj h
    exact unsuccessful_of_none (observedStatus_fetch (congrArg Prod.fst hfetch))
  have h : understand username status body = .error e := h
  rcases hs : isSuccess status with _ | _ <;> simp only [understand, hs] at h
  · obtain rfl := Except.error.inj h
    exact unsuccessful_of_some rfl hs
  rcases hd : decodeBody service (Json.Document.list? user?) body with err | users <;>
    simp only [hd] at h
  · obtain rfl := Except.error.inj h
    exact unsuccessful_of_none (observedStatus_decodeBody hd)
  rcases users with _ | ⟨u, users⟩
  · obtain rfl := Except.error.inj h
    exact unsuccessful_of_some rfl rfl
  · have h : Except.ok u = Except.error e := h
    exact absurd h (by simp)

end DirectoryClient

end Client

end Licensing
