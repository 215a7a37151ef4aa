import Licensing.Client.Features
import Licensing.Proofs.Client.Refusals
import Licensing.Proofs.Service.Traffic
import Licensing.Proofs.Text.Decimal

/-!
# Decisions without features are flagged

When the last request about an organization failed, its features are not known, and an answer that
rests on this is flagged with the status of the failure. An organization without features looks the
same in the decisions, but is never flagged (`flags_evaluationResponse`). Whatever requests are
served at the same time, the answer to each of them is flagged exactly when the last request about
the organization of its caller to have come back by its lookup failed (`flags_of_run`). A request
fails when there is no reply, when its status is not one of success, and when its body cannot be
read (`fetch_of_refused`, `fetch_of_unreadable`).
-/

namespace Licensing.Service

open Cache (Lookup Machine Outcome)

variable {r : Registry} {i : Identity} {filter : BundleFilter} {o : Outcome} {l : Lookup}
  {e : RemoteError}

/-! ### Decisions without features -/

/-- The status that a failure is flagged with: its own, if that is the status of an error. -/
def FailsWith (e : RemoteError) (status : Nat) : Prop :=
  (400 ≤ status ∧ e.observedStatus = some status) ∨
    (status = 503 ∧ ∀ observed, e.observedStatus = some observed → observed < 400)

/-- The decisions that follow from the outcome of a request to the feature service. -/
structure Decides (r : Registry) (i : Identity) (filter : BundleFilter) (o : Outcome)
    (ds : OrderedMap Decision) : Prop where
  /-- There is one for each bundle of the registry that the filter lets through. -/
  isSome_iff : ∀ name, (ds.get? name).isSome = true ↔
    (r.get? name).isSome = true ∧ filter.admits name = true
  /-- When the features are known, they are made with these. -/
  known : ∀ s, o = .ok s → ds = evaluateBundles i filter r s false
  /-- When they are not, nobody is entitled to a bundle that depends on them. -/
  denied : ∀ e, o = .error e → ∀ name b, r.get? name = some b → filter.admits name = true →
    b.isSkuBased = true → ds.get? name = some ⟨false, false⟩
  /-- The other bundles are decided as they are with whatever features there may be. -/
  kept : ∀ e, o = .error e → ∀ name b, r.get? name = some b → b.isSkuBased = false →
    ∀ s, ds.get? name = (evaluateBundles i filter r s false).get? name

theorem degraded_of_tells_error (h : l.Tells (.error e)) : l.degraded = true := by
  have hstatus : 400 ≤ l.status := by
    rcases h.2 with ⟨hle, -⟩ | ⟨heq, -⟩
    · exact hle
    · omega
  exact decide_eq_true hstatus

theorem degraded_of_tells_ok {s : Snapshot} (h : l.Tells (.ok s)) : l.degraded = false := by
  simp [Lookup.degraded, Cache.firstErrorStatus, h.2]

/-- The status that an answer of the cache tells is the one that its failure is flagged with. -/
theorem failsWith_status (h : l.Tells (.error e)) : FailsWith e l.status :=
  h.2

theorem FailsWith.unique {status status' : Nat} (h : FailsWith e status)
    (h' : FailsWith e status') : status = status' := by
  rcases h with ⟨hle, hobs⟩ | ⟨rfl, hobs⟩ <;> rcases h' with ⟨hle', hobs'⟩ | ⟨rfl, hobs'⟩
  · exact Option.some.inj (hobs.symm.trans hobs')
  · exact absurd (hobs' _ hobs) (Nat.not_lt.2 hle)
  · exact absurd (hobs _ hobs') (Nat.not_lt.2 hle')
  · rfl

theorem decides_of_tells (h : l.Tells o) :
    Decides r i filter o (evaluateBundles i filter r l.snapshot l.degraded) where
  isSome_iff name := by
    rw [get?_evaluateBundles, Option.isSome_map]
    cases r.get? name with
    | none => simp
    | some b => cases filter.admits name <;> simp
  known s ho := by
    subst ho
    rw [degraded_of_tells_ok h, h.1]
  denied e ho name b hb hf hsku := by
    subst ho
    rw [get?_evaluateBundles, hb, degraded_of_tells_error h]
    simp [hf, decideBundle, hsku, Decision.denied]
  kept e ho name b hb hsku s := by
    rw [get?_evaluateBundles, get?_evaluateBundles, hb, Option.filter_some]
    split
    · rw [Option.map_some, Option.map_some, decideBundle_of_not_isSkuBased hsku,
        decideBundle_of_not_isSkuBased hsku]
    · rfl

/-! ### Answers -/

/-- What an answer to a request about bundles tells, by the outcome that it rests on. -/
structure Flags (r : Registry) (i : Identity) (filter : BundleFilter) (o : Outcome)
    (answer : Response) : Prop where
  /-- It is never an error. -/
  status : answer.status = 200
  /-- It is flagged, and with what status, exactly when the request failed. -/
  flagged_iff : ∀ status : Nat,
    ((degradedHeader, "true") ∈ answer.headers ∧
      (degradedStatusHeader, toString status) ∈ answer.headers) ↔
        ∃ e, o = .error e ∧ FailsWith e status
  /-- When the request succeeded, neither header is there, however few features came back. -/
  unflagged : ∀ s, o = .ok s →
    ∀ h ∈ answer.headers, h.1 ≠ degradedHeader ∧ h.1 ≠ degradedStatusHeader
  /-- It holds the decisions. -/
  body : ∃ ds, answer.body = .json (.object (ds.entries.map fun d ↦ (d.1, d.2.toValue))) ∧
    Decides r i filter o ds

theorem headers_evaluationResponse_of_error (h : l.Tells (.error e)) :
    (evaluationResponse (.ofLookup r i filter l)).headers =
      [("content-type", "application/json"), (degradedHeader, "true"),
        (degradedStatusHeader, toString l.status)] := by
  rw [Evaluation.ofLookup, degraded_of_tells_error h]
  rfl

theorem headers_evaluationResponse_of_ok {s : Snapshot} (h : l.Tells (.ok s)) :
    (evaluationResponse (.ofLookup r i filter l)).headers =
      [("content-type", "application/json")] := by
  rw [Evaluation.ofLookup, degraded_of_tells_ok h]
  rfl

theorem status_evaluationResponse (ev : Evaluation) : (evaluationResponse ev).status = 200 := by
  rw [evaluationResponse]
  split <;> rfl

theorem body_evaluationResponse (ev : Evaluation) : (evaluationResponse ev).body =
    .json (.object (ev.decisions.entries.map fun d ↦ (d.1, d.2.toValue))) := by
  rw [evaluationResponse]
  split <;> rfl

/-- **An answer is flagged exactly when the features are not known.** That there are none is not the
same: then the decisions look alike, and the flag tells them apart. -/
theorem flags_evaluationResponse (h : l.Tells o) :
    Flags r i filter o (evaluationResponse (.ofLookup r i filter l)) := by
  refine ⟨status_evaluationResponse _, fun status ↦ ?_, ?_,
    ⟨_, body_evaluationResponse _, decides_of_tells h⟩⟩
  · cases o with
    | ok s =>
      rw [headers_evaluationResponse_of_ok h]
      simp [degradedHeader]
    | error e =>
      have hstatus : FailsWith e status ↔ status = l.status :=
        ⟨fun hs ↦ hs.unique (failsWith_status h), fun hs ↦ hs ▸ failsWith_status h⟩
      have hmem : (degradedStatusHeader, toString status) ∈
          (evaluationResponse (.ofLookup r i filter l)).headers ↔ status = l.status := by
        rw [headers_evaluationResponse_of_error h, ← Decimal.toString_inj (m := status)]
        simp [degradedHeader, degradedStatusHeader]
      rw [hmem, headers_evaluationResponse_of_error h]
      simp [hstatus]
  · rintro s rfl
    rw [headers_evaluationResponse_of_ok h]
    simp [degradedHeader, degradedStatusHeader]

/-- What a reply with a status of success and a readable body says of the features is no failure,
not even if it names none. -/
theorem understand_of_isSuccess {status : Nat} {body : Utf8.Bytes} {s : Snapshot}
    (hstatus : Client.isSuccess status = true)
    (hbody : Json.readAs Snapshot.ofDocument? body = some s) :
    Client.FeatureClient.understand status body = .ok s := by
  rw [Client.FeatureClient.understand, if_pos hstatus, Client.decodeBody, hbody]

/-! ### Requests to the feature service -/

section Requests

open Client (Answered FeatureClient Network)

variable {σ : Type} {network : Network σ} {c : FeatureClient} {st : σ} {org : String} {status : Nat}
  {body : Utf8.Bytes}

/-- What comes of a request that is answered is what the reply says. -/
theorem fetch_eq_understand (h : Answered network st (c.request org) status body) :
    (c.fetch network st org).1 = FeatureClient.understand status body := by
  have hreply := Client.fetch_of_answered h FeatureClient.service
  rcases hfetch : Client.fetch network FeatureClient.service st (c.request org) with ⟨r, st'⟩
  rw [hfetch] at hreply
  obtain rfl : r = .ok (status, body) := hreply
  rw [FeatureClient.fetch, hfetch]

/-- A reply without a status of success is a failure, of its status. -/
theorem fetch_of_refused (h : Answered network st (c.request org) status body)
    (hstatus : Client.isSuccess status = false) : (c.fetch network st org).1 =
      .error (.client FeatureClient.service status (Client.excerpt body)) := by
  rw [fetch_eq_understand h, FeatureClient.understand, hstatus]
  rfl

/-- A reply that cannot be read is a failure without a status. -/
theorem fetch_of_unreadable (h : Answered network st (c.request org) status body)
    (hstatus : Client.isSuccess status = true)
    (hbody : Json.readAs Snapshot.ofDocument? body = none) :
    (c.fetch network st org).1 = .error (Client.unreadable FeatureClient.service) := by
  rw [fetch_eq_understand h, FeatureClient.understand, if_pos hstatus,
    Client.decodeBody_of_readAs_eq_none hbody]

/-- A request without a reply is a failure, whatever kept the reply away. -/
theorem fetch_of_unanswered {e : RemoteError}
    (he : (Client.fetch network FeatureClient.service st (c.request org)).1 = .error e) :
    (c.fetch network st org).1 = .error e := by
  rcases hfetch : Client.fetch network FeatureClient.service st (c.request org) with ⟨r, st'⟩
  rw [hfetch] at he
  obtain rfl : r = .error e := he
  rw [FeatureClient.fetch, hfetch]

end Requests

/-! ### All requests -/

/-- Answers to requests about bundles are flagged always and only when the features are not known.
-/
structure FlagsFailures (r : Registry) (cfg : Cache.Config) : Prop where
  /-- However requests are served at the same time, the answer to each rests on the last request
  about the organization of its caller to have come back when its features were looked up, be it
  its own or one that is remembered. -/
  together : ∀ (es : List Evaluations.Event) (s : Evaluations) (k : Nat) (n : Option Nat)
    (i : Identity) (query : Option String) (answer : Response),
    (Evaluations.start r cfg false).run es = some s →
    s.started[k]? = some (evaluationRequest i query, n) → answer? s k = some answer →
      ∃ l f, Machine.Obtains (Machine.start cfg) (es.map Evaluations.Event.toCache) k i.orgId l f ∧
        (l.hit = false ↔ f.caller = k) ∧
        Flags r i (servicesQuery query).filter f.outcome answer
  /-- Requests that `handleServices` answers one after another are among these, whatever the
  services behind do. -/
  inTurn : ∀ {σ : Type} (b : Backends σ) (st : State σ)
    (requests : List (Identity × Option String)), st.evaluator = Evaluator.start r cfg false →
      ∃ es s, (Evaluations.start r cfg false).run es = some s ∧
        (answerInTurn b st requests).2.evaluator = s.evaluator ∧
        ∀ k i query, requests[k]? = some (i, query) →
          (∃ n, s.started[k]? = some (evaluationRequest i query, n)) ∧
            ∃ answer, (answerInTurn b st requests).1[k]? = some answer ∧ answer? s k = some answer
  /-- A reply with a status of success that can be read is no failure, not even if it names no
  feature. -/
  success : ∀ (status : Nat) (body : Utf8.Bytes) (features : Snapshot),
    Client.isSuccess status = true → Json.readAs Snapshot.ofDocument? body = some features →
      Client.FeatureClient.understand status body = .ok features
  /-- Neither is the request that is answered like this. -/
  accepted : ∀ {σ : Type} (network : Client.Network σ) (c : Client.FeatureClient) (st : σ) org
    status body features, Client.Answered network st (c.request org) status body →
      Client.isSuccess status = true → Json.readAs Snapshot.ofDocument? body = some features →
        (c.fetch network st org).1 = .ok features
  /-- A request that is answered without a status of success is a failure, of this status. -/
  refused : ∀ {σ : Type} (network : Client.Network σ) (c : Client.FeatureClient) (st : σ) org status
    body, Client.Answered network st (c.request org) status body →
      Client.isSuccess status = false → (c.fetch network st org).1 =
        .error (.client Client.FeatureClient.service status (Client.excerpt body))
  /-- One whose answer cannot be read is a failure without a status. -/
  unreadable : ∀ {σ : Type} (network : Client.Network σ) (c : Client.FeatureClient) (st : σ) org
    status body, Client.Answered network st (c.request org) status body →
      Client.isSuccess status = true → Json.readAs Snapshot.ofDocument? body = none →
        (c.fetch network st org).1 = .error (Client.unreadable Client.FeatureClient.service)
  /-- So is one that is not answered, for whatever reason. -/
  unanswered : ∀ {σ : Type} (network : Client.Network σ) (c : Client.FeatureClient) (st : σ) org e,
    (Client.fetch network Client.FeatureClient.service st (c.request org)).1 = .error e →
      (c.fetch network st org).1 = .error e

/-- The answer to one of several requests at the same time. -/
theorem flags_of_run {es : List Evaluations.Event} {s : Evaluations} {k : Nat} {n : Option Nat}
    {query : Option String} {answer : Response} {cfg : Cache.Config}
    (h : (Evaluations.start r cfg false).run es = some s)
    (hk : s.started[k]? = some (evaluationRequest i query, n)) (ha : answer? s k = some answer) :
    ∃ l f, Machine.Obtains (Machine.start cfg) (es.map Evaluations.Event.toCache) k i.orgId l f ∧
      (l.hit = false ↔ f.caller = k) ∧
      Flags r i (servicesQuery query).filter f.outcome answer := by
  obtain ⟨haligned, hrun⟩ := (Evaluations.aligned_start r cfg).run h
  obtain ⟨ev, hev, rfl⟩ := Option.map_eq_some_iff.1 ha
  obtain ⟨c, l, hc, horg, hanswer, rfl⟩ := haligned.exists_lookup hk hev
  obtain ⟨f, hobtains, htells, hhit⟩ := Machine.exists_obtains hrun hc hanswer
  rw [horg] at hobtains
  exact ⟨l, f, hobtains, hhit, flags_evaluationResponse htells⟩

/-- Requests that come one after another each have an answer, the one of a run. -/
theorem exists_run_of_answerInTurn {σ : Type} {cfg : Cache.Config} (b : Backends σ) (st : State σ)
    (requests : List (Identity × Option String))
    (hst : st.evaluator = Evaluator.start r cfg false) :
    ∃ es s, (Evaluations.start r cfg false).run es = some s ∧
      (answerInTurn b st requests).2.evaluator = s.evaluator ∧
      ∀ k i query, requests[k]? = some (i, query) →
        (∃ n, s.started[k]? = some (evaluationRequest i query, n)) ∧
          ∃ answer, (answerInTurn b st requests).1[k]? = some answer ∧
            answer? s k = some answer := by
  obtain ⟨es, s, hrun, hevaluator, hstarted, hanswers⟩ := exists_run_answerInTurn b st requests
    (Evaluations.aligned_start r cfg) (Machine.quiet_start cfg) hst
  refine ⟨es, s, hrun, hevaluator.symm, fun k i query hk ↦ ⟨?_, ?_⟩⟩
  · have hget : (s.started.map Prod.fst)[k]? = some (evaluationRequest i query) := by
      simp [hstarted, Evaluations.start, hk]
    rw [List.getElem?_map] at hget
    obtain ⟨⟨q, n⟩, hn, rfl⟩ := Option.map_eq_some_iff.1 hget
    exact ⟨n, hn⟩
  · have hlt := (List.getElem?_eq_some_iff.1 hk).1
    have hlength := length_answerInTurn b st requests
    refine ⟨_, List.getElem?_eq_getElem (hlength ▸ hlt), ?_⟩
    have hanswer := hanswers k hlt
    simp only [Evaluations.start, List.length_nil, Nat.zero_add] at hanswer
    rw [hanswer, List.getElem?_eq_getElem]

/-- **Answers are flagged always and only when the features are not known**, however requests
overlap, and what counts as a failure of a request is told by its reply. -/
theorem flagsFailures (r : Registry) (cfg : Cache.Config) : FlagsFailures r cfg where
  together _ _ _ _ _ _ _ h hk ha := flags_of_run h hk ha
  inTurn b st requests hst := exists_run_of_answerInTurn b st requests hst
  success _ _ _ hstatus hbody := understand_of_isSuccess hstatus hbody
  accepted _ _ _ _ _ _ _ h hstatus hbody :=
    (fetch_eq_understand h).trans (understand_of_isSuccess hstatus hbody)
  refused _ _ _ _ _ _ h hstatus := fetch_of_refused h hstatus
  unreadable _ _ _ _ _ _ h hstatus hbody := fetch_of_unreadable h hstatus hbody
  unanswered _ _ _ _ _ he := fetch_of_unanswered he

/-- Who asks about all bundles. -/
def openCaller : Identity :=
  ⟨"7", "1", true, "dev@redhat.com", "dev", .user, false⟩

/-- Two requests find nothing remembered, the one that asks for the features fails with a status
that is none of an error, and the other one reads what that left. -/
def failedTogether : List Evaluations.Event :=
  [.request (evaluationRequest openCaller none), .request (evaluationRequest openCaller none),
    .move 0 .check, .move 1 .check, .move 0 .join, .move 1 .join, .move 0 .acquire,
    .move 1 .acquire, .move 0 .recheck, .move 0 .fetch,
    .move 0 (.store (.error (.client "features" 302 ""))), .move 0 .unlock, .move 0 .leave,
    .move 1 .recheck, .move 1 .unlock, .move 1 .leave]

theorem flagsFailures_failedTogether : ∃ (s : Evaluations) (answer : Response) (f : Cache.Fetch)
    (e : RemoteError), (Evaluations.start default ⟨1000, 2⟩ false).run failedTogether = some s ∧
      answer? s 1 = some answer ∧ f.outcome = .error e ∧ FailsWith e 503 ∧
      Flags default openCaller (servicesQuery none).filter f.outcome answer := by
  have hrun : ((Evaluations.start default ⟨1000, 2⟩ false).run failedTogether).any (fun s ↦
      decide (s.started[1]? = some (evaluationRequest openCaller none, some 1)) &&
        (answer? s 1).any fun a ↦ decide ((degradedHeader, "true") ∈ a.headers ∧
          (degradedStatusHeader, toString 503) ∈ a.headers)) = true := by
    decide
  obtain ⟨s, hs, hq⟩ := (Option.any_eq_true _ _).1 hrun
  obtain ⟨hk, hq⟩ := Bool.and_eq_true_iff.1 hq
  obtain ⟨answer, hanswer, hflags⟩ := (Option.any_eq_true _ _).1 hq
  obtain ⟨-, f, -, -, hf⟩ := (flagsFailures default ⟨1000, 2⟩).together failedTogether s 1 (some 1)
    openCaller none answer hs (of_decide_eq_true hk) hanswer
  obtain ⟨e, he, hfails⟩ := (hf.flagged_iff 503).1 (of_decide_eq_true hflags)
  exact ⟨s, answer, f, e, hs, hanswer, he, hfails, hf⟩

end Licensing.Service
