import Licensing.Evaluations
import Licensing.Proofs.Bundle.Registry
import Licensing.Proofs.Cache.Alone
import Licensing.Proofs.Cache.Register
import Licensing.Proofs.Decision

/-!
# No entitlement without evidence

Whatever evaluations go on at the same time, who is entitled to a bundle with products is so
because a request about the caller's own organization succeeded and said so (`Evidence`). Either
the evaluation made this request itself, or it came back less than the stated time before the
evaluation looked. The theorem is `evidence_of_entitled`; it rests on what every answer of the
cache has for a source (`Cache.Machine.exists_obtains`), on what is in a registry
(`Registry.get?_of_ofDefinitions`) and on what a decision rests on
(`isEntitled_decideBundle_iff`).
-/

namespace Licensing

open Cache (Fetch Lookup Outcome Machine)

namespace Evaluations

variable {s s' : Evaluations} {e : Event} {es : List Event} {k : Nat} {q : EvaluationRequest}
  {r : Registry} {cfg : Cache.Config}

/-! ### Runs of evaluations -/

/-- What every run that asks the cache keeps: the evaluator, and that each evaluation is the
caller of the cache with the same number. -/
structure Aligned (r : Registry) (s : Evaluations) : Prop where
  /-- The bundles stay the same. -/
  registry_eq : s.evaluator.registry = r
  /-- Not everybody is entitled to everything. -/
  entitleAll_eq : s.evaluator.entitleAll = false
  /-- No one else calls the cache. -/
  length_eq : s.started.length = s.cache.callers.length
  /-- An evaluation asks about the organization of its caller. -/
  caller : ∀ (k : Nat) (q : EvaluationRequest) (n : Option Nat), s.started[k]? = some (q, n) →
    n = some k ∧ ∃ c, s.cache.callers[k]? = some c ∧ c.org = q.identity.orgId

theorem aligned_start (r : Registry) (cfg : Cache.Config) : Aligned r (start r cfg false) where
  registry_eq := rfl
  entitleAll_eq := rfl
  length_eq := rfl
  caller k q n h := by simp [start] at h

/-- What happens to evaluations that ask the cache happens to the cache. -/
theorem exists_of_step (hall : s.evaluator.entitleAll = false) (h : s.step e = some s') :
    ∃ m, s.cache.step e.toCache = some m ∧
      ((∃ q, e = .request q ∧ s' = (s.note q (some s.cache.callers.length)).setCache m) ∨
        ((∀ q, e ≠ .request q) ∧ s' = s.setCache m)) := by
  cases e with
  | request q =>
    rw [step, if_neg (by simp [hall])] at h
    obtain ⟨m, hm, rfl⟩ := Option.map_eq_some_iff.1 h
    exact ⟨m, hm, .inl ⟨q, rfl, rfl⟩⟩
  | move n mv | tick ms =>
    rw [step] at h
    obtain ⟨m, hm, rfl⟩ := Option.map_eq_some_iff.1 h
    exact ⟨m, hm, .inr ⟨by simp, rfl⟩⟩

/-- An evaluation keeps its caller. -/
theorem Aligned.caller_step {m : Machine} {n : Option Nat} (h : Aligned r s)
    (hs : s.cache.step e.toCache = some m) (hq : s.started[k]? = some (q, n)) :
    n = some k ∧ ∃ c, m.callers[k]? = some c ∧ c.org = q.identity.orgId := by
  obtain ⟨hn, c, hc, horg⟩ := h.caller k q n hq
  obtain ⟨c', hc', horg', -⟩ := Machine.exists_caller_of_step (Machine.step_of_step hs) hc
  exact ⟨hn, c', hc', horg'.trans horg⟩

theorem Aligned.step (h : Aligned r s) (hs : s.step e = some s') : Aligned r s' := by
  obtain ⟨m, hm, ⟨q, rfl, rfl⟩ | ⟨hne, rfl⟩⟩ := exists_of_step h.entitleAll_eq hs
  · have hcallers : m.callers =
        s.cache.callers ++ [Cache.Caller.mk q.identity.orgId q.force .entering] := by
      obtain rfl := Option.some.inj hm
      rfl
    refine ⟨h.registry_eq, h.entitleAll_eq, ?_, fun k q' n hk ↦ ?_⟩
    · show (s.started ++ [_]).length = m.callers.length
      rw [hcallers, List.length_append, List.length_append, h.length_eq]
      rfl
    · change (s.started ++ [_])[k]? = some (q', n) at hk
      rcases Nat.lt_trichotomy k s.started.length with hlt | rfl | hgt
      · rw [List.getElem?_append_left hlt] at hk
        exact h.caller_step hm hk
      · -- The evaluation that starts is the caller that starts.
        rw [List.getElem?_concat_length] at hk
        obtain ⟨rfl, rfl⟩ := Prod.mk.inj (Option.some.inj hk)
        refine ⟨by rw [h.length_eq], Cache.Caller.mk q.identity.orgId q.force .entering, ?_, rfl⟩
        show m.callers[s.started.length]? = _
        rw [hcallers, h.length_eq]
        exact List.getElem?_concat_length
      · rw [List.getElem?_eq_none (by simp; omega)] at hk
        exact absurd hk (by simp)
  · refine ⟨h.registry_eq, h.entitleAll_eq, ?_, fun k q n hk ↦ h.caller_step hm hk⟩
    have hlength := Machine.length_eq_of_step (Machine.step_of_step hm) fun org force he ↦ by
      cases e with
      | request q => exact hne q rfl
      | move | tick => simp [Event.toCache] at he
    exact h.length_eq.trans hlength.symm

/-- **A run of evaluations is a run of the cache.** To start an evaluation is to call the cache, and
its moves are the moves of this call, so what holds of every run of the cache holds here. -/
theorem Aligned.run (h : Aligned r s) (hr : s.run es = some s') :
    Aligned r s' ∧ s.cache.run (es.map Event.toCache) = some s'.cache := by
  induction es generalizing s with
  | nil =>
    obtain rfl := Option.some.inj hr
    exact ⟨h, rfl⟩
  | cons e es ih =>
    obtain ⟨t, ht, hrest⟩ := Option.bind_eq_some_iff.1 hr
    obtain ⟨haligned, hrun⟩ := ih (h.step ht) hrest
    refine ⟨haligned, ?_⟩
    obtain ⟨m, hm, ⟨q, rfl, rfl⟩ | ⟨-, rfl⟩⟩ := exists_of_step h.entitleAll_eq ht
    all_goals
      rw [List.map_cons, Machine.run_cons, hm]
      exact hrun

/-! ### An evaluation on its own -/

/-- What goes on in the cache goes on among the evaluations. -/
theorem exists_run_of_goesOn {m : Machine} (h : Machine.GoesOn s.cache m) :
    ∃ es, s.run es = some (s.setCache m) := by
  obtain ⟨es, hes, hrun⟩ := h
  induction es generalizing s with
  | nil =>
    obtain rfl := Option.some.inj hrun
    exact ⟨[], rfl⟩
  | cons e es ih =>
    obtain ⟨t, ht, hrest⟩ := Option.bind_eq_some_iff.1 hrun
    obtain ⟨es', hes'⟩ := ih (s := s.setCache t)
      (fun a ha ↦ hes a (List.mem_cons_of_mem _ ha)) hrest
    obtain ⟨e', he'⟩ : ∃ e', s.step e' = some (s.setCache t) := by
      cases e with
      | call org force => exact absurd rfl (hes _ List.mem_cons_self org force)
      | move n mv => exact ⟨.move n mv, by rw [step, Event.toCache, ht]; rfl⟩
      | tick ms => exact ⟨.tick ms, by rw [step, Event.toCache, ht]; rfl⟩
    exact ⟨e' :: es', Option.bind_eq_some_iff.2 ⟨_, he', hes'⟩⟩

/-- **`Evaluator.evaluate` is a run**: an evaluation starts, and then only its caller moves and
time passes. Its result is that of the evaluation, and where that has none, that of features which
are not known. -/
theorem exists_run_evaluate (hall : s.evaluator.entitleAll = false) (q : EvaluationRequest)
    (delay : Nat) (o : Outcome) : ∃ es s', s.run (.request q :: es) = some s' ∧
      s'.started = s.started ++ [(q, some s.cache.callers.length)] ∧
      s'.evaluator = (s.evaluator.evaluate q.identity q.filter q.force delay o).2.2 ∧
      (s.evaluator.evaluate q.identity q.filter q.force delay o).1 =
        (s'.result? s.started.length).getD
          (.ofLookup s.evaluator.registry q.identity q.filter ⟨.empty, 503, false⟩) := by
  obtain ⟨m, hm, hgoes, hanswer⟩ := s.cache.goesOn_ask q.identity.orgId q.force delay o
  have hstep : s.step (.request q) =
      some ((s.note q (some s.cache.callers.length)).setCache m) := by
    rw [step, if_neg (by simp [hall]), Event.toCache, hm]
    rfl
  obtain ⟨es, hes⟩ := exists_run_of_goesOn
    (s := (s.note q (some s.cache.callers.length)).setCache m) hgoes
  refine ⟨es, _, Option.bind_eq_some_iff.2 ⟨_, hstep, hes⟩, rfl, ?_, ?_⟩
  · rw [Evaluator.evaluate, if_neg (by simp [hall])]
    rfl
  · -- The evaluation has the answer that its caller got, if it got one.
    have hresult : (((s.note q (some s.cache.callers.length)).setCache m).setCache
        (s.cache.ask q.identity.orgId q.force delay o).1).result? s.started.length =
          (s.cache.ask q.identity.orgId q.force delay o).2.1.map
            (.ofLookup s.evaluator.registry q.identity q.filter) := by
      rw [hanswer]
      simp only [result?, setCache, note, List.getElem?_concat_length]
      rfl
    rw [hresult, Option.getD_map, Evaluator.evaluate, if_neg (by simp [hall])]
    rfl

/-! ### Evidence -/

/-- The request on which the entitlement of an evaluation to a bundle rests. -/
structure Evidence (cfg : Cache.Config) (es : List Cache.Event) (k : Nat) (org name : String)
    (f : Fetch) : Prop where
  /-- It was about the organization. -/
  org_eq : f.org = org
  /-- It succeeded, and the first feature of the bundle's name entitles. -/
  entitled : ∃ snapshot feature, f.outcome = .ok snapshot ∧
    snapshot.find? name = some feature ∧ feature.entitled = true
  /-- In the step in which the evaluation got its answer, it was the last request about the
  organization to have come back. The evaluation made it itself, or it had come back less than the
  stated time before. -/
  fresh : ∃ es₁ mv es₂ m₁ m₂, es = es₁ ++ .move k mv :: es₂ ∧
    (Machine.start cfg).run es₁ = some m₁ ∧ m₁.step (.move k mv) = some m₂ ∧
    m₁.given? k = none ∧ (∃ l, m₂.given? k = some l) ∧
    (Machine.start cfg).lastFetch? (es₁ ++ [.move k mv]) org = some f ∧
    (f.caller = k ∨ m₁.now < f.time + cfg.ttl)

/-- Features that are known come from a request that succeeded. -/
theorem exists_ok_of_tells {l : Lookup} {o : Outcome} (h : l.Tells o)
    (hd : l.degraded = false) : o = .ok l.snapshot := by
  cases o with
  | ok snapshot => exact congrArg Except.ok h.1.symm
  | error e =>
    have herror : 400 ≤ l.status := by
      rcases h.2 with ⟨hle, -⟩ | ⟨hstatus, -⟩
      · exact hle
      · omega
    exact absurd hd (by simp [Lookup.degraded, Cache.firstErrorStatus, herror])

/-- An evaluation with a result has it from the answer of its caller. -/
theorem Aligned.exists_lookup {n : Option Nat} {ev : Evaluation} (h : Aligned r s)
    (hk : s.started[k]? = some (q, n)) (hev : s.result? k = some ev) :
    ∃ c l, s.cache.callers[k]? = some c ∧ c.org = q.identity.orgId ∧
      c.phase.answer? = some l ∧ ev = .ofLookup r q.identity q.filter l := by
  obtain ⟨rfl, c, hc, horg⟩ := h.caller k q n hk
  rw [result?, hk, h.registry_eq] at hev
  obtain ⟨l, hl, rfl⟩ := Option.map_eq_some_iff.1 hev
  rw [Machine.answer?, Machine.phase?, hc, Option.map_some] at hl
  refine ⟨c, l, hc, horg, ?_, rfl⟩
  cases hp : c.phase with
  | finished answer =>
    rw [hp] at hl
    exact hl
  | _ =>
    rw [hp] at hl
    exact absurd hl (by simp)

/-- **No entitlement without evidence.** In every run of evaluations that ask the cache, whoever
is entitled to a bundle of a definition with products has evidence for it, and all that the
definition asks for. -/
theorem evidence_of_entitled (ds : List Definition) (suffix : String) (r : Registry)
    (cfg : Cache.Config) (es : List Event) (s : Evaluations) (k : Nat) (q : EvaluationRequest)
    (n : Option Nat) (ev : Evaluation) (d : Definition) (b : Bundle) (dec : Decision)
    (hr : Registry.ofDefinitions ds suffix = .ok r) (hd : d ∈ ds) (hproduct : d.ListsProduct)
    (hb : b ∈ d.expand suffix) (h : (start r cfg false).run es = some s)
    (hk : s.started[k]? = some (q, n)) (hev : s.result? k = some ev)
    (hdec : ev.decisions.get? b.name = some dec) (hent : dec.isEntitled = true) :
    (∃ f, Evidence cfg (es.map Event.toCache) k q.identity.orgId b.name f) ∧
      q.identity.Meets d.attributes := by
  obtain ⟨haligned, hrun⟩ := (aligned_start r cfg).run h
  obtain ⟨c, l, hc, horg, hanswer, rfl⟩ := haligned.exists_lookup hk hev
  -- What the decision rests on.
  obtain rfl := eq_decideBundle_of_get? (Registry.get?_of_ofDefinitions hr hd hb) hdec
  obtain ⟨hsat, hknown, feature, hfeature, hentitled⟩ :=
    (isEntitled_decideBundle_iff (Definition.isSkuBased_of_mem_expand hproduct hb)).1 hent
  rw [Definition.attributes_of_mem_expand hb] at hsat
  refine ⟨?_, Identity.satisfies_iff.1 hsat⟩
  -- Where the answer comes from.
  obtain ⟨f, ⟨es₁, mv, es₂, m₁, m₂, hes, h₁, hstep, hnone, hsome, hlast, hfresh⟩, htells, hhit⟩ :=
    Machine.exists_obtains hrun hc hanswer
  rw [horg] at hlast
  have hmem := List.mem_of_getLast? hlast
  refine ⟨f, ⟨Machine.org_of_mem_fetches hmem, ⟨l.snapshot, feature, ?_, hfeature, hentitled⟩,
    es₁, mv, es₂, m₁, m₂, hes, h₁, hstep, hnone, ⟨l, hsome⟩, hlast, ?_⟩⟩
  · exact exists_ok_of_tells htells hknown
  · cases hl : l.hit with
    | false => exact .inl (hhit.1 hl)
    | true => exact .inr (hfresh hl)

/-- A definition with a product on trial and no other. -/
def trialOnly : Definition :=
  ⟨"rhel", ⟨true, true, true⟩, [], [], ["RH1"]⟩

/-- An internal caller asks about everything. -/
def internalRequest : EvaluationRequest :=
  ⟨⟨"7", "1", true, "dev@redhat.com", "dev", .user, false⟩, ⟨[], []⟩, false⟩

/-- Two evaluations miss together, the one that makes the request is cancelled, and the other one
makes its own. -/
def takenOver : List Event :=
  [.request internalRequest, .request internalRequest, .move 0 .check, .move 1 .check,
    .move 0 .join, .move 1 .join, .move 0 .acquire, .move 1 .acquire, .move 0 .recheck,
    .move 0 .fetch, .move 0 .cancel, .move 0 .unlock, .move 1 .recheck, .move 1 .fetch,
    .move 1 (.store (.ok ⟨[⟨"rhel_paid", true, true⟩]⟩)), .move 1 .unlock, .move 1 .leave]

theorem evidence_of_entitled_takenOver : ∃ r s ev f,
    Registry.ofDefinitions [trialOnly] "_paid" = .ok r ∧
      (start r ⟨1000, 2⟩ false).run takenOver = some s ∧ s.result? 1 = some ev ∧
        Evidence ⟨1000, 2⟩ (takenOver.map Event.toCache) 1 "1" "rhel_paid" f := by
  have hrun : (Registry.ofDefinitions [trialOnly] "_paid").toOption.any (fun r ↦
      ((start r ⟨1000, 2⟩ false).run takenOver).any fun s ↦
        decide (s.started[1]? = some (internalRequest, some 1)) && (s.result? 1).any fun ev ↦
          (ev.decisions.get? "rhel_paid").any Decision.isEntitled) = true := by
    decide
  obtain ⟨r, hr⟩ : ∃ r, Registry.ofDefinitions [trialOnly] "_paid" = .ok r := ⟨_, rfl⟩
  rw [hr] at hrun
  obtain ⟨r', hr', hs⟩ := (Option.any_eq_true _ _).1 hrun
  obtain rfl := Option.some.inj hr'
  obtain ⟨s, hs, hq⟩ := (Option.any_eq_true _ _).1 hs
  obtain ⟨hk, hq⟩ := Bool.and_eq_true_iff.1 hq
  obtain ⟨ev, hev, hq⟩ := (Option.any_eq_true _ _).1 hq
  obtain ⟨dec, hdec, hent⟩ := (Option.any_eq_true _ _).1 hq
  obtain ⟨⟨f, hf⟩, -⟩ := evidence_of_entitled [trialOnly] "_paid" r ⟨1000, 2⟩ takenOver s 1
    internalRequest (some 1) ev trialOnly (trialOnly.paidVariant "_paid") dec hr
    List.mem_cons_self (.inr (.inr (by decide))) (by decide) hs
    (of_decide_eq_true hk) hev hdec hent
  exact ⟨r, s, ev, f, hr, hs, hev, hf⟩

end Evaluations

end Licensing
