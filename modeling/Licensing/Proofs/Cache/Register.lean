import Licensing.Proofs.Cache.Run
import Licensing.Proofs.Cache.Store

/-!
# Every organization has a register

For a single organization the cache is a register of outcomes: what it remembers is the outcome
of the last request that came back, or nothing. Every answer is read from the register or written
to it in one step of its caller, and says what the register says at that time.
-/

namespace Licensing.Cache

/-! ### Answers -/

/-- The answer that a caller has got, if it has one. -/
def Phase.answer? : Phase → Option Lookup
  | .releasing _ answer | .departing _ answer | .finished answer => answer
  | _ => none

/-- An answer tells the outcome of a request: its snapshot, or for a failure the snapshot without
features with the status of the failure, if that is one of an error. -/
def Lookup.Tells (l : Lookup) : Outcome → Prop
  | .ok s => l.snapshot = s ∧ l.status = 200
  | .error e => l.snapshot = ⟨[]⟩ ∧
    ((400 ≤ l.status ∧ e.observedStatus = some l.status) ∨
      (l.status = 503 ∧ ∀ s, e.observedStatus = some s → s < 400))

theorem Lookup.tells_of_eq {l : Lookup} {o : Outcome} (hs : l.snapshot = Outcome.snapshot o)
    (ht : l.status = Outcome.status o) : l.Tells o := by
  cases o with
  | ok s => exact ⟨hs, ht⟩
  | error e =>
    refine ⟨hs, ?_⟩
    rw [Outcome.status] at ht
    cases hf : e.observedStatus.filter (firstErrorStatus ≤ ·) with
    | none =>
      rw [hf] at ht
      refine .inr ⟨ht, fun s hs ↦ Nat.lt_of_not_le fun hle ↦ ?_⟩
      exact Option.filter_eq_none_iff.1 hf s hs (decide_eq_true hle)
    | some s =>
      rw [hf] at ht
      obtain ⟨hobs, hle⟩ := Option.filter_eq_some_iff.1 hf
      obtain rfl : l.status = s := ht
      exact .inl ⟨of_decide_eq_true hle, hobs⟩

namespace Machine

variable {m₀ m m' : Machine} {es : List Event} {e : Event} {n k : Nat} {c : Caller}
  {l : Lookup} {org : String}

/-- The answer that a caller has got, if it has one. -/
def given? (m : Machine) (caller : Nat) : Option Lookup :=
  (m.phase? caller).bind Phase.answer?

/-- The last request about an organization that came back in a run. -/
def lastFetch? (m : Machine) (es : List Event) (org : String) : Option Fetch :=
  (m.fetches es org).getLast?

/-! ### Histories of requests -/

theorem fetch?_eq_some_iff {s : Signal} {f : Fetch} :
    s.fetch? org = some f ↔ s = .returned f ∧ f.org = org := by
  cases s with
  | returned g =>
    simp only [Signal.fetch?, Option.ite_none_right_eq_some, Option.some.injEq,
      Signal.returned.injEq]
    exact ⟨fun ⟨ho, he⟩ ↦ ⟨he, he ▸ ho⟩, fun ⟨he, ho⟩ ↦ ⟨he ▸ ho, he⟩⟩
  | _ => simp [Signal.fetch?]

theorem org_of_mem_fetches {f : Fetch} (h : f ∈ m.fetches es org) : f.org = org := by
  obtain ⟨s, -, hs⟩ := List.mem_filterMap.1 h
  exact (fetch?_eq_some_iff.1 hs).2

theorem signal?_store (hc : m.callers[n]? = some c) (o : Outcome) :
    m.signal? (.move n (.store o)) = some (.returned ⟨n, c.org, o, m.now⟩) := by
  rw [signal?, hc]
  rfl

/-- A request comes back in a step that records its outcome. -/
theorem signal?_eq_returned {f : Fetch} (h : m.signal? e = some (.returned f)) :
    ∃ c, m.callers[f.caller]? = some c ∧ c.org = f.org ∧ f.time = m.now ∧
      e = .move f.caller (.store f.outcome) := by
  unfold signal? at h
  split at h
  · simp at h
  · obtain ⟨c, hc, hf⟩ := Option.map_eq_some_iff.1 h
    obtain rfl := Signal.returned.inj hf
    exact ⟨c, hc, rfl, rfl, rfl⟩
  · split at h <;> simp at h
  · exact absurd h (by simp)

theorem fetches_concat (h : m₀.run es = some m) (hs : Step m e m') (org : String) :
    m₀.fetches (es ++ [e]) org =
      m₀.fetches es org ++ ((m.signal? e).bind (Signal.fetch? org)).toList := by
  rw [fetches, history_concat h hs, List.filterMap_append, ← fetches]
  cases m.signal? e with
  | none => rfl
  | some s => cases hf : s.fetch? org <;> simp [hf]

/-- Nothing comes back in a step that is not the return of a request. -/
theorem fetches_concat_of_ne (h : m₀.run es = some m) (hs : Step m e m')
    (he : ∀ n o, e ≠ .move n (.store o)) (org : String) :
    m₀.fetches (es ++ [e]) org = m₀.fetches es org := by
  rw [fetches_concat h hs]
  cases hsig : (m.signal? e).bind (Signal.fetch? org) with
  | none => exact List.append_nil _
  | some f =>
    obtain ⟨s, hs, hf⟩ := Option.bind_eq_some_iff.1 hsig
    obtain ⟨rfl, -⟩ := fetch?_eq_some_iff.1 hf
    obtain ⟨-, -, -, -, hstore⟩ := signal?_eq_returned hs
    exact absurd hstore (he _ _)

/-- A request that comes back is the last one about its organization. -/
theorem fetches_concat_store {o : Outcome} (h : m₀.run es = some m)
    (hs : Step m (.move n (.store o)) m') (hc : m.callers[n]? = some c) (org : String) :
    m₀.fetches (es ++ [.move n (.store o)]) org =
      m₀.fetches es org ++ if c.org = org then [⟨n, c.org, o, m.now⟩] else [] := by
  rw [fetches_concat h hs, signal?_store hc, Option.bind_some, Signal.fetch?]
  split <;> rfl

/-- A request has come back in a run and one more step if it had before, or does in this step. -/
theorem mem_fetches_concat {f : Fetch} (h : m₀.run es = some m) (hs : Step m e m') :
    f ∈ m₀.fetches (es ++ [e]) org ↔
      f ∈ m₀.fetches es org ∨ m.signal? e = some (.returned f) ∧ f.org = org := by
  rw [fetches_concat h hs, List.mem_append, Option.mem_toList, Option.bind_eq_some_iff]
  simp only [fetch?_eq_some_iff]
  refine or_congr_right ⟨?_, fun ⟨hsig, horg⟩ ↦ ⟨_, hsig, rfl, horg⟩⟩
  rintro ⟨s, hsig, rfl, horg⟩
  exact ⟨hsig, horg⟩

/-- A request that came back did so before now. -/
theorem time_le_of_mem_fetches (h : m₀.run es = some m) :
    ∀ f ∈ m₀.fetches es org, f.time ≤ m.now := by
  refine run_induction (P := fun es m ↦ ∀ f ∈ m₀.fetches es org, f.time ≤ m.now) ?_ ?_ h
  · intro f hf
    exact absurd hf (by simp [fetches])
  · intro es e m m' hrun ih hs f hf
    rcases (mem_fetches_concat hrun hs).1 hf with hf | ⟨hsig, -⟩
    · exact (ih f hf).trans (now_le_of_step hs)
    · obtain ⟨-, -, -, htime, -⟩ := signal?_eq_returned hsig
      exact htime.trans_le (now_le_of_step hs)

/-! ### What a step does to the store -/

/-- **The store changes only when a request comes back**, and then remembers its outcome. All other
steps leave it alone, whatever they do to callers and locks. -/
theorem store_of_step (hs : Step m e m') :
    (m'.store = m.store ∧ ∀ n o, e ≠ .move n (.store o)) ∨
      ∃ n c lock o, e = .move n (.store o) ∧ m.callers[n]? = some c ∧
        c.phase = .fetching lock ∧ m'.store = (m.store.record m.config m.now c.org o).1 := by
  cases hs with
  | @record n lock c hc hp o => exact .inr ⟨n, c, lock, o, rfl, hc, hp, rfl⟩
  | _ => exact .inl ⟨rfl, by simp⟩

/-- An entry is what a request left. -/
def EntryTells (e : Entry) (f : Fetch) : Prop :=
  e.snapshot = Outcome.snapshot f.outcome ∧ e.status = Outcome.status f.outcome ∧ e.since = f.time

/-- What comes in is remembered. -/
theorem exists_entry_record (m : Machine) (n : Nat) (org : String) (o : Outcome) :
    ∃ e, (m.store.record m.config m.now org o).1.entries.get? org = some e ∧
      EntryTells e ⟨n, org, o, m.now⟩ := by
  obtain ⟨generation, hget⟩ : ∃ generation,
      (m.store.record m.config m.now org o).1.entries.get? org =
        some ⟨Outcome.snapshot o, Outcome.status o, generation, m.now⟩ :=
    Store.get?_record_self o
  exact ⟨_, hget, rfl, rfl, rfl⟩

/-- **What is remembered** is the outcome of the last request that came back, or has been
remembered since the start of a run in which none came back. -/
theorem entry_of_run (h : m₀.run es = some m) : ∀ (org : String) (e : Entry),
    m.store.entries.get? org = some e →
      (∃ f, m₀.lastFetch? es org = some f ∧ EntryTells e f) ∨
        (m₀.fetches es org = [] ∧ m₀.store.entries.get? org = some e) := by
  refine run_induction (P := fun es m ↦ ∀ (org : String) (e : Entry),
    m.store.entries.get? org = some e → (∃ f, m₀.lastFetch? es org = some f ∧ EntryTells e f) ∨
      (m₀.fetches es org = [] ∧ m₀.store.entries.get? org = some e)) ?_ ?_ h
  · exact fun org e he ↦ .inr ⟨rfl, he⟩
  · intro es ev m m' hrun ih hs org e he
    rcases store_of_step hs with ⟨hstore, hne⟩ | ⟨n, c, lock, o, rfl, hc, -, hstore⟩
    · rw [hstore] at he
      rw [lastFetch?, fetches_concat_of_ne hrun hs hne]
      exact ih org e he
    · rw [hstore] at he
      rw [lastFetch?, fetches_concat_store hrun hs hc]
      split
      · -- The request is about this organization, and its outcome is the entry now.
        rename_i horg
        subst horg
        obtain ⟨entry, hget, htells⟩ := exists_entry_record m n c.org o
        obtain rfl := Option.some.inj (hget.symm.trans he)
        exact .inl ⟨_, List.getLast?_concat, htells⟩
      · rename_i horg
        rw [List.append_nil]
        exact ih org e (Store.get?_record_of_ne horg he)

/-- What a cache that was empty at the start remembers is the last outcome. -/
theorem exists_lastFetch?_of_run {cfg : Config} {e : Entry} (h : (start cfg).run es = some m)
    (he : m.store.entries.get? org = some e) :
    ∃ f, (start cfg).lastFetch? es org = some f ∧ EntryTells e f := by
  rcases entry_of_run h org e he with hlast | ⟨-, hstart⟩
  · exact hlast
  · exact absurd hstart (by simp [start, Store.empty])

/-! ### What a step does to answers -/

/-- How a caller gets an answer in a step: it reads one, or its request comes back. -/
inductive Gets (m : Machine) (c : Caller) : Move → Lookup → Prop where
  | read {mv : Move} {l : Lookup} (newerThan : Option Nat)
    (hl : m.lookup? c.org newerThan = some l) (hm : ∀ o, mv ≠ .store o) : Gets m c mv l
  | write (o : Outcome) : Gets m c (.store o) ⟨Outcome.snapshot o, Outcome.status o, false⟩

theorem given?_eq (hc : m.callers[n]? = some c) : m.given? n = c.phase.answer? := by
  rw [given?, phase?, hc]
  rfl

theorem exists_caller_of_given? (h : m.given? n = some l) :
    ∃ c, m.callers[n]? = some c ∧ c.phase.answer? = some l := by
  obtain ⟨p, hp, hl⟩ := Option.bind_eq_some_iff.1 h
  obtain ⟨c, hc, rfl⟩ := Option.map_eq_some_iff.1 hp
  exact ⟨c, hc, hl⟩

/-- A caller that has an answer after its own move had it before, or gets it in this move. -/
theorem Turn.answer {mv : Move} {p : Phase} (ht : Turn m c mv p) (hl : p.answer? = some l) :
    c.phase.answer? = some l ∨ c.phase.answer? = none ∧ Gets m c mv l := by
  cases ht with
  | hit hp hf hlook =>
    obtain rfl := Option.some.inj hl
    exact .inr ⟨by rw [hp]; rfl, .read none hlook (by simp)⟩
  | share hp hlook =>
    obtain rfl := Option.some.inj hl
    exact .inr ⟨by rw [hp]; rfl, .read _ hlook (by simp)⟩
  | record hp o =>
    obtain rfl := Option.some.inj hl
    exact .inr ⟨by rw [hp]; rfl, .write o⟩
  | unlock hp | leave hp => exact .inl (by rw [hp]; exact hl)
  | _ => exact absurd hl (by simp [Phase.answer?])

/-- A caller that has an answer keeps it. -/
theorem Turn.keeps {mv : Move} {p : Phase} (ht : Turn m c mv p) (hl : c.phase.answer? = some l) :
    p.answer? = some l := by
  cases ht with
  | unlock hp | leave hp => rwa [hp] at hl
  | resign hp => rcases hp with hp | hp <;> simp [hp, Phase.answer?] at hl
  | hit hp | miss hp | join hp | take hp | wait hp | share hp | clear hp | abandon hp | send hp
  | record hp | lose hp => simp [hp, Phase.answer?] at hl

/-- **How answers come about.** A caller that has one after a step had it before, or got it in
this step, which was its own. -/
theorem given?_of_step (hs : Step m e m') (hl : m'.given? n = some l) :
    m.given? n = some l ∨ m.given? n = none ∧
      ∃ mv c, e = .move n mv ∧ m.callers[n]? = some c ∧ Gets m c mv l := by
  obtain ⟨c', hc', hans⟩ := exists_caller_of_given? hl
  rcases caller_of_step hs hc' with ⟨-, -, hp⟩ | ⟨c, hc, -, -, hb⟩
  · rw [hp] at hans
    exact absurd hans (by simp [Phase.answer?])
  · rw [given?_eq hc]
    rcases hb with hb | ⟨_, _, -, hp⟩ | ⟨mv, rfl, ht⟩
    · exact .inl (hb ▸ hans)
    · rw [hp] at hans
      exact absurd hans (by simp [Phase.answer?])
    · exact (ht.answer hans).imp_right fun ⟨hnone, hg⟩ ↦ ⟨hnone, mv, c, rfl, hc, hg⟩

/-- An answer stays. -/
theorem given?_keeps (hs : Step m e m') (hl : m.given? n = some l) : m'.given? n = some l := by
  obtain ⟨c, hc, hans⟩ := exists_caller_of_given? hl
  obtain ⟨c', hc', -, -, hb⟩ := exists_caller_of_step hs hc
  rw [given?_eq hc']
  rcases hb with hb | ⟨_, _, hp, -⟩ | ⟨mv, -, ht⟩
  · exact hb ▸ hans
  · rw [hp] at hans
    exact absurd hans (by simp [Phase.answer?])
  · exact ht.keeps hans

/-- Who sent a request that came back asked about its organization. -/
theorem exists_caller_of_mem_fetches (h : m₀.run es = some m) :
    ∀ f ∈ m₀.fetches es org, ∃ c, m.callers[f.caller]? = some c ∧ c.org = org := by
  refine run_induction (P := fun es m ↦ ∀ f ∈ m₀.fetches es org,
    ∃ c, m.callers[f.caller]? = some c ∧ c.org = org) ?_ ?_ h
  · intro f hf
    exact absurd hf (by simp [fetches])
  · intro es e m m' hrun ih hs f hf
    obtain ⟨c, hc, horg⟩ : ∃ c, m.callers[f.caller]? = some c ∧ c.org = org := by
      rcases (mem_fetches_concat hrun hs).1 hf with hf | ⟨hsig, rfl⟩
      · exact ih f hf
      · obtain ⟨c, hc, horg, -, -⟩ := signal?_eq_returned hsig
        exact ⟨c, hc, horg⟩
    obtain ⟨c', hc', horg', -⟩ := exists_caller_of_step hs hc
    exact ⟨c', hc', horg'.trans horg⟩

/-- **Who sent a request that came back** has its outcome for an answer, and was not cancelled. -/
theorem given?_of_mem_fetches (h : m₀.run es = some m) : ∀ f ∈ m₀.fetches es org,
    m.given? f.caller = some ⟨Outcome.snapshot f.outcome, Outcome.status f.outcome, false⟩ := by
  refine run_induction (P := fun es m ↦ ∀ f ∈ m₀.fetches es org, m.given? f.caller =
    some ⟨Outcome.snapshot f.outcome, Outcome.status f.outcome, false⟩) ?_ ?_ h
  · intro f hf
    exact absurd hf (by simp [fetches])
  · intro es e m m' hrun ih hs f hf
    rcases (mem_fetches_concat hrun hs).1 hf with hf | ⟨hsig, -⟩
    · exact given?_keeps hs (ih f hf)
    · obtain ⟨-, -, -, -, he⟩ := signal?_eq_returned hsig
      subst he
      cases hs with
      | record hc hp => exact given?_eq (getElem?_setPhase_self hc _)

/-! ### Where answers come from -/

/-- In one step of a run a caller gets its answer, and then the request is the last one about its
organization that came back. If the answer was remembered, it was fresh. -/
def Obtains (m₀ : Machine) (es : List Event) (n : Nat) (org : String) (l : Lookup) (f : Fetch) :
    Prop :=
  ∃ es₁ mv es₂ m₁ m₂, es = es₁ ++ .move n mv :: es₂ ∧ m₀.run es₁ = some m₁ ∧
    m₁.step (.move n mv) = some m₂ ∧ m₁.given? n = none ∧ m₂.given? n = some l ∧
    m₀.lastFetch? (es₁ ++ [.move n mv]) org = some f ∧
    (l.hit = true → m₁.now < f.time + m₀.config.ttl)

theorem lookup?_eq_some_iff {newerThan : Option Nat} : m.lookup? org newerThan = some l ↔
    ∃ e, m.store.entries.get? org = some e ∧ m.now - e.since < m.config.ttl ∧
      newerThan.all (· < e.generation) = true ∧ l = ⟨e.snapshot, e.status, true⟩ :=
  Store.lookup?_eq_some_iff

theorem hit_of_lookup? {newerThan : Option Nat} (h : m.lookup? org newerThan = some l) :
    l.hit = true := by
  obtain ⟨-, -, -, -, rfl⟩ := lookup?_eq_some_iff.1 h
  rfl

/-- What a caller of an empty cache reads is the outcome of the last request that came back,
which was not its own. -/
theorem tells_of_lookup? {cfg : Config} {newerThan : Option Nat}
    (h : (start cfg).run es = some m) (hnone : m.given? n = none)
    (hl : m.lookup? org newerThan = some l) :
    ∃ f, (start cfg).lastFetch? es org = some f ∧ l.Tells f.outcome ∧ l.hit = true ∧
      f.caller ≠ n ∧ m.now < f.time + cfg.ttl := by
  obtain ⟨e, he, hfresh, -, rfl⟩ := lookup?_eq_some_iff.1 hl
  obtain ⟨f, hf, hsnap, hstatus, hsince⟩ := exists_lastFetch?_of_run h he
  refine ⟨f, hf, Lookup.tells_of_eq hsnap hstatus, rfl, ?_, ?_⟩
  · rintro rfl
    have hgiven := given?_of_mem_fetches h f (List.mem_of_getLast? hf)
    rw [hnone] at hgiven
    exact absurd hgiven (by simp)
  · have hconfig : m.config.ttl = cfg.ttl := congrArg Config.ttl (config_of_run h)
    omega

/-- **Every answer has a source.** A caller that has an answer obtained it in one of its steps,
and it is the outcome of its own request unless it was remembered. -/
theorem exists_obtains {cfg : Config} (h : (start cfg).run es = some m)
    (hc : m.callers[n]? = some c) (hl : c.phase.answer? = some l) :
    ∃ f, Obtains (start cfg) es n c.org l f ∧ l.Tells f.outcome ∧
      (l.hit = false ↔ f.caller = n) := by
  -- The step in which the caller came to have the answer.
  obtain ⟨es₁, e, es₂, m₁, m₂, rfl, h₁, hs, h₂, hbefore, hafter⟩ :=
    exists_step_of_run (P := fun m ↦ m.given? n = some l) h (by simp [given?, phase?, start])
      ((given?_eq hc).trans hl)
  rcases given?_of_step (step_of_step hs) hafter with hgiven | ⟨hnone, mv, c₁, rfl, hc₁, hg⟩
  · exact absurd hgiven hbefore
  -- The caller asked about the same organization all the time.
  obtain ⟨c₂, hc₂, horg₂, -⟩ := exists_caller_of_step (step_of_step hs) hc₁
  obtain ⟨c₃, hc₃, horg₃, -⟩ := exists_caller_of_run h₂ hc₂
  obtain rfl := Option.some.inj (hc.symm.trans hc₃)
  have horg : c₁.org = c.org := (horg₃.trans horg₂).symm
  cases hg with
  | read newerThan hlook hne =>
    rw [horg] at hlook
    obtain ⟨f, hf, htells, hhit, hcaller, hfresh⟩ := tells_of_lookup? h₁ hnone hlook
    have hlast : (start cfg).lastFetch? (es₁ ++ [.move n mv]) c.org = some f := by
      rw [lastFetch?, fetches_concat_of_ne h₁ (step_of_step hs) fun n' o heq ↦ ?_]
      · exact hf
      · obtain ⟨rfl, rfl⟩ := Event.move.inj heq
        exact hne o rfl
    exact ⟨f, ⟨es₁, mv, es₂, m₁, m₂, rfl, h₁, hs, hnone, hafter, hlast, fun _ ↦ hfresh⟩, htells,
      by simp [hhit, hcaller]⟩
  | write o =>
    have hlast : (start cfg).lastFetch? (es₁ ++ [.move n (.store o)]) c.org =
        some ⟨n, c.org, o, m₁.now⟩ := by
      rw [lastFetch?, fetches_concat_store h₁ (step_of_step hs) hc₁, horg, if_pos rfl]
      exact List.getLast?_concat
    exact ⟨_, ⟨es₁, .store o, es₂, m₁, m₂, rfl, h₁, hs, hnone, hafter, hlast, by simp⟩,
      Lookup.tells_of_eq rfl rfl, by simp⟩

/-- What the callers of a run see of the cache is a register for every organization. -/
structure Registers (cfg : Config) (es : List Event) (m : Machine) : Prop where
  /-- Who is done with an answer got it in one of its steps. It tells the outcome of the request
  that was the last one about its organization to come back by then: its own exactly if the
  answer was not remembered, and else one that had been remembered for less than the stated
  time. -/
  answer : ∀ (n : Nat) (c : Caller) (l : Lookup), m.callers[n]? = some c →
    c.phase = .finished (some l) → ∃ f, Obtains (start cfg) es n c.org l f ∧
      l.Tells f.outcome ∧ (l.hit = false ↔ f.caller = n)
  /-- What is remembered and the generation change only when a request comes back. -/
  store : ∀ e m', m.step e = some m' → m'.store ≠ m.store →
    ∃ f, m.signal? e = some (.returned f) ∧ e = .move f.caller (.store f.outcome)
  /-- Who sent a request that came back was not cancelled. -/
  fetcher : ∀ org, ∀ f ∈ (start cfg).fetches es org,
    ∃ l, m.given? f.caller = some l ∧ l.hit = false

/-- **The register.** Whatever the callers do, answers are reads and writes of one register for
each organization. -/
theorem registers_of_run (cfg : Config) (es : List Event) (m : Machine)
    (h : (start cfg).run es = some m) : Registers cfg es m := by
  refine ⟨fun n c l hc hp ↦ exists_obtains h hc (by rw [hp]; rfl), fun e m' hs hne ↦ ?_,
    fun org f hf ↦ ⟨_, given?_of_mem_fetches h f hf, rfl⟩⟩
  rcases store_of_step (step_of_step hs) with ⟨hstore, -⟩ | ⟨n, c, lock, o, rfl, hc, -, -⟩
  · exact absurd hstore hne
  · exact ⟨⟨n, c.org, o, m.now⟩, signal?_store hc o, rfl⟩

/-- A failure is shared: two callers miss together, the request of the first fails, and the
second reads what that left. -/
def sharedFailure : List Event :=
  [.call "a" false, .call "a" false, .move 0 .check, .move 1 .check, .move 0 .join, .move 1 .join,
    .move 0 .acquire, .move 1 .acquire, .move 0 .recheck, .move 0 .fetch,
    .move 0 (.store (.error (.client "s" 302 ""))), .move 0 .unlock, .move 0 .leave, .tick 999,
    .move 1 .recheck, .move 1 .unlock, .move 1 .leave]

theorem registers_sharedFailure : ∃ m, (start ⟨1000, 2⟩).run sharedFailure = some m ∧
    m.answer? 1 = some ⟨.empty, 503, true⟩ ∧ Registers ⟨1000, 2⟩ sharedFailure m := by
  have hrun : ((start ⟨1000, 2⟩).run sharedFailure).any
      (fun m ↦ m.answer? 1 = some ⟨.empty, 503, true⟩) = true := by decide
  obtain ⟨m, hm, hq⟩ := (Option.any_eq_true _ _).1 hrun
  exact ⟨m, hm, of_decide_eq_true hq, registers_of_run _ _ _ hm⟩

end Machine

end Licensing.Cache
