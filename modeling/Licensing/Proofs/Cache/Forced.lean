import Licensing.Proofs.Cache.Recency
import Licensing.Proofs.Cache.View

/-!
# Who needs a later outcome gets one

A caller that needs a later outcome does not look at what is remembered when it comes, and keeps
the generation at that time. Generations count the outcomes, so what it finds later, when it holds
the lock, came in after it looked: another caller's request came back in the meantime. When there
is none it sends a request of its own. The statement is `forced_of_run`.

A caller looks once. A run in which it has done so is split there (`Looked`), and what came in
afterwards is told by the second part.
-/

namespace Licensing.Cache

/-- Whether a caller has sent a request; not known of one that was cancelled. -/
def Phase.asked? : Phase → Option Bool
  | .entering | .checked _ | .ticketed .. | .queued .. | .holding .. | .cleared _ => some false
  | .fetching _ => some true
  | .releasing _ answer | .departing _ answer | .finished answer => answer.map fun l ↦ !l.hit

namespace Machine

variable {m₀ m₁ m₂ m m' : Machine} {es es₁ es₂ : List Event} {e : Event} {n k : Nat} {c : Caller}
  {cfg : Config} {l : Lookup} {org : String} {f : Fetch}

/-! ### Runs in two parts -/

theorem fetches_append (h : m₀.run es₁ = some m₁) (org : String) :
    m₀.fetches (es₁ ++ es₂) org = m₀.fetches es₁ org ++ m₁.fetches es₂ org := by
  rw [fetches, history_append h, List.filterMap_append, ← fetches, ← fetches]

theorem storedOrgs_append (h : m₀.run es₁ = some m₁) :
    m₀.storedOrgs (es₁ ++ es₂) = m₀.storedOrgs es₁ ++ m₁.storedOrgs es₂ := by
  rw [storedOrgs, history_append h, List.filterMap_append, ← storedOrgs, ← storedOrgs]

/-- An outcome about an organization came in exactly if a request about it came back. -/
theorem mem_storedOrgs_iff : org ∈ m.storedOrgs es ↔ m.fetches es org ≠ [] := by
  constructor
  · intro hmem
    obtain ⟨s, hs, horg⟩ := List.mem_filterMap.1 hmem
    cases s with
    | returned f =>
      have hf : f ∈ m.fetches es org :=
        List.mem_filterMap.2 ⟨_, hs, fetch?_eq_some_iff.2 ⟨rfl, Option.some.inj horg⟩⟩
      exact List.ne_nil_of_mem hf
    | sent | lost => exact absurd horg (by simp [Signal.stored?])
  · intro hne
    obtain ⟨f, hf⟩ := List.exists_mem_of_ne_nil _ hne
    obtain ⟨s, hs, heq⟩ := List.mem_filterMap.1 hf
    obtain ⟨rfl, horg⟩ := fetch?_eq_some_iff.1 heq
    exact List.mem_filterMap.2 ⟨_, hs, by rw [Signal.stored?, horg]⟩

/-- **What came in since.** Of the entries of a later state those have a generation above that of
an earlier one about whose organization a request came back in between. -/
theorem generation_lt_iff_fetches_ne_nil {entry : Entry} (h₁ : (start cfg).run es₁ = some m₁)
    (h₂ : m₁.run es₂ = some m)
    (hwrap : ((start cfg).storedOrgs (es₁ ++ es₂)).length < Store.generations)
    (he : m.store.entries.get? org = some entry) :
    m₁.store.generation < entry.generation ↔ m₁.fetches es₂ org ≠ [] := by
  have hrun : (start cfg).run (es₁ ++ es₂) = some m := by
    rw [run_append, h₁]
    exact h₂
  obtain ⟨-, hrank⟩ := (ranked_of_run hrun hwrap).rank org entry he
  rw [storedOrgs_append h₁, List.length_append] at hwrap
  rw [newer, length_takeWhile_ne, storedOrgs_append h₁, List.length_append, List.reverse_append,
    List.idxOf_append] at hrank
  rw [(ranked_of_run h₁ (by omega)).generation_eq, ← mem_storedOrgs_iff, ← List.mem_reverse]
  -- The last outcome about it came in during the second part, or before all of that.
  split at hrank
  · rename_i hmem
    have hlt := List.idxOf_lt_length_of_mem hmem
    rw [List.length_reverse] at hlt
    exact iff_of_true (by omega) hmem
  · rename_i hmem
    rw [List.length_reverse] at hrank
    exact iff_of_false (by omega) hmem

/-! ### Callers that have looked -/

/-- A caller looks at the end of the first part of a run, and then comes the second part. -/
structure Looked (m₀ : Machine) (n : Nat) (es₁ es₂ : List Event) (m₁ m₂ m : Machine) : Prop where
  /-- The first part. -/
  before : m₀.run es₁ = some m₁
  /-- The caller looks. -/
  look : m₁.step (.move n .check) = some m₂
  /-- The second part. -/
  after : m₂.run es₂ = some m

/-- Looking is not answered by the feature service. -/
theorem Looked.fetches (h : Looked m₀ n es₁ es₂ m₁ m₂ m) (org : String) :
    m₁.fetches (.move n .check :: es₂) org = m₂.fetches es₂ org := by
  rw [Machine.fetches, history_cons h.look]
  rfl

theorem Looked.run (h : Looked m₀ n es₁ es₂ m₁ m₂ m) :
    m₁.run (.move n .check :: es₂) = some m := by
  rw [run_cons, h.look]
  exact h.after

/-- A caller on its way keeps the generation at which it looked. -/
theorem Turn.keeps_seen {mv : Move} {p : Phase} (ht : Turn m c mv p) (hp : c.phase ≠ .entering) :
    p ≠ .entering ∧ ∀ seen, p.seen? = some seen → c.phase.seen? = some seen := by
  cases ht with
  | hit hq | miss hq => exact absurd hq hp
  | join hq | take hq | wait hq =>
    rw [hq]
    exact ⟨by simp, fun _ hseen ↦ hseen⟩
  | resign | share | clear | abandon | send | record | lose | unlock | leave =>
    exact ⟨by simp, by simp [Phase.seen?]⟩

theorem Becomes.keeps_seen {p : Phase} (hb : Becomes m e n c p) (hp : c.phase ≠ .entering) :
    p ≠ .entering ∧ ∀ seen, p.seen? = some seen → c.phase.seen? = some seen := by
  rcases hb with rfl | ⟨seen, lock, hq, rfl⟩ | ⟨mv, -, ht⟩
  · exact ⟨hp, fun _ hseen ↦ hseen⟩
  · rw [hq]
    exact ⟨by simp, fun _ hseen ↦ hseen⟩
  · exact ht.keeps_seen hp

/-- The first thing that a caller does is to look. -/
theorem Turn.eq_check {mv : Move} {p : Phase} (ht : Turn m c mv p) (hp : c.phase = .entering) :
    mv = .check := by
  cases ht with
  | hit | miss => rfl
  | resign hq => rcases hq with hq | hq <;> exact absurd (hp.symm.trans hq) (by simp)
  | join hq | take hq | wait hq | share hq | clear hq | abandon hq | send hq | record hq
  | lose hq | unlock hq | leave hq => exact absurd (hp.symm.trans hq) (by simp)

/-- **Who is past the start has looked.** Its phase keeps the generation that it saw then, and the
run can be split at this point. -/
theorem exists_looked (h : (start cfg).run es = some m) (hc : m.callers[n]? = some c)
    (hp : c.phase ≠ .entering) : ∃ es₁ es₂ m₁ m₂, es = es₁ ++ .move n .check :: es₂ ∧
      Looked (start cfg) n es₁ es₂ m₁ m₂ m := by
  obtain ⟨es₁, e, es₂, m₁, m₂, rfl, h₁, hs, h₂, hbefore, c₂, hc₂, hp₂⟩ :=
    exists_step_of_run (P := fun m ↦ ∃ c, m.callers[n]? = some c ∧ c.phase ≠ .entering) h
      (by simp [start]) ⟨c, hc, hp⟩
  obtain rfl : e = .move n .check := by
    rcases caller_of_step (step_of_step hs) hc₂ with ⟨-, -, hnew⟩ | ⟨c₁, hc₁, -, -, hb⟩
    · exact absurd hnew hp₂
    · have hp₁ : c₁.phase = .entering := by
        by_contra hne
        exact hbefore ⟨c₁, hc₁, hne⟩
      rcases hb with hb | ⟨_, _, hq, -⟩ | ⟨mv, rfl, ht⟩
      · exact absurd (hb.trans hp₁) hp₂
      · exact absurd (hp₁.symm.trans hq) (by simp)
      · rw [ht.eq_check hp₁]
  exact ⟨es₁, es₂, m₁, m₂, rfl, h₁, hs, h₂⟩

/-- What a caller has seen is the generation when it looked. -/
theorem Looked.seen_eq (h : Looked m₀ n es₁ es₂ m₁ m₂ m) (hc : m.callers[n]? = some c) :
    c.phase ≠ .entering ∧ ∀ seen, c.phase.seen? = some seen → seen = m₁.store.generation := by
  obtain ⟨c', hc', hseen⟩ : ∃ c, m.callers[n]? = some c ∧ c.phase ≠ .entering ∧
      ∀ seen, c.phase.seen? = some seen → seen = m₁.store.generation := by
    refine run_induction (P := fun _ m ↦ ∃ c, m.callers[n]? = some c ∧ c.phase ≠ .entering ∧
      ∀ seen, c.phase.seen? = some seen → seen = m₁.store.generation) ?_ ?_ h.after
    · cases step_of_step h.look with
      | hit hc₁ | miss hc₁ =>
        exact ⟨_, getElem?_setPhase_self hc₁ _, by simp, by simp [Phase.seen?]⟩
    · rintro es e m m' - ⟨c, hc, hp, hseen⟩ hs
      obtain ⟨c', hc', -, -, hb⟩ := exists_caller_of_step hs hc
      obtain ⟨hp', hkeeps⟩ := hb.keeps_seen hp
      exact ⟨c', hc', hp', fun seen hs ↦ hseen seen (hkeeps seen hs)⟩
  obtain rfl := Option.some.inj (hc.symm.trans hc')
  exact hseen

/-- A caller that needs a later outcome does not look at what is remembered. -/
theorem Looked.eq_setPhase (h : Looked m₀ n es₁ es₂ m₁ m₂ m) (hc : m.callers[n]? = some c)
    (hforce : c.force = true) : m₂ = m₁.setPhase n (.checked m₁.store.generation) := by
  cases step_of_step h.look with
  | miss => rfl
  | hit hc₁ hp hf hl =>
    obtain ⟨c₂, hc₂, -, hforce₂, -⟩ := exists_caller_of_step (step_of_step h.look) hc₁
    obtain ⟨c₃, hc₃, -, hforce₃⟩ := exists_caller_of_run h.after hc₂
    obtain rfl := Option.some.inj (hc.symm.trans hc₃)
    rw [hforce₃, hforce₂, hf] at hforce
    exact absurd hforce (by simp)

/-! ### What came in since a caller looked -/

theorem Looked.run_eq (h : Looked m₀ n es₁ es₂ m₁ m₂ m) :
    m₀.run (es₁ ++ .move n .check :: es₂) = some m := by
  rw [run_append, h.before]
  exact h.run

/-- When a request came back since, the last one that did is the last one of all. -/
theorem Looked.lastFetch?_eq (h : Looked m₀ n es₁ es₂ m₁ m₂ m) (hne : m₂.fetches es₂ org ≠ []) :
    m₀.lastFetch? (es₁ ++ .move n .check :: es₂) org = (m₂.fetches es₂ org).getLast? := by
  rw [lastFetch?, fetches_append h.before, h.fetches, List.getLast?_append_of_ne_nil _ hne]

/-- An entry is of a later generation exactly if a request came back since. -/
theorem Looked.generation_lt_iff {entry : Entry} (h : Looked (start cfg) n es₁ es₂ m₁ m₂ m)
    (hwrap : ((start cfg).storedOrgs (es₁ ++ .move n .check :: es₂)).length < Store.generations)
    (he : m.store.entries.get? org = some entry) :
    m₁.store.generation < entry.generation ↔ m₂.fetches es₂ org ≠ [] := by
  rw [← h.fetches]
  exact generation_lt_iff_fetches_ne_nil h.before h.run hwrap he

/-- **What is later is what came in since.** Generations are compared, but it is the order of events
that counts. -/
theorem Looked.last_of_lookup? (h : Looked (start cfg) n es₁ es₂ m₁ m₂ m)
    (hwrap : ((start cfg).storedOrgs (es₁ ++ .move n .check :: es₂)).length < Store.generations)
    (hnone : m.given? n = none) (hl : m.lookup? org (some m₁.store.generation) = some l) :
    ∃ f, (m₂.fetches es₂ org).getLast? = some f ∧ l.Tells f.outcome ∧ l.hit = true ∧
      f.caller ≠ n ∧ m.now < f.time + cfg.ttl := by
  obtain ⟨entry, he, -, hlater, -⟩ := lookup?_eq_some_iff.1 hl
  have hne := (h.generation_lt_iff hwrap he).1 (by simpa using hlater)
  obtain ⟨f, hf, hrest⟩ := tells_of_lookup? h.run_eq hnone hl
  exact ⟨f, h.lastFetch?_eq hne ▸ hf, hrest⟩

/-- **What came in since is found**, while it is fresh and remembered. -/
theorem Looked.lookup?_of_last (h : Looked (start cfg) n es₁ es₂ m₁ m₂ m)
    (hwrap : ((start cfg).storedOrgs (es₁ ++ .move n .check :: es₂)).length < Store.generations)
    (hf : (m₂.fetches es₂ org).getLast? = some f) (hfresh : m.now < f.time + cfg.ttl)
    (hkept : m.store.entries.contains org = true) :
    ∃ l, m.lookup? org (some m₁.store.generation) = some l ∧ l.hit = true ∧
      l.Tells f.outcome := by
  obtain ⟨entry, he⟩ := (OrderedMap.contains_eq_true_iff _).1 hkept
  have hne : m₂.fetches es₂ org ≠ [] := List.ne_nil_of_mem (List.mem_of_getLast? hf)
  have hlast := (h.lastFetch?_eq hne).trans hf
  obtain ⟨g, hg, hsnap, hstatus, hsince⟩ := exists_lastFetch?_of_run h.run_eq he
  obtain rfl := Option.some.inj (hlast.symm.trans hg)
  have hcfg : m.config.ttl = cfg.ttl := congrArg Config.ttl (config_of_run h.run_eq)
  have htime := time_le_of_mem_fetches h.run_eq f (List.mem_of_getLast? hlast)
  have hlater := (h.generation_lt_iff hwrap he).2 hne
  exact ⟨_, lookup?_eq_some_iff.2 ⟨entry, he, by omega, by simpa using hlater, rfl⟩, rfl,
    Lookup.tells_of_eq hsnap hstatus⟩

/-! ### Who sends a request -/

theorem asked?_of_answer? {p : Phase} (hl : p.answer? = some l) :
    p.asked? = some !l.hit := by
  cases p with
  | releasing _ answer | departing _ answer | finished answer =>
    obtain rfl : answer = some l := hl
    rfl
  | _ => exact absurd hl (by simp [Phase.answer?])

/-- Whether a caller has sent a request changes when it does so. -/
theorem Turn.asked {mv : Move} {p : Phase} {b : Bool} (ht : Turn m c mv p) (hmv : mv ≠ .fetch)
    (hb : p.asked? = some b) : c.phase.asked? = some b := by
  cases ht with
  | hit hp hf hl | share hp hl =>
    rw [hp, ← hb]
    simp [Phase.asked?, hit_of_lookup? hl]
  | miss hp | join hp | take hp | wait hp | clear hp | record hp | unlock hp | leave hp =>
    rw [hp]
    exact hb
  | send => exact absurd rfl hmv
  | resign | abandon | lose => exact absurd hb (by simp [Phase.asked?])

theorem Becomes.asked {p : Phase} {b : Bool} (h : Becomes m e n c p) (he : e ≠ .move n .fetch)
    (hb : p.asked? = some b) : c.phase.asked? = some b := by
  rcases h with rfl | ⟨seen, lock, hp, rfl⟩ | ⟨mv, rfl, ht⟩
  · exact hb
  · rw [hp]
    exact hb
  · exact ht.asked (fun hmv ↦ he (by rw [hmv])) hb

/-- Who sends a request is one of the callers. -/
theorem lt_of_sent_mem (h : m₀.run es = some m) (hmem : .sent n org ∈ m₀.history es) :
    n < m.callers.length := by
  refine run_induction (P := fun es m ↦ .sent n org ∈ m₀.history es → n < m.callers.length)
    (by simp) (fun es e m m' hrun ih hs hmem ↦ ?_) h hmem
  rw [history_concat hrun hs, List.mem_append, Option.mem_toList] at hmem
  rcases hmem with hmem | hsig
  · exact (ih hmem).trans_le (length_le_of_step hs)
  · obtain rfl := signal?_eq_sent hsig
    cases hs with
    | send hc =>
      obtain ⟨hlt, -⟩ := List.getElem?_eq_some_iff.1 hc
      simpa using hlt

/-- **Who has sent a request** can be told from its phase. -/
theorem sent_iff_of_run (h : (start cfg).run es = some m) {b : Bool}
    (hc : m.callers[n]? = some c) (hb : c.phase.asked? = some b) :
    (∃ about, .sent n about ∈ (start cfg).history es) ↔ b = true := by
  refine run_induction (P := fun es m ↦ ∀ n c b, m.callers[n]? = some c →
    c.phase.asked? = some b → ((∃ about, .sent n about ∈ (start cfg).history es) ↔ b = true))
    (by simp [start]) (fun es e m m' hrun ih hs n c' b hc' hb ↦ ?_) h n c b hc hb
  simp only [history_concat hrun hs, List.mem_append, Option.mem_toList, exists_or]
  by_cases he : e = .move n .fetch
  · -- The caller sends its request now.
    subst he
    cases hs with
    | send hc₁ hp =>
      rw [getElem?_setPhase_self hc₁] at hc'
      obtain rfl := Option.some.inj hc'
      obtain rfl := Option.some.inj hb
      exact iff_of_true (.inr ⟨_, by rw [signal?, hc₁]; rfl⟩) rfl
  · have hquiet : ¬ ∃ about, m.signal? e = some (.sent n about) := by
      rintro ⟨about, hsig⟩
      exact he (signal?_eq_sent hsig)
    rw [or_iff_left hquiet]
    rcases caller_of_step hs hc' with ⟨rfl, -, hp⟩ | ⟨c, hc, -, -, hbecomes⟩
    · rw [hp] at hb
      obtain rfl := Option.some.inj hb
      refine iff_of_false ?_ (by simp)
      rintro ⟨about, hmem⟩
      exact lt_irrefl _ (lt_of_sent_mem hrun hmem)
    · exact ih n c b hc (hbecomes.asked he hb)

/-! ### How a caller gets its answer -/

/-- A caller that needs a later outcome finds one with the lock, or its request comes back. -/
theorem Turn.answer_of_force {mv : Move} {p : Phase} (ht : Turn m c mv p) (hforce : c.force = true)
    (hnone : c.phase.answer? = none) (hl : p.answer? = some l) :
    (∃ seen lock, c.phase = .holding seen lock ∧ mv = .recheck ∧
      m.lookup? c.org (some seen) = some l) ∨
    ∃ lock o, c.phase = .fetching lock ∧ mv = .store o ∧
      l = ⟨Outcome.snapshot o, Outcome.status o, false⟩ := by
  cases ht with
  | hit hp hf => exact absurd (hforce.symm.trans hf) (by simp)
  | share hp hlook =>
    obtain rfl := Option.some.inj hl
    rw [if_pos hforce] at hlook
    exact .inl ⟨_, _, hp, rfl, hlook⟩
  | record hp o =>
    obtain rfl := Option.some.inj hl
    exact .inr ⟨_, o, hp, rfl, rfl⟩
  | unlock hp | leave hp =>
    rw [hp] at hnone
    exact absurd (hnone.symm.trans hl) (by simp)
  | _ => exact absurd hl (by simp [Phase.answer?])

/-- A caller that has an answer got it in a move of its own. -/
theorem exists_turn_of_answer? (h : (start cfg).run es = some m) (hc : m.callers[n]? = some c)
    (hl : c.phase.answer? = some l) : ∃ es₁ mv es₂ m₁ m₂ c₁ p, es = es₁ ++ .move n mv :: es₂ ∧
      (start cfg).run es₁ = some m₁ ∧ m₁.step (.move n mv) = some m₂ ∧
      m₁.callers[n]? = some c₁ ∧ c₁.org = c.org ∧ c₁.force = c.force ∧ Turn m₁ c₁ mv p ∧
      m₁.given? n = none ∧ m₂.given? n = some l ∧ p.answer? = some l := by
  obtain ⟨es₁, e, es₂, m₁, m₂, rfl, h₁, hs, h₂, hbefore, hafter⟩ :=
    exists_step_of_run (P := fun m ↦ m.given? n = some l) h (by simp [given?, phase?, start])
      ((given?_eq hc).trans hl)
  rcases given?_of_step (step_of_step hs) hafter with hgiven | ⟨hnone, mv, c₁, rfl, hc₁, -⟩
  · exact absurd hgiven hbefore
  obtain ⟨c₂, hc₂, horg₂, hforce₂, hb⟩ := exists_caller_of_step (step_of_step hs) hc₁
  obtain ⟨c₃, hc₃, horg₃, hforce₃⟩ := exists_caller_of_run h₂ hc₂
  obtain rfl := Option.some.inj (hc.symm.trans hc₃)
  rw [given?_eq hc₂] at hafter
  have hnone₁ := (given?_eq hc₁).symm.trans hnone
  rcases hb with hb | ⟨_, _, -, hp⟩ | ⟨mv', heq, ht⟩
  · rw [hb, hnone₁] at hafter
    exact absurd hafter (by simp)
  · rw [hp] at hafter
    exact absurd hafter (by simp [Phase.answer?])
  · obtain ⟨-, rfl⟩ := Event.move.inj heq
    exact ⟨es₁, mv, es₂, m₁, m₂, c₁, _, rfl, h₁, hs, hc₁, (horg₃.trans horg₂).symm,
      (hforce₃.trans hforce₂).symm, ht, hnone, (given?_eq hc₂).trans hafter, hafter⟩

/-! ### The main statement -/

/-- A caller that needs a later outcome looked when a run had come from `m₀` to `m₁`, and gets its
answer in the step from `m₃` to `m₄`. -/
structure Supplied (n : Nat) (org : String) (l : Lookup) (f : Fetch) (es₂ : List Event) (mv : Move)
    (m₁ m₂ m₃ m₄ : Machine) : Prop where
  /-- When it looked, it only kept the generation. -/
  seen : m₂ = m₁.setPhase n (.checked m₁.store.generation)
  /-- The step in which it gets the answer. -/
  step : m₃.step (.move n mv) = some m₄
  /-- It had none before. -/
  before : m₃.given? n = none
  /-- It has this one then. -/
  after : m₄.given? n = some l
  /-- The request is the last one about the organization that came back after the caller
  looked. -/
  last : (m₂.fetches (es₂ ++ [.move n mv]) org).getLast? = some f
  /-- The answer is its outcome. -/
  tells : l.Tells f.outcome
  /-- If the answer was not remembered, the request is the caller's own. -/
  own : l.hit = false → f.caller = n ∧ mv = .store f.outcome
  /-- If it was, the request is another caller's, had come back before, and that is less than the
  stated time ago. -/
  other : l.hit = true → f.caller ≠ n ∧ f ∈ m₂.fetches es₂ org ∧ m₃.now < f.time + m₃.config.ttl

/-- What callers get that need a later outcome. -/
structure Forced (cfg : Config) (es : List Event) (m : Machine) : Prop where
  /-- Whatever is remembered, it does not keep them from going on. -/
  passes : ∀ (n : Nat) (c : Caller), m.callers[n]? = some c → c.force = true →
    c.phase = .entering →
      m.step (.move n .check) = some (m.setPhase n (.checked m.store.generation))
  /-- Who is done with an answer has that of a request that came back after the caller looked. -/
  answer : ∀ (n : Nat) (c : Caller) (l : Lookup), m.callers[n]? = some c → c.force = true →
    c.phase = .finished (some l) → ∃ es₁ es₂ mv es₃ m₁ m₂ m₃ m₄ f,
      es = es₁ ++ .move n .check :: (es₂ ++ .move n mv :: es₃) ∧
        Looked (start cfg) n es₁ es₂ m₁ m₂ m₃ ∧ Supplied n c.org l f es₂ mv m₁ m₂ m₃ m₄
  /-- It sent a request exactly if the answer was not remembered. -/
  sends : ∀ (n : Nat) (c : Caller) (l : Lookup), m.callers[n]? = some c → c.force = true →
    c.phase = .finished (some l) →
      ((∃ about, .sent n about ∈ (start cfg).history es) ↔ l.hit = false)
  /-- Who finds with the lock that a request came back after it looked, takes its outcome while it
  is fresh and remembered, and sends none, now or later. -/
  shares : ∀ (n : Nat) (c : Caller) (seen lock : Nat) (es₁ es₂ : List Event) (m₁ m₂ : Machine)
    (f : Fetch), m.callers[n]? = some c → c.force = true → c.phase = .holding seen lock →
      es = es₁ ++ .move n .check :: es₂ → Looked (start cfg) n es₁ es₂ m₁ m₂ m →
      (m₂.fetches es₂ c.org).getLast? = some f → m.now < f.time + cfg.ttl →
      m.store.entries.contains c.org = true →
        ∃ m' l, m.step (.move n .recheck) = some m' ∧ l.hit = true ∧ l.Tells f.outcome ∧
          ∀ es' m'', m'.run es' = some m'' → m''.given? n = some l ∧
            ∀ about, .sent n about ∉ (start cfg).history (es ++ .move n .recheck :: es')

theorem supplied_of_run (h : (start cfg).run es = some m)
    (hwrap : ((start cfg).storedOrgs es).length < Store.generations)
    (hc : m.callers[n]? = some c) (hforce : c.force = true) (hl : c.phase.answer? = some l) :
    ∃ es₁ es₂ mv es₃ m₁ m₂ m₃ m₄ f, es = es₁ ++ .move n .check :: (es₂ ++ .move n mv :: es₃) ∧
      Looked (start cfg) n es₁ es₂ m₁ m₂ m₃ ∧ Supplied n c.org l f es₂ mv m₁ m₂ m₃ m₄ := by
  obtain ⟨es', mv, es₃, m₃, m₄, c₃, p, rfl, h₃, hs, hc₃, horg, hforce₃, ht, hnone, hafter, hp⟩ :=
    exists_turn_of_answer? h hc hl
  rw [← hforce₃] at hforce
  have hturn := ht.answer_of_force hforce ((given?_eq hc₃).symm.trans hnone) hp
  -- Before it gets the answer the caller has looked.
  have hpast : c₃.phase ≠ .entering := by
    rcases hturn with ⟨_, _, hq, -⟩ | ⟨_, _, hq, -⟩ <;> simp [hq]
  obtain ⟨es₁, es₂, m₁, m₂, rfl, hlooked⟩ := exists_looked h₃ hc₃ hpast
  have hshort : ((start cfg).storedOrgs (es₁ ++ .move n .check :: es₂)).length <
      Store.generations := by
    rw [storedOrgs_append h₃, List.length_append] at hwrap
    omega
  have hseen := hlooked.eq_setPhase hc₃ hforce
  refine ⟨es₁, es₂, mv, es₃, m₁, m₂, m₃, m₄, ?_⟩
  rw [← horg]
  rcases hturn with ⟨seen, lock, hq, rfl, hlook⟩ | ⟨lock, o, hq, rfl, rfl⟩
  · -- It finds what came in since.
    obtain rfl := (hlooked.seen_eq hc₃).2 seen (by rw [hq]; rfl)
    obtain ⟨f, hf, htells, hhit, hcaller, hfresh⟩ := hlooked.last_of_lookup? hshort hnone hlook
    have hlast := fetches_concat_of_ne hlooked.after (step_of_step hs) (by simp) c₃.org
    have httl : m₃.config.ttl = cfg.ttl := congrArg Config.ttl (config_of_run h₃)
    exact ⟨f, by simp, hlooked,
      { seen := hseen
        step := hs
        before := hnone
        after := hafter
        last := hlast ▸ hf
        tells := htells
        own := by simp [hhit]
        other := fun _ ↦ ⟨hcaller, List.mem_of_getLast? hf, httl ▸ hfresh⟩ }⟩
  · -- Its own request comes back.
    have hlast := fetches_concat_store hlooked.after (step_of_step hs) hc₃ c₃.org
    rw [if_pos rfl] at hlast
    exact ⟨⟨n, c₃.org, o, m₃.now⟩, by simp, hlooked,
      { seen := hseen
        step := hs
        before := hnone
        after := hafter
        last := by rw [hlast]; exact List.getLast?_concat
        tells := Lookup.tells_of_eq rfl rfl
        own := fun _ ↦ ⟨rfl, rfl⟩
        other := by simp }⟩

/-- A caller that has an answer keeps it. -/
theorem given?_of_run (h : m₀.run es = some m) (hl : m₀.given? n = some l) :
    m.given? n = some l :=
  run_induction (P := fun _ m ↦ m.given? n = some l) hl
    (fun _ _ _ _ _ ih hs ↦ given?_keeps hs ih) h

/-- A caller that has an answer sent a request exactly if the answer was not remembered. -/
theorem sent_iff_of_given? (h : (start cfg).run es = some m) (hl : m.given? n = some l) :
    (∃ about, .sent n about ∈ (start cfg).history es) ↔ l.hit = false := by
  obtain ⟨c, hc, hans⟩ := exists_caller_of_given? hl
  rw [sent_iff_of_run h hc (asked?_of_answer? hans), Bool.not_eq_true']

/-- **Who needs a later outcome gets one.** Whatever the callers do, as long as the generations,
numbers of 64 bits, have not wrapped around. -/
theorem forced_of_run (cfg : Config) (es : List Event) (m : Machine)
    (h : (start cfg).run es = some m)
    (hwrap : ((start cfg).storedOrgs es).length < Store.generations) : Forced cfg es m where
  passes n c hc hforce hp := step_of_rule (.miss hc hp (.inl hforce))
  answer n c l hc hforce hp := supplied_of_run h hwrap hc hforce (by rw [hp]; rfl)
  sends n c l hc hforce hp := by
    refine sent_iff_of_given? h ?_
    rw [given?_eq hc, hp]
    rfl
  shares n c seen lock es₁ es₂ m₁ m₂ f hc hforce hp hes hlooked hf hfresh hkept := by
    subst hes
    obtain ⟨l, hlook, hhit, htells⟩ := hlooked.lookup?_of_last hwrap hf hfresh hkept
    obtain rfl := (hlooked.seen_eq hc).2 seen (by rw [hp]; rfl)
    have hshare := step_of_rule (.share hc hp (by rw [if_pos hforce]; exact hlook))
    refine ⟨_, l, hshare, hhit, htells, fun es' m'' hrun ↦ ?_⟩
    have hgiven : m''.given? n = some l :=
      given?_of_run hrun (given?_eq (getElem?_setPhase_self hc _))
    have hall : (start cfg).run (es₁ ++ .move n .check :: es₂ ++ .move n .recheck :: es') =
        some m'' := by
      rw [run_append, h, Option.bind_some, run_cons, hshare]
      exact hrun
    refine ⟨hgiven, fun about hmem ↦ ?_⟩
    have hnot := (sent_iff_of_given? hall hgiven).1 ⟨about, hmem⟩
    exact absurd (hhit.symm.trans hnot) (by simp)

/-- An outcome comes in, and while it is fresh two callers come that need a later one. The first
sends its request, the second waits for the lock and then reads what came in. -/
def forcedTogether : List Event :=
  visit 0 "a" false ++ [.tick 5, .call "a" true, .call "a" true, .move 1 .check, .move 2 .check,
    .move 1 .join, .move 2 .join, .move 1 .acquire, .move 2 .acquire, .move 1 .recheck,
    .move 1 .fetch, .tick 7, .move 1 (.store (.ok .empty)), .move 1 .unlock, .move 1 .leave,
    .move 2 .recheck, .move 2 .unlock, .move 2 .leave]

theorem forced_forcedTogether : ∃ m, (start ⟨1000, 2⟩).run forcedTogether = some m ∧
    ((start ⟨1000, 2⟩).storedOrgs forcedTogether).length < Store.generations ∧
    m.answer? 1 = some ⟨.empty, 200, false⟩ ∧ m.answer? 2 = some ⟨.empty, 200, true⟩ ∧
    Forced ⟨1000, 2⟩ forcedTogether m := by
  have hrun : ((start ⟨1000, 2⟩).run forcedTogether).any (fun m ↦
      m.answer? 1 = some ⟨.empty, 200, false⟩ ∧ m.answer? 2 = some ⟨.empty, 200, true⟩) = true := by
    decide
  have hwrap : ((start ⟨1000, 2⟩).storedOrgs forcedTogether).length < Store.generations := by
    decide
  obtain ⟨m, hm, hq⟩ := (Option.any_eq_true _ _).1 hrun
  obtain ⟨hfirst, hsecond⟩ := of_decide_eq_true hq
  exact ⟨m, hm, hwrap, hfirst, hsecond, forced_of_run _ _ _ hm hwrap⟩

end Machine

end Licensing.Cache
