import Licensing.Proofs.Cache.Eviction
import Licensing.Proofs.Cache.Register

/-!
# What came in last is remembered

As long as generations do not wrap around, the generation of an entry is the number of outcomes
that had come in when its own did (`Ranked`). So generations order the organizations by the last
outcomes about them, and what has to go to make room is what came in first: whoever is remembered,
all about whom something came in later are remembered too. An organization whose last outcome is
still fresh is forgotten only when outcomes about as many others as there is room for came in
after it. The statement is `recent_of_run`.
-/

namespace Licensing.Cache.Machine

variable {m₀ m m' : Machine} {es : List Event} {e : Event} {n : Nat} {c : Caller} {cfg : Config}
  {a b org : String} {ea eb : Entry}

/-! ### Who came in later -/

theorem storedOrgs_concat_of_ne (h : m₀.run es = some m) (hs : Step m e m')
    (he : ∀ n o, e ≠ .move n (.store o)) : m₀.storedOrgs (es ++ [e]) = m₀.storedOrgs es := by
  rw [storedOrgs_concat h hs]
  cases hsig : m.signal? e with
  | none => exact List.append_nil _
  | some s =>
    cases s with
    | returned f =>
      obtain ⟨-, -, -, -, hstore⟩ := signal?_eq_returned hsig
      exact absurd hstore (he _ _)
    | sent | lost => exact List.append_nil _

theorem storedOrgs_concat_store {o : Outcome} (h : m₀.run es = some m)
    (hs : Step m (.move n (.store o)) m') (hc : m.callers[n]? = some c) :
    m₀.storedOrgs (es ++ [.move n (.store o)]) = m₀.storedOrgs es ++ [c.org] := by
  rw [storedOrgs_concat h hs, signal?_store hc]
  rfl

theorem storedOrgs_length_lt_of_concat {k : Nat} (h : m₀.run es = some m) (hs : Step m e m')
    (hk : (m₀.storedOrgs (es ++ [e])).length < k) : (m₀.storedOrgs es).length < k := by
  rw [storedOrgs_concat h hs, List.length_append] at hk
  omega

theorem newer_concat_of_ne (h : m₀.run es = some m) (hs : Step m e m')
    (he : ∀ n o, e ≠ .move n (.store o)) (org : String) :
    m₀.newer (es ++ [e]) org = m₀.newer es org := by
  rw [newer, storedOrgs_concat_of_ne h hs he, newer]

/-- What comes in about one organization is newer than what came in about the others. -/
theorem newer_concat_store {o : Outcome} (h : m₀.run es = some m)
    (hs : Step m (.move n (.store o)) m') (hc : m.callers[n]? = some c) (org : String) :
    m₀.newer (es ++ [.move n (.store o)]) org =
      if c.org = org then [] else c.org :: m₀.newer es org := by
  rw [newer, storedOrgs_concat_store h hs hc, List.reverse_concat, List.takeWhile_cons, newer]
  by_cases horg : c.org = org <;> simp [horg]

theorem length_takeWhile_ne (l : List String) (a : String) :
    (l.takeWhile (· ≠ a)).length = l.idxOf a := by
  induction l with
  | nil => rfl
  | cons x l ih =>
    by_cases hx : x = a
    · simp [hx]
    · simpa [hx, List.idxOf_cons] using ih

theorem takeWhile_ne_eq_take (l : List String) (a : String) :
    l.takeWhile (· ≠ a) = l.take (l.idxOf a) := by
  rw [← length_takeWhile_ne]
  exact (List.prefix_iff_eq_take).1 (List.takeWhile_prefix _)

/-- An outcome about one organization came in after the last one about another exactly if fewer
came in after its own last. -/
theorem mem_newer_iff (ha : a ∈ m.storedOrgs es) :
    a ∈ m.newer es b ↔ (m.newer es a).length < (m.newer es b).length := by
  rw [newer, newer, length_takeWhile_ne, length_takeWhile_ne, takeWhile_ne_eq_take]
  exact List.mem_take_iff_idxOf_lt (List.mem_reverse.2 ha)

/-- Last outcomes came in one after another. -/
theorem newer_length_inj (ha : a ∈ m.storedOrgs es)
    (h : (m.newer es a).length = (m.newer es b).length) : a = b := by
  rw [newer, newer, length_takeWhile_ne, length_takeWhile_ne] at h
  exact (List.idxOf_inj (List.mem_reverse.2 ha)).1 h

/-! ### The invariant -/

/-- The generation of an entry says how many outcomes came in before it. -/
structure Ranked (m₀ : Machine) (es : List Event) (m : Machine) : Prop where
  /-- The last generation is the number of outcomes that came in. -/
  generation_eq : m.store.generation = (m₀.storedOrgs es).length
  /-- An entry was the last to come in but for those that are newer. -/
  rank : ∀ org e, m.store.entries.get? org = some e → org ∈ m₀.storedOrgs es ∧
    e.generation + (m₀.newer es org).length = (m₀.storedOrgs es).length

theorem ranked_start (cfg : Config) : Ranked (start cfg) [] (start cfg) where
  generation_eq := rfl
  rank org e he := absurd he (by simp [start, Store.empty])

/-- **Generations count the outcomes**, as long as they do not wrap around. The generation of an
entry is then the place of its outcome among all that came in. -/
theorem Ranked.step (h : Ranked m₀ es m) (hrun : m₀.run es = some m) (hs : Step m e m')
    (hwrap : (m₀.storedOrgs (es ++ [e])).length < Store.generations) :
    Ranked m₀ (es ++ [e]) m' := by
  rcases store_of_step hs with ⟨hstore, hne⟩ | ⟨n, c, lock, o, rfl, hc, -, hstore⟩
  · constructor
    · rw [hstore, storedOrgs_concat_of_ne hrun hs hne]
      exact h.generation_eq
    · rw [hstore, storedOrgs_concat_of_ne hrun hs hne]
      intro org e he
      rw [newer_concat_of_ne hrun hs hne]
      exact h.rank org e he
  · have hlength : (m₀.storedOrgs (es ++ [.move n (.store o)])).length =
        (m₀.storedOrgs es).length + 1 := by
      rw [storedOrgs_concat_store hrun hs hc, List.length_append, List.length_singleton]
    -- The new generation has not wrapped around.
    have hgen : (m.store.generation + 1) % Store.generations = (m₀.storedOrgs es).length + 1 := by
      rw [h.generation_eq]
      exact Nat.mod_eq_of_lt (hlength ▸ hwrap)
    constructor
    · rw [hstore, hlength]
      exact hgen
    · intro org e he
      rw [hstore] at he
      rw [hlength, newer_concat_store hrun hs hc, storedOrgs_concat_store hrun hs hc]
      by_cases horg : c.org = org
      · subst horg
        rw [Store.record, OrderedMap.get?_insert_self] at he
        obtain rfl := Option.some.inj he
        rw [if_pos rfl]
        exact ⟨List.mem_append_right _ (List.mem_singleton_self _), hgen⟩
      · obtain ⟨hmem, hrank⟩ := h.rank org e (Store.get?_record_of_ne horg he)
        rw [if_neg horg, List.length_cons]
        exact ⟨List.mem_append_left _ hmem, by omega⟩

theorem ranked_of_run (h : (start cfg).run es = some m)
    (hwrap : ((start cfg).storedOrgs es).length < Store.generations) :
    Ranked (start cfg) es m := by
  refine run_induction (P := fun es m ↦
    ((start cfg).storedOrgs es).length < Store.generations → Ranked (start cfg) es m)
    (fun _ ↦ ranked_start cfg) (fun es e m m' hrun ih hs hwrap ↦ ?_) h hwrap
  exact (ih (storedOrgs_length_lt_of_concat hrun hs hwrap)).step hrun hs hwrap

/-- Generations tell organizations apart. -/
theorem Ranked.eq_of_generation_eq (h : Ranked m₀ es m)
    (ha : m.store.entries.get? a = some ea) (hb : m.store.entries.get? b = some eb)
    (heq : ea.generation = eb.generation) : a = b := by
  obtain ⟨hmem, hranka⟩ := h.rank a ea ha
  obtain ⟨-, hrankb⟩ := h.rank b eb hb
  exact newer_length_inj hmem (by omega)

/-- The later generation is that of what came in later. -/
theorem Ranked.generation_lt_iff (h : Ranked m₀ es m)
    (ha : m.store.entries.get? a = some ea) (hb : m.store.entries.get? b = some eb) :
    ea.generation < eb.generation ↔ b ∈ m₀.newer es a := by
  obtain ⟨-, hranka⟩ := h.rank a ea ha
  obtain ⟨hmem, hrankb⟩ := h.rank b eb hb
  rw [mem_newer_iff hmem]
  omega

/-! ### Times -/

theorem since_le_of_run (h : (start cfg).run es = some m)
    (ha : m.store.entries.get? a = some ea) : ea.since ≤ m.now := by
  obtain ⟨f, hf, -, -, hsince⟩ := exists_lastFetch?_of_run h ha
  rw [hsince]
  exact time_le_of_mem_fetches h f (List.mem_of_getLast? hf)

/-- What is of a later generation did not come in earlier. -/
theorem since_le_of_generation_le (h : (start cfg).run es = some m)
    (hwrap : ((start cfg).storedOrgs es).length < Store.generations)
    (ha : m.store.entries.get? a = some ea) (hb : m.store.entries.get? b = some eb)
    (hle : ea.generation ≤ eb.generation) : ea.since ≤ eb.since := by
  refine run_induction (P := fun es m ↦ ((start cfg).storedOrgs es).length < Store.generations →
    ∀ a b ea eb, m.store.entries.get? a = some ea → m.store.entries.get? b = some eb →
      ea.generation ≤ eb.generation → ea.since ≤ eb.since) ?_ ?_ h hwrap a b ea eb ha hb hle
  · intro _ a b ea eb ha
    exact absurd ha (by simp [start, Store.empty])
  · intro es e m m' hrun ih hs hwrap a b ea eb ha hb hle
    have hshort := storedOrgs_length_lt_of_concat hrun hs hwrap
    have hranked := ranked_of_run hrun hshort
    rcases store_of_step hs with ⟨hstore, -⟩ | ⟨n, c, lock, o, rfl, hc, -, hstore⟩
    · rw [hstore] at ha hb
      exact ih hshort a b ea eb ha hb hle
    · have hrun' : (start cfg).run (es ++ [.move n (.store o)]) = some m' :=
        run_concat_iff.2 ⟨m, hrun, step_of_rule hs⟩
      by_cases hcb : c.org = b
      · -- What comes in now did not come in before anything else.
        have hnow : eb.since = m'.now := by
          subst hcb
          rw [hstore, Store.record, OrderedMap.get?_insert_self] at hb
          obtain rfl := Option.some.inj hb
          cases hs with
          | record => rfl
        rw [hnow]
        exact since_le_of_run hrun' ha
      · by_cases hca : c.org = a
        · -- What comes in now is of the last generation.
          have hlt : eb.generation < ea.generation := by
            refine ((ranked_of_run hrun' hwrap).generation_lt_iff hb ha).2 ?_
            rw [newer_concat_store hrun hs hc, if_neg hcb, hca]
            exact List.mem_cons_self
          omega
        · rw [hstore] at ha hb
          exact ih hshort a b ea eb (Store.get?_record_of_ne hca ha)
            (Store.get?_record_of_ne hcb hb) hle

/-! ### What stays -/

/-- **Room.** There are never more entries than there is room for. -/
theorem size_le_of_run (h : (start cfg).run es = some m) : m.store.entries.size ≤ cfg.room := by
  refine run_induction (P := fun _ m ↦ m.store.entries.size ≤ cfg.room) (Nat.zero_le _) ?_ h
  intro es e m m' hrun ih hs
  rcases store_of_step hs with ⟨hstore, -⟩ | ⟨n, c, lock, o, rfl, hc, -, hstore⟩
  · rwa [hstore]
  · have hcfg : m.config = cfg := config_of_run hrun
    rw [hstore, hcfg]
    exact Store.size_record_le o ih

/-- What goes when an outcome comes in: nothing that is newer than something that stays. -/
theorem get?_record_of_newer {o : Outcome} (h : (start cfg).run es = some m)
    (hwrap : ((start cfg).storedOrgs es).length < Store.generations)
    (ha : (m.store.record m.config m.now org o).1.entries.get? a = some ea) (hne : org ≠ a)
    (hb : m.store.entries.get? b = some eb) (hnewer : b ∈ (start cfg).newer es a) :
    ∃ e, (m.store.record m.config m.now org o).1.entries.get? b = some e := by
  by_cases horg : org = b
  · subst horg
    exact ⟨_, OrderedMap.get?_insert_self _ _ _⟩
  · have hold := Store.get?_record_of_ne hne ha
    have hlt := ((ranked_of_run h hwrap).generation_lt_iff hold hb).2 hnewer
    have hsince := since_le_of_generation_le h hwrap hold hb hlt.le
    rw [Store.record, OrderedMap.get?_insert_of_ne _ _ hne] at ha
    rw [Store.record, OrderedMap.get?_insert_of_ne _ _ horg]
    refine Option.ne_none_iff_exists'.1 fun hgone ↦ ?_
    -- What stays is fresh, so what came in later is fresh too, and would not have gone.
    obtain ⟨-, hfresh, hfull⟩ := Store.dropped_of_makeRoom hb hgone
    have hage := hfresh a ea ha
    have hle := (hfull (by omega)).2 a ea ha
    omega

/-- **Whoever is remembered, everyone who came in later is remembered too.** What has to go is what
came in first, so no later one goes before it. -/
theorem newer_remembered_of_run (h : (start cfg).run es = some m)
    (hwrap : ((start cfg).storedOrgs es).length < Store.generations)
    (ha : m.store.entries.get? a = some ea) (hnewer : b ∈ (start cfg).newer es a) :
    ∃ e, m.store.entries.get? b = some e := by
  refine run_induction (P := fun es m ↦ ((start cfg).storedOrgs es).length < Store.generations →
    ∀ a b ea, m.store.entries.get? a = some ea → b ∈ (start cfg).newer es a →
      ∃ e, m.store.entries.get? b = some e) ?_ ?_ h hwrap a b ea ha hnewer
  · intro _ a b ea ha
    exact absurd ha (by simp [start, Store.empty])
  · intro es e m m' hrun ih hs hwrap a b ea ha hnewer
    have hshort := storedOrgs_length_lt_of_concat hrun hs hwrap
    rcases store_of_step hs with ⟨hstore, hne⟩ | ⟨n, c, lock, o, rfl, hc, -, hstore⟩
    · rw [hstore] at ha ⊢
      rw [newer_concat_of_ne hrun hs hne] at hnewer
      exact ih hshort a b ea ha hnewer
    · rw [hstore] at ha ⊢
      rw [newer_concat_store hrun hs hc] at hnewer
      by_cases hca : c.org = a
      · rw [if_pos hca] at hnewer
        exact absurd hnewer (by simp)
      · rw [if_neg hca] at hnewer
        rcases List.mem_cons.1 hnewer with rfl | hnewer
        · exact ⟨_, OrderedMap.get?_insert_self _ _ _⟩
        · obtain ⟨eb, hb⟩ := ih hshort a b ea (Store.get?_record_of_ne hca ha) hnewer
          exact get?_record_of_newer hrun hshort ha hca hb hnewer

/-- Whoever has to go while still fresh makes room for as many as there is room for. -/
theorem room_le_of_dropped {o : Outcome} (h : (start cfg).run es = some m)
    (hwrap : ((start cfg).storedOrgs es).length < Store.generations) (hne : org ≠ a)
    (ha : m.store.entries.get? a = some ea) (hfresh : m.now - ea.since < cfg.ttl)
    (hgone : (m.store.record m.config m.now org o).1.entries.get? a = none) :
    cfg.room ≤ (org :: (start cfg).newer es a).toFinset.card := by
  have hcfg : m.config = cfg := config_of_run h
  have hranked := ranked_of_run h hwrap
  rw [Store.record, OrderedMap.get?_insert_of_ne _ _ hne, hcfg] at hgone
  obtain ⟨hnew, -, hfull⟩ := Store.dropped_of_makeRoom ha hgone
  obtain ⟨hroom, hle⟩ := hfull hfresh
  -- What stays came in later than what goes, and is not what comes in now.
  have hstay : ∀ b ∈ (Store.makeRoom cfg m.now org m.store.entries).keys.toFinset,
      b ≠ org ∧ b ∈ (start cfg).newer es a := by
    intro b hmem
    obtain ⟨eb, hb⟩ := (OrderedMap.mem_keys_iff _).1 (List.mem_toFinset.1 hmem)
    have hold := Store.get?_makeRoom hb
    refine ⟨?_, (hranked.generation_lt_iff ha hold).1 (lt_of_le_of_ne (hle b eb hb) fun heq ↦ ?_)⟩
    · rintro rfl
      rw [OrderedMap.contains, hold] at hnew
      exact absurd hnew (by simp)
    · obtain rfl := hranked.eq_of_generation_eq ha hold heq
      exact absurd (hgone.symm.trans hb) (by simp)
  have hsub : insert org (Store.makeRoom cfg m.now org m.store.entries).keys.toFinset ⊆
      (org :: (start cfg).newer es a).toFinset := by
    rw [List.toFinset_cons]
    exact Finset.insert_subset_insert _ fun b hmem ↦ List.mem_toFinset.2 (hstay b hmem).2
  have hcard := Finset.card_le_card hsub
  rw [Finset.card_insert_of_notMem fun hmem ↦ (hstay org hmem).1 rfl, OrderedMap.card_keys] at hcard
  exact hroom.trans hcard

/-- **Who is forgotten** although the last outcome is still fresh had to make room for as many
others as there is room for. -/
theorem room_le_of_forgotten (h : (start cfg).run es = some m)
    (hwrap : ((start cfg).storedOrgs es).length < Store.generations) {f : Fetch}
    (hf : (start cfg).lastFetch? es org = some f) (hfresh : m.now < f.time + cfg.ttl)
    (hnone : m.store.entries.get? org = none) :
    cfg.room ≤ ((start cfg).newer es org).toFinset.card := by
  refine run_induction (P := fun es m ↦ ((start cfg).storedOrgs es).length < Store.generations →
    (start cfg).lastFetch? es org = some f → m.now < f.time + cfg.ttl →
      m.store.entries.get? org = none → cfg.room ≤ ((start cfg).newer es org).toFinset.card)
    ?_ ?_ h hwrap hf hfresh hnone
  · intro _ hf
    exact absurd hf (by simp [lastFetch?, fetches])
  · intro es e m m' hrun ih hs hwrap hf hfresh hnone
    have hshort := storedOrgs_length_lt_of_concat hrun hs hwrap
    have hbefore : m.now < f.time + cfg.ttl := (now_le_of_step hs).trans_lt hfresh
    rcases store_of_step hs with ⟨hstore, hne⟩ | ⟨n, c, lock, o, rfl, hc, -, hstore⟩
    · rw [lastFetch?, fetches_concat_of_ne hrun hs hne] at hf
      rw [hstore] at hnone
      rw [newer_concat_of_ne hrun hs hne]
      exact ih hshort hf hbefore hnone
    · rw [hstore] at hnone
      by_cases horg : c.org = org
      · -- What has just come in is remembered.
        rw [Store.record, horg, OrderedMap.get?_insert_self] at hnone
        exact absurd hnone (by simp)
      · rw [lastFetch?, fetches_concat_store hrun hs hc, if_neg horg, List.append_nil] at hf
        rw [newer_concat_store hrun hs hc, if_neg horg]
        cases hget : m.store.entries.get? org with
        | none =>
          have hroom := ih hshort hf hbefore hget
          refine hroom.trans (Finset.card_le_card ?_)
          rw [List.toFinset_cons]
          exact Finset.subset_insert _ _
        | some entry =>
          obtain ⟨g, hg, -, -, hsince⟩ := exists_lastFetch?_of_run hrun hget
          obtain rfl := Option.some.inj (hg.symm.trans hf)
          have htime := time_le_of_mem_fetches hrun g (List.mem_of_getLast? hg)
          exact room_le_of_dropped hrun hshort horg hget (by omega) hnone

/-! ### Hits -/

theorem signal?_eq_sent (h : m.signal? e = some (.sent n org)) : e = .move n .fetch := by
  unfold signal? at h
  split at h
  · obtain ⟨c, -, hc⟩ := Option.map_eq_some_iff.1 h
    obtain ⟨rfl, -⟩ := Signal.sent.inj hc
    rfl
  · simp at h
  · split at h <;> simp at h
  · exact absurd h (by simp)

/-- Who is done stays so, and sends no request. -/
theorem finished_of_run {answer : Option Lookup} (hc : m₀.callers[n]? = some c)
    (hp : c.phase = .finished answer) (h : m₀.run es = some m) :
    m.answer? n = answer ∧ ∀ org, .sent n org ∉ m₀.history es := by
  suffices hall : (∃ c, m.callers[n]? = some c ∧ c.phase = .finished answer) ∧
      ∀ org, .sent n org ∉ m₀.history es by
    obtain ⟨⟨c, hc, hp⟩, hquiet⟩ := hall
    refine ⟨?_, hquiet⟩
    rw [answer?, phase?, hc, Option.map_some, hp]
  refine run_induction (P := fun es m ↦ (∃ c, m.callers[n]? = some c ∧
    c.phase = .finished answer) ∧ ∀ org, .sent n org ∉ m₀.history es) ⟨⟨c, hc, hp⟩, by simp⟩ ?_ h
  rintro es e m m' hrun ⟨⟨c, hc, hp⟩, hquiet⟩ hs
  obtain ⟨c', hc', -, -, hb⟩ := exists_caller_of_step hs hc
  refine ⟨⟨c', hc', hb.finished hp⟩, fun org hmem ↦ ?_⟩
  rw [history_concat hrun hs, List.mem_append, Option.mem_toList] at hmem
  rcases hmem with hmem | hsig
  · exact hquiet org hmem
  · -- Only a caller that has found no answer sends a request.
    obtain rfl := signal?_eq_sent hsig
    cases hs with
    | send hc₁ hp₁ =>
      obtain rfl := Option.some.inj (hc.symm.trans hc₁)
      exact absurd (hp.symm.trans hp₁) (by simp)

/-- An answer that a caller came back with stays its answer. -/
theorem answer?_of_run {l : Lookup} (h : m₀.run es = some m) (hl : m₀.answer? n = some l) :
    m.answer? n = some l := by
  obtain ⟨c, hc, hp⟩ : ∃ c, m₀.callers[n]? = some c ∧ c.phase = .finished (some l) := by
    unfold answer? at hl
    split at hl
    · rename_i answer hphase
      obtain ⟨c, hc, hp⟩ := Option.map_eq_some_iff.1 hphase
      exact ⟨c, hc, hl ▸ hp⟩
    · cases hl
  exact (finished_of_run hc hp h).1

/-- A caller reads an answer and sends no request, now or later. -/
def Hits (m : Machine) (n : Nat) (f : Fetch) : Prop :=
  ∃ m' l, m.step (.move n .check) = some m' ∧ l.hit = true ∧ l.Tells f.outcome ∧
    ∀ es m'', m.run (.move n .check :: es) = some m'' →
      m''.answer? n = some l ∧ ∀ org, .sent n org ∉ m.history (.move n .check :: es)

/-- Who looks while the last outcome is remembered and fresh reads it. -/
theorem hits_of_remembered (h : (start cfg).run es = some m) {f : Fetch}
    (hf : (start cfg).lastFetch? es org = some f) (hfresh : m.now < f.time + cfg.ttl)
    (hentry : m.store.entries.get? org = some ea) (hc : m.callers[n]? = some c)
    (horg : c.org = org) (hforce : c.force = false) (hp : c.phase = .entering) :
    Hits m n f := by
  obtain ⟨g, hg, hsnap, hstatus, hsince⟩ := exists_lastFetch?_of_run h hentry
  obtain rfl := Option.some.inj (hf.symm.trans hg)
  have hcfg : m.config.ttl = cfg.ttl := congrArg Config.ttl (config_of_run h)
  have htime := time_le_of_mem_fetches h f (List.mem_of_getLast? hf)
  have hlook : m.lookup? c.org none = some ⟨ea.snapshot, ea.status, true⟩ :=
    lookup?_eq_some_iff.2 ⟨ea, horg ▸ hentry, by omega, rfl, rfl⟩
  have hstep := step_of_rule (.hit hc hp hforce hlook)
  refine ⟨_, ⟨ea.snapshot, ea.status, true⟩, hstep, rfl, Lookup.tells_of_eq hsnap hstatus,
    fun es m'' hrun ↦ ?_⟩
  rw [run_cons, hstep] at hrun
  rw [history_cons hstep]
  exact finished_of_run (getElem?_setPhase_self hc _) rfl hrun

/-! ### The main statement -/

/-- What is remembered is what came in last. -/
structure Recent (cfg : Config) (es : List Event) (m : Machine) : Prop where
  /-- No two organizations have one generation. -/
  generation_ne : ∀ a b ea eb, m.store.entries.get? a = some ea →
    m.store.entries.get? b = some eb → a ≠ b → ea.generation ≠ eb.generation
  /-- The later generation is that of what came in later. -/
  generation_lt_iff : ∀ a b ea eb, m.store.entries.get? a = some ea →
    m.store.entries.get? b = some eb →
      (ea.generation < eb.generation ↔ b ∈ (start cfg).newer es a)
  /-- Generations are ordered like the times at which the outcomes came in. -/
  since_le : ∀ a b ea eb, m.store.entries.get? a = some ea →
    m.store.entries.get? b = some eb → ea.generation < eb.generation → ea.since ≤ eb.since
  /-- And the times like the generations. -/
  generation_lt : ∀ a b ea eb, m.store.entries.get? a = some ea →
    m.store.entries.get? b = some eb → ea.since < eb.since → ea.generation < eb.generation
  /-- With an organization everyone is remembered about whom something came in later. -/
  newer_remembered : ∀ a b, m.store.entries.contains a = true →
    b ∈ (start cfg).newer es a → m.store.entries.contains b = true
  /-- An organization whose last outcome is fresh is forgotten only when outcomes about as many
  others as there is room for came in later. -/
  forgotten : ∀ org f, (start cfg).lastFetch? es org = some f → m.now < f.time + cfg.ttl →
    m.store.entries.contains org = false → cfg.room ≤ ((start cfg).newer es org).toFinset.card
  /-- As long as that is not so, whoever looks reads the last outcome and sends no request. -/
  hits : ∀ org f, (start cfg).lastFetch? es org = some f → m.now < f.time + cfg.ttl →
    ((start cfg).newer es org).toFinset.card < cfg.room → ∀ (n : Nat) (c : Caller),
      m.callers[n]? = some c → c.org = org → c.force = false → c.phase = .entering → Hits m n f

/-- **What is remembered is what came in last.** In every state that can be reached there are no
more entries than there is room for. Until the generations, numbers of 64 bits, have wrapped
around, what has to go is what came in first. -/
theorem recent_of_run (cfg : Config) (es : List Event) (m : Machine)
    (h : (start cfg).run es = some m) : m.store.entries.size ≤ cfg.room ∧
      (((start cfg).storedOrgs es).length < Store.generations → Recent cfg es m) := by
  refine ⟨size_le_of_run h, fun hwrap ↦ ?_⟩
  have hranked := ranked_of_run h hwrap
  refine
    { generation_ne := fun a b ea eb ha hb hne heq ↦ hne (hranked.eq_of_generation_eq ha hb heq)
      generation_lt_iff := fun a b ea eb ha hb ↦ hranked.generation_lt_iff ha hb
      since_le := fun a b ea eb ha hb hlt ↦ since_le_of_generation_le h hwrap ha hb hlt.le
      generation_lt := fun a b ea eb ha hb hlt ↦ ?_
      newer_remembered := fun a b ha hnewer ↦ ?_
      forgotten := fun org f hf hfresh hnot ↦ ?_
      hits := fun org f hf hfresh hcard n c hc horg hforce hp ↦ ?_ }
  · by_contra hge
    have hle := since_le_of_generation_le h hwrap hb ha (Nat.le_of_not_lt hge)
    omega
  · obtain ⟨ea, ha⟩ := (OrderedMap.contains_eq_true_iff _).1 ha
    exact (OrderedMap.contains_eq_true_iff _).2 (newer_remembered_of_run h hwrap ha hnewer)
  · exact room_le_of_forgotten h hwrap hf hfresh (by simpa [OrderedMap.contains] using hnot)
  · cases hget : m.store.entries.get? org with
    | none =>
      have hroom := room_le_of_forgotten h hwrap hf hfresh hget
      omega
    | some entry => exact hits_of_remembered h hf hfresh hget hc horg hforce hp

/-- A caller that comes, finds no answer and brings one, when there are no others. -/
def visit (n : Nat) (org : String) (force : Bool) : List Event :=
  [.call org force, .move n .check, .move n .join, .move n .acquire, .move n .recheck,
    .move n .fetch, .move n (.store (.ok .empty)), .move n .unlock, .move n .leave]

/-- Two organizations fill the room, the first is asked for again, and then a third one comes. -/
def refreshed : List Event :=
  visit 0 "a" false ++ .tick 1 :: visit 1 "b" false ++ .tick 1 :: visit 2 "a" true ++
    .tick 1 :: visit 3 "c" false

/-- The second has to go, although the first came before it. -/
theorem recent_refreshed : ∃ m, (start ⟨1000, 2⟩).run refreshed = some m ∧
    (start ⟨1000, 2⟩).storedOrgs refreshed = ["a", "b", "a", "c"] ∧
    m.store.entries.keys = ["a", "c"] ∧ Recent ⟨1000, 2⟩ refreshed m := by
  have hrun : ((start ⟨1000, 2⟩).run refreshed).any
      (fun m ↦ m.store.entries.keys = ["a", "c"]) = true := by decide
  have hstored : (start ⟨1000, 2⟩).storedOrgs refreshed = ["a", "b", "a", "c"] := by decide
  obtain ⟨m, hm, hq⟩ := (Option.any_eq_true _ _).1 hrun
  refine ⟨m, hm, hstored, of_decide_eq_true hq, (recent_of_run _ _ _ hm).2 ?_⟩
  rw [hstored]
  decide

end Licensing.Cache.Machine
