import Licensing.Cache.Restriction
import Licensing.Proofs.Cache.Coalescing
import Licensing.Proofs.Cache.View

/-!
# What is left of a run

When the callers about other organizations are left out of a run, what is left of an event is one
of the organization or time that passes (`eq_of_only?`). For the rest of the run to do the same,
it has to stay within bounds (`Fits`): there is room for all that comes in, so that nothing has to
go, and generations do not wrap around, so that what comes in later is of a later one (`Dated`).
-/

namespace Licensing.Cache.Machine

variable {m m' : Machine} {org : String} {n k : Nat} {c : Caller} {e e' : Event}
  {es rest : List Event} {strict : Prop}

/-! ### Generations -/

/-- Nothing is of a later generation than the last one. -/
structure Dated (m : Machine) : Prop where
  /-- What is remembered is not. -/
  entry_le : ∀ org e, m.store.entries.get? org = some e → e.generation ≤ m.store.generation
  /-- What a caller has seen is not. -/
  seen_le : ∀ c ∈ m.callers, ∀ seen, c.phase.seen? = some seen → seen ≤ m.store.generation

theorem dated_start (cfg : Config) : Dated (start cfg) where
  entry_le org e h := absurd h (by simp [start, Store.empty])
  seen_le c h := absurd h (by simp [start])

/-- A caller sees the last generation, or keeps what it has seen. -/
theorem Turn.seen {mv : Move} {p : Phase} {seen : Nat} (ht : Turn m c mv p)
    (hp : p.seen? = some seen) : c.phase.seen? = some seen ∨ seen = m.store.generation := by
  cases ht with
  | miss => exact .inr (Option.some.inj hp).symm
  | join hq | take hq | wait hq => exact .inl (by rw [hq]; exact hp)
  | _ => cases hp

theorem Dated.step (h : Dated m) (hs : Step m e m')
    (hwrap : ∀ n o, e = .move n (.store o) → m.store.generation + 1 < Store.generations) :
    Dated m' ∧ m.store.generation ≤ m'.store.generation := by
  have hseen : ∀ c ∈ m'.callers, ∀ seen, c.phase.seen? = some seen → seen ≤ m.store.generation := by
    intro c hc seen hp
    obtain ⟨k, hk⟩ := List.mem_iff_getElem?.1 hc
    rcases caller_of_step hs hk with ⟨-, -, hnew⟩ | ⟨b, hb, -, -, hbecomes⟩
    · rw [hnew] at hp
      cases hp
    · have hold : ∀ seen, b.phase.seen? = some seen → seen ≤ m.store.generation :=
        h.seen_le b (List.mem_of_getElem? hb)
      rcases hbecomes with heq | ⟨seen', lock, hq, heq⟩ | ⟨mv, -, ht⟩
      · exact hold seen (heq ▸ hp)
      · rw [heq] at hp
        exact hold seen (by rw [hq]; exact hp)
      · rcases ht.seen hp with hp | rfl
        · exact hold seen hp
        · exact le_rfl
  rcases store_of_step hs with ⟨hstore, -⟩ | ⟨n, c, lock, o, rfl, -, -, hstore⟩
  · rw [hstore]
    exact ⟨⟨hstore ▸ h.entry_le, hstore ▸ hseen⟩, le_rfl⟩
  · have hgen : m'.store.generation = m.store.generation + 1 := by
      rw [hstore]
      exact Nat.mod_eq_of_lt (hwrap n o rfl)
    refine ⟨⟨fun about entry he ↦ ?_, fun c hc seen hp ↦ ?_⟩, by omega⟩
    · rw [hgen]
      rw [hstore] at he
      by_cases horg : c.org = about
      · rw [Store.record, horg, OrderedMap.get?_insert_self] at he
        obtain rfl := Option.some.inj he
        exact (Nat.mod_eq_of_lt (hwrap n o rfl)).le
      · exact Nat.le_succ_of_le (h.entry_le about entry (Store.get?_record_of_ne horg he))
    · have hle := hseen c hc seen hp
      omega

/-! ### What a run may not exceed -/

/-- What is left of a run stays within its bounds: there is room for all organizations that come
in, and generations do not wrap around where callers compare them. -/
structure Fits (org : String) (strict : Prop) (m : Machine) (es : List Event) : Prop where
  /-- There is room. -/
  room : (m.orgs es).card ≤ m.config.room
  /-- Callers about the organization compare generations only if this counts. -/
  strict_of_call : Event.call org true ∈ es → strict
  /-- Then generations do not wrap around. -/
  unwrapped : strict → m.store.generation + (m.storedOrgs es).length < Store.generations

theorem storedOrgs_cons (hs : m.step e = some m') :
    m.storedOrgs (e :: es) = (m.signal? e).toList.filterMap Signal.stored? ++ m'.storedOrgs es := by
  rw [storedOrgs, history_cons hs, List.filterMap_append, ← storedOrgs]

theorem storedOrgs_cons_store {o : Outcome} (hs : m.step (.move n (.store o)) = some m')
    (hc : m.callers[n]? = some c) :
    m.storedOrgs (.move n (.store o) :: es) = c.org :: m'.storedOrgs es := by
  rw [storedOrgs_cons hs, signal?_store hc]
  rfl

theorem orgs_subset_cons (hs : m.step e = some m') : m'.orgs es ⊆ m.orgs (e :: es) := by
  intro about hmem
  rw [orgs, List.mem_toFinset, List.mem_append] at hmem ⊢
  rcases hmem with hmem | hmem
  · rcases store_of_step (step_of_step hs) with ⟨hstore, -⟩ | ⟨n, c, lock, o, rfl, hc, -, hstore⟩
    · exact .inl (hstore ▸ hmem)
    · rw [hstore] at hmem
      rcases List.mem_cons.1 (Store.keys_record_subset o hmem) with rfl | hmem
      · exact .inr (storedOrgs_cons_store hs hc ▸ List.mem_cons_self)
      · exact .inl hmem
  · exact .inr (storedOrgs_cons hs ▸ List.mem_append_right _ hmem)

theorem Fits.tail (h : Fits org strict m (e :: es)) (hs : m.step e = some m') :
    Fits org strict m' es where
  room := by
    rw [config_of_step (step_of_step hs)]
    exact (Finset.card_le_card (orgs_subset_cons hs)).trans h.room
  strict_of_call hmem := h.strict_of_call (List.mem_cons_of_mem _ hmem)
  unwrapped hstrict := by
    have hbound := h.unwrapped hstrict
    rcases store_of_step (step_of_step hs) with ⟨hstore, -⟩ | ⟨n, c, lock, o, rfl, hc, -, hstore⟩
    · rw [storedOrgs_cons hs, List.length_append] at hbound
      rw [hstore]
      omega
    · rw [storedOrgs_cons_store hs hc, List.length_cons] at hbound
      have hgen : m'.store.generation = m.store.generation + 1 := by
        rw [hstore]
        exact Nat.mod_eq_of_lt (by omega)
      omega

/-- The next generation does not wrap around. -/
theorem Fits.generation_lt (h : Fits org strict m (e :: es)) (hs : m.step e = some m')
    (hstrict : strict) : ∀ n o, e = .move n (.store o) →
      m.store.generation + 1 < Store.generations := by
  rintro n o rfl
  rcases store_of_step (step_of_step hs) with ⟨-, hne⟩ | ⟨_, c, lock, o, heq, hc, -, -⟩
  · exact absurd rfl (hne n o)
  · obtain ⟨rfl, -⟩ := Event.move.inj heq
    have hbound := h.unwrapped hstrict
    rw [storedOrgs_cons_store hs hc, List.length_cons] at hbound
    omega

/-- Nothing has to go for what comes in next. -/
theorem Fits.room_of_store {o : Outcome} (h : Fits org strict m (.move n (.store o) :: es))
    (hs : m.step (.move n (.store o)) = some m') (hc : m.callers[n]? = some c) :
    m.store.entries.contains c.org = true ∨ m.store.entries.size < m.config.room := by
  refine room_of_run (run_nil (m := m)) (step_of_step hs) hc ?_
  refine le_trans (Finset.card_le_card fun about hmem ↦ ?_) h.room
  rw [orgs, List.mem_toFinset, List.mem_append] at hmem ⊢
  rw [List.nil_append, storedOrgs_cons_store hs hc] at hmem
  rw [storedOrgs_cons_store hs hc]
  refine hmem.imp_right fun hmem ↦ ?_
  rcases List.mem_cons.1 hmem with rfl | hmem
  · exact List.mem_cons_self
  · cases hmem

/-! ### What is left of an event -/

/-- An event of which something is left is one of the organization, or time that passes. -/
theorem eq_of_only? (he : m.only? org e = some e') :
    (∃ force, e = .call org force ∧ e' = .call org force) ∨ (∃ ms, e = .tick ms ∧ e' = .tick ms) ∨
      ∃ n mv c, e = .move n mv ∧ m.callers[n]? = some c ∧ c.org = org ∧
        e' = .move (m.place org n) mv := by
  cases e with
  | call about force =>
    rw [only?] at he
    split at he
    · rename_i horg
      subst horg
      exact .inl ⟨force, rfl, (Option.some.inj he).symm⟩
    · cases he
  | tick ms => exact .inr (.inl ⟨ms, rfl, (Option.some.inj he).symm⟩)
  | move n mv =>
    rw [only?] at he
    split at he
    · rename_i c hc
      split at he
      · exact .inr (.inr ⟨n, mv, c, rfl, hc, ‹_›, (Option.some.inj he).symm⟩)
      · cases he
    · cases he

/-- An event that can happen and of which nothing is left is one of another organization. -/
theorem eq_of_only?_eq_none (hs : m.step e = some m') (he : m.only? org e = none) :
    (∃ about force, e = .call about force ∧ about ≠ org) ∨
      ∃ n mv c, e = .move n mv ∧ m.callers[n]? = some c ∧ c.org ≠ org := by
  cases e with
  | call about force =>
    rw [only?] at he
    split at he
    · cases he
    · exact .inl ⟨about, force, rfl, ‹_›⟩
  | tick ms => cases he
  | move n mv =>
    rw [only?] at he
    split at he
    · rename_i c hc
      split at he
      · cases he
      · exact .inr ⟨n, mv, c, rfl, hc, ‹_›⟩
    · rename_i hc
      rw [step, hc] at hs
      cases hs

end Licensing.Cache.Machine
