import Licensing.Proofs.Cache.Store
import Mathlib.Data.List.MinMax

/-!
# What has to go

When there is no room for another organization, the outcomes that are no longer fresh go, and then
those of the lowest generations until there is room. So the entries never exceed the room
(`size_record_le`), and an entry goes only for two reasons: it is no longer fresh, or as many as
there is room for are of later generations (`dropped_of_makeRoom`).
-/

namespace Licensing.Cache.Store

variable {s : Store} {c : Config} {room excess now : Nat} {org about other : String}
  {entries : OrderedMap Entry} {e e' : Entry}

/-! ### The oldest -/

theorem oldest?_eq_argmin (entries : OrderedMap Entry) :
    oldest? entries = (entries.entries.argmin (·.2.generation)).map (·.1) := by
  rw [oldest?, List.argmin]
  congr 2
  funext best e
  cases best <;> rfl

theorem oldest?_eq_none_iff : oldest? entries = none ↔ entries.size = 0 := by
  rw [oldest?_eq_argmin, Option.map_eq_none_iff, List.argmin_eq_none, OrderedMap.size,
    List.length_eq_zero_iff]

/-- The oldest has an entry, and no entry is of an earlier generation. -/
theorem exists_of_oldest? (h : oldest? entries = some org) :
    ∃ e, entries.get? org = some e ∧
      ∀ about e', entries.get? about = some e' → e.generation ≤ e'.generation := by
  rw [oldest?_eq_argmin] at h
  obtain ⟨⟨key, e⟩, hmin, rfl⟩ := Option.map_eq_some_iff.1 h
  refine ⟨e, (entries.get?_eq_some_iff).2 (List.argmin_mem hmin), fun about e' he' ↦ ?_⟩
  exact List.le_of_mem_argmin (f := fun x : String × Entry ↦ x.2.generation)
    ((entries.get?_eq_some_iff).1 he') hmin

/-! ### Eviction -/

theorem evict_of_size_lt (h : entries.size < room) : evict room excess entries = entries := by
  cases excess with
  | zero => rfl
  | succ excess => rw [evict, if_pos h]

/-- When there is no room, one oldest entry goes at a time. -/
theorem evict_succ (excess : Nat) (h : room ≤ entries.size) (hroom : 0 < room) :
    ∃ old e, entries.get? old = some e ∧
      (∀ about e', entries.get? about = some e' → e.generation ≤ e'.generation) ∧
      evict room (excess + 1) entries = evict room excess (entries.erase old) := by
  rw [evict, if_neg (Nat.not_lt.2 h)]
  cases hold : oldest? entries with
  | none =>
    rw [oldest?_eq_none_iff] at hold
    omega
  | some old =>
    obtain ⟨e, he, hmin⟩ := exists_of_oldest? hold
    exact ⟨old, e, he, hmin, rfl⟩

/-- Eviction makes room. -/
theorem size_evict_lt (hroom : 0 < room) (h : entries.size ≤ excess) :
    (evict room excess entries).size < room := by
  induction excess generalizing entries with
  | zero => exact (Nat.le_zero.1 h).trans_lt hroom
  | succ excess ih =>
    rcases Nat.lt_or_ge entries.size room with hlt | hge
    · rwa [evict_of_size_lt hlt]
    · obtain ⟨old, e, he, -, heq⟩ := evict_succ excess hge hroom
      have hsize := entries.size_erase he
      rw [heq]
      exact ih (by omega)

/-- Eviction makes room for one more, not for two. -/
theorem room_le_size_evict (hroom : 0 < room) (h : room ≤ entries.size + 1) :
    room ≤ (evict room excess entries).size + 1 := by
  induction excess generalizing entries with
  | zero => exact h
  | succ excess ih =>
    rcases Nat.lt_or_ge entries.size room with hlt | hge
    · rwa [evict_of_size_lt hlt]
    · obtain ⟨old, e, he, -, heq⟩ := evict_succ excess hge hroom
      have hsize := entries.size_erase he
      rw [heq]
      exact ih (by omega)

/-- **What is evicted** is of no later generation than what stays. Each round drops the lowest
generation, so this is an induction on the rounds. -/
theorem generation_le_of_evict (hroom : 0 < room) (he : entries.get? about = some e)
    (hgone : (evict room excess entries).get? about = none)
    (hstays : (evict room excess entries).get? other = some e') :
    e.generation ≤ e'.generation := by
  induction excess generalizing entries with
  | zero =>
    rw [evict, he] at hgone
    exact absurd hgone (by simp)
  | succ excess ih =>
    rcases Nat.lt_or_ge entries.size room with hlt | hge
    · rw [evict_of_size_lt hlt, he] at hgone
      exact absurd hgone (by simp)
    · obtain ⟨old, e₀, he₀, hmin, heq⟩ := evict_succ excess hge hroom
      rw [heq] at hgone hstays
      by_cases hold : old = about
      · -- It is the oldest itself, and what stays was there before.
        subst hold
        obtain rfl := Option.some.inj (he.symm.trans he₀)
        have herase := get?_evict hstays
        rw [OrderedMap.get?_erase] at herase
        split at herase
        · exact absurd herase (by simp)
        · exact hmin _ _ herase
      · refine ih ?_ hgone hstays
        rw [OrderedMap.get?_erase, if_neg hold, he]

/-! ### Making room -/

theorem isFresh_iff {ttl : Nat} : e.isFresh ttl now = true ↔ now - e.since < ttl :=
  decide_eq_true_iff

theorem room_pos (c : Config) : 0 < c.room :=
  Nat.lt_of_lt_of_le Nat.zero_lt_one (Nat.le_max_right _ _)

/-- Nothing goes, or the entries that are no longer fresh go and then the oldest. -/
theorem makeRoom_cases (c : Config) (now : Nat) (org : String) (entries : OrderedMap Entry) :
    ((entries.contains org = true ∨ entries.size < c.room) ∧
        makeRoom c now org entries = entries) ∨
      (entries.contains org = false ∧ c.room ≤ entries.size ∧ ∃ fresh : OrderedMap Entry,
        (∀ about, fresh.get? about = (entries.get? about).filter (·.isFresh c.ttl now)) ∧
        makeRoom c now org entries = evict c.room fresh.size fresh) := by
  rw [makeRoom]
  split
  · rename_i h
    exact .inl ⟨by simpa using h, rfl⟩
  · rename_i h
    obtain ⟨hnew, hfull⟩ : entries.contains org = false ∧ c.room ≤ entries.size := by
      simpa using h
    exact .inr ⟨hnew, hfull, _, fun about ↦ entries.get?_filter _ about, rfl⟩

/-- **An entry that goes**: one for which there is no room, and what stays is fresh. If the entry is
fresh itself, what stays fills the room but for one place and is of no earlier generation. -/
theorem dropped_of_makeRoom (he : entries.get? about = some e)
    (hgone : (makeRoom c now org entries).get? about = none) :
    entries.contains org = false ∧
      (∀ other e', (makeRoom c now org entries).get? other = some e' →
        now - e'.since < c.ttl) ∧
      (now - e.since < c.ttl → c.room ≤ (makeRoom c now org entries).size + 1 ∧
        ∀ other e', (makeRoom c now org entries).get? other = some e' →
          e.generation ≤ e'.generation) := by
  rcases makeRoom_cases c now org entries with ⟨-, heq⟩ | ⟨hnew, -, fresh, hfresh, heq⟩
  · rw [heq, he] at hgone
    exact absurd hgone (by simp)
  · rw [heq] at hgone ⊢
    refine ⟨hnew, fun other e' he' ↦ ?_, fun hage ↦ ?_⟩
    · have hget := get?_evict he'
      rw [hfresh, Option.filter_eq_some_iff] at hget
      exact isFresh_iff.1 hget.2
    · have hget : fresh.get? about = some e := by
        rw [hfresh, he, Option.filter_some, if_pos (isFresh_iff.2 hage)]
      refine ⟨room_le_size_evict (room_pos c) ?_, fun other e' he' ↦ ?_⟩
      · -- Had there been room, nothing would have been evicted.
        by_contra hlt
        rw [evict_of_size_lt (by omega), hget] at hgone
        exact absurd hgone (by simp)
      · exact generation_le_of_evict (room_pos c) hget hgone he'

/-! ### Recording -/

/-- **Room.** There are never more entries than there is room for: before one is put in, as many go
as are needed. -/
theorem size_record_le (o : Outcome) (h : s.entries.size ≤ c.room) :
    (s.record c now org o).1.entries.size ≤ c.room := by
  have hinsert := (makeRoom c now org s.entries).size_insert_le org
    ⟨o.snapshot, o.status, (s.generation + 1) % generations, now⟩
  rcases makeRoom_cases c now org s.entries with ⟨hroom, heq⟩ | ⟨-, -, fresh, -, heq⟩
  · rw [record, heq]
    rw [heq] at hinsert
    rcases hroom with hold | hlt
    · rwa [OrderedMap.size_insert_of_contains _ _ hold]
    · exact hinsert.trans hlt
  · have hlt := size_evict_lt (room_pos c) (le_refl fresh.size)
    rw [record, heq]
    rw [heq] at hinsert
    exact hinsert.trans hlt

end Licensing.Cache.Store
