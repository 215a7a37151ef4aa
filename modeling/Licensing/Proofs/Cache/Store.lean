import Licensing.Cache.Store
import Licensing.Proofs.OrderedMap

/-!
# What the store remembers

An outcome that is recorded is remembered for its organization, and for the others nothing new
is: making room only drops entries. It drops none as long as there is room.
-/

namespace Licensing.Cache.Store

variable {s : Store} {c : Config} {ttl now : Nat} {org about : String} {newerThan : Option Nat}
  {l : Lookup} {e : Entry}

/-- **Looking up** finds what is remembered, if it is fresh and new enough. -/
theorem lookup?_eq_some_iff : s.lookup? ttl now org newerThan = some l ↔
    ∃ e, s.entries.get? org = some e ∧ now - e.since < ttl ∧
      newerThan.all (· < e.generation) = true ∧ l = ⟨e.snapshot, e.status, true⟩ := by
  rw [lookup?]
  split
  · rename_i hn
    simp [hn]
  · rename_i e he
    simp only [he, Entry.isFresh, Option.ite_none_right_eq_some, Bool.and_eq_true,
      decide_eq_true_eq, Option.some.injEq]
    constructor
    · rintro ⟨⟨hfresh, hnew⟩, rfl⟩
      exact ⟨e, rfl, hfresh, hnew, rfl⟩
    · rintro ⟨_, rfl, hfresh, hnew, rfl⟩
      exact ⟨⟨hfresh, hnew⟩, rfl⟩

/-! ### Making room -/

theorem get?_evict {room excess : Nat} {entries : OrderedMap Entry}
    (h : (evict room excess entries).get? about = some e) : entries.get? about = some e := by
  induction excess generalizing entries with
  | zero => exact h
  | succ excess ih =>
    rw [evict] at h
    split at h
    · exact h
    · split at h
      · rename_i oldest _
        have herase := ih h
        rw [OrderedMap.get?_erase] at herase
        split at herase
        · exact absurd herase (by simp)
        · exact herase
      · exact h

/-- Making room adds nothing. -/
theorem get?_makeRoom {entries : OrderedMap Entry}
    (h : (makeRoom c now org entries).get? about = some e) : entries.get? about = some e := by
  rw [makeRoom] at h
  split at h
  · exact h
  · -- What is no longer fresh goes first, and then the oldest go.
    have hfilter := get?_evict h
    rw [OrderedMap.get?_filter] at hfilter
    exact (Option.filter_eq_some_iff.1 hfilter).1

/-- Nothing has to go while there is room. -/
theorem makeRoom_eq_self {entries : OrderedMap Entry}
    (h : entries.contains org = true ∨ entries.size < c.room) :
    makeRoom c now org entries = entries := by
  rw [makeRoom, if_pos (by simpa using h)]

/-! ### Recording -/

theorem get?_record_self (o : Outcome) : ∃ generation,
    (s.record c now org o).1.entries.get? org = some ⟨o.snapshot, o.status, generation, now⟩ :=
  ⟨_, OrderedMap.get?_insert_self _ _ _⟩

/-- For other organizations nothing new is remembered. -/
theorem get?_record_of_ne {o : Outcome} (hne : org ≠ about)
    (h : (s.record c now org o).1.entries.get? about = some e) :
    s.entries.get? about = some e := by
  rw [record, OrderedMap.get?_insert_of_ne _ _ hne] at h
  exact get?_makeRoom h

/-- While there is room, other organizations keep what is remembered for them. -/
theorem get?_record_of_room {o : Outcome} (hne : org ≠ about)
    (h : s.entries.contains org = true ∨ s.entries.size < c.room) :
    (s.record c now org o).1.entries.get? about = s.entries.get? about := by
  rw [record, OrderedMap.get?_insert_of_ne _ _ hne, makeRoom_eq_self h]

/-- One organization at most comes in. -/
theorem keys_record_subset (o : Outcome) :
    (s.record c now org o).1.entries.keys ⊆ org :: s.entries.keys := by
  intro about h
  obtain ⟨e, he⟩ := (OrderedMap.mem_keys_iff _).1 h
  by_cases heq : org = about
  · exact heq ▸ List.mem_cons_self
  · have hold := get?_record_of_ne heq he
    exact List.mem_cons_of_mem _ ((OrderedMap.mem_keys_iff _).2 ⟨e, hold⟩)

end Licensing.Cache.Store
