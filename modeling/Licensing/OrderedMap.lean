/-!
# Maps ordered by their keys

A finite map from texts, kept as a list of entries whose keys ascend strictly in the order of
their code points. Looking up, inserting and erasing are single passes over that list, and
listing the entries is the identity, so whatever is listed comes in ascending order of keys.
-/

namespace Licensing

/-- Entries in strictly ascending order of their keys. -/
structure OrderedMap (β : Type) where
  /-- The entries. -/
  entries : List (String × β)
  /-- The keys ascend strictly. -/
  sorted : entries.Pairwise fun a b ↦ a.1 < b.1

namespace OrderedMap

variable {β γ : Type}

/-! ### Entry lists -/

/-- The value under a key. -/
def findIn (k : String) : List (String × β) → Option β
  | [] => none
  | e :: es => if e.1 = k then some e.2 else findIn k es

/-- Puts a value under a key, in place of the one that was there. -/
def insertIn (k : String) (v : β) : List (String × β) → List (String × β)
  | [] => [(k, v)]
  | e :: es =>
    if k < e.1 then (k, v) :: e :: es
    else if k = e.1 then (k, v) :: es
    else e :: insertIn k v es

/-- After a value was put in, an entry is the new one or was there before. -/
theorem key_mem_insertIn {k : String} {v : β} {a : String × β} {es : List (String × β)}
    (h : a ∈ insertIn k v es) : a = (k, v) ∨ a ∈ es := by
  induction es with
  | nil => simpa [insertIn] using h
  | cons e es ih =>
    rw [insertIn] at h
    split at h
    · simpa using h
    · split at h
      · rcases List.mem_cons.1 h with h | h
        · exact .inl h
        · exact .inr (List.mem_cons_of_mem _ h)
      · rcases List.mem_cons.1 h with h | h
        · exact .inr (h ▸ List.mem_cons_self)
        · exact (ih h).imp_right (List.mem_cons_of_mem _)

/-- Entries in ascending order of their keys stay so when a value is put in. -/
theorem pairwise_insertIn (k : String) (v : β) {es : List (String × β)}
    (h : es.Pairwise fun a b ↦ a.1 < b.1) : (insertIn k v es).Pairwise fun a b ↦ a.1 < b.1 := by
  induction es with
  | nil => simp [insertIn]
  | cons e es ih =>
    obtain ⟨he, hes⟩ := List.pairwise_cons.1 h
    rw [insertIn]
    split
    · rename_i hk
      refine List.pairwise_cons.2 ⟨fun a ha ↦ ?_, h⟩
      rcases List.mem_cons.1 ha with rfl | ha
      · exact hk
      · exact String.lt_trans hk (he a ha)
    · rename_i hk
      split
      · rename_i hke
        exact List.pairwise_cons.2 ⟨fun a ha ↦ hke ▸ he a ha, hes⟩
      · rename_i hne
        refine List.pairwise_cons.2 ⟨fun a ha ↦ ?_, ih hes⟩
        rcases key_mem_insertIn ha with rfl | ha
        · exact Std.lt_of_le_of_ne (String.not_lt.1 hk) fun h ↦ hne h.symm
        · exact he a ha

/-! ### Maps -/

/-- The map without entries. -/
def empty : OrderedMap β :=
  ⟨[], .nil⟩

instance : EmptyCollection (OrderedMap β) :=
  ⟨empty⟩

instance : Inhabited (OrderedMap β) :=
  ⟨empty⟩

instance [DecidableEq β] : DecidableEq (OrderedMap β) := fun a b ↦
  decidable_of_iff (a.entries = b.entries) <| by
    cases a
    cases b
    simp

/-- The value under a key. -/
def get? (m : OrderedMap β) (k : String) : Option β :=
  findIn k m.entries

/-- Whether there is a value under a key. -/
def contains (m : OrderedMap β) (k : String) : Bool :=
  (m.get? k).isSome

/-- Puts a value under a key, in place of the one that was there. -/
def insert (m : OrderedMap β) (k : String) (v : β) : OrderedMap β :=
  ⟨insertIn k v m.entries, pairwise_insertIn k v m.sorted⟩

/-- The entries that satisfy a condition. -/
def filter (p : String → β → Bool) (m : OrderedMap β) : OrderedMap β :=
  ⟨m.entries.filter fun e ↦ p e.1 e.2, m.sorted.filter _⟩

/-- The map without the entry under a key. -/
def erase (m : OrderedMap β) (k : String) : OrderedMap β :=
  m.filter fun key _ ↦ key != k

/-- How many entries there are. -/
def size (m : OrderedMap β) : Nat :=
  m.entries.length

/-- The keys, ascending. -/
def keys (m : OrderedMap β) : List String :=
  m.entries.map (·.1)

/-- The values, in ascending order of their keys. -/
def values (m : OrderedMap β) : List β :=
  m.entries.map (·.2)

/-- Applies a function to every value. -/
def map (f : String → β → γ) (m : OrderedMap β) : OrderedMap γ :=
  ⟨m.entries.map fun e ↦ (e.1, f e.1 e.2), by
    rw [List.pairwise_map]
    exact m.sorted⟩

/-- The map of a list of entries; of two entries with one key the later counts. -/
def ofList (es : List (String × β)) : OrderedMap β :=
  es.foldl (fun m e ↦ m.insert e.1 e.2) ∅

end OrderedMap

end Licensing
