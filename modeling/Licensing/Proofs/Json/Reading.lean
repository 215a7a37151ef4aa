import Licensing.Proofs.Json.Grammar

/-!
# Documents are read as they are written

Reading accepts exactly what the grammar has, and finds the document that was written
(`read_eq_some_iff`). One half is that what was written is found. The other half is that what is
read was written in the bytes that are taken. Of values, items and members this is known when it is
known of the others with one unit of fuel less, so it holds of all three by induction (`takes`).
-/

namespace Licensing.Json

open Utf8 (Bytes)

variable {acc : List Document} {d : Document} {bs rest more lead trail : Bytes} {b : UInt8}
  {fuel : Nat} {result : Document × Bytes}

/-! ### What was read is written -/

/-- The document was written in the bytes before what is left. -/
def Taken (bs : Bytes) (result : Document × Bytes) : Prop :=
  ∃ w, bs = w ++ result.2 ∧ Writes result.1 w

/-- What is read as a value is written in the bytes that are taken. -/
def TakesValue (fuel : Nat) : Prop :=
  ∀ bs result, readValue fuel bs = some result → Taken bs result

/-- What is read as the items of a list is written as such. -/
def TakesItems (fuel : Nat) : Prop :=
  ∀ acc bs d rest, readItems fuel acc bs = some (d, rest) →
    ∃ items : List (Document × Bytes), items ≠ [] ∧ (∀ i ∈ items, Writes i.1 i.2) ∧
      d = .list (acc.reverse ++ items.map Prod.fst) ∧
      bs = commaJoined (items.map Prod.snd) ++ closeList :: rest

/-- What is read as the members of an object is written as such. -/
def TakesMembers (fuel : Nat) : Prop :=
  ∀ acc bs d rest, readMembers fuel acc bs = some (d, rest) →
    ∃ entries : List Entry, entries ≠ [] ∧ (∀ e ∈ entries, e.IsProper) ∧
      (∀ e ∈ entries, Writes e.value e.written) ∧
      d = .object (acc.reverse ++ entries.map Entry.member) ∧
      bs = commaJoined (entries.map Entry.bytes) ++ closeObject :: rest

/-- Blanks behind a value belong to it when nothing else does. -/
theorem Writes.behind (h : Writes d bs) (htrail : AreBlank trail) : Writes d (bs ++ trail) :=
  .spaced areBlank_nil htrail h

/-- Blanks before a value belong to it. -/
theorem Writes.before (h : Writes d bs) (hlead : AreBlank lead) : Writes d (lead ++ bs) := by
  simpa using Writes.spaced hlead areBlank_nil h

/-- A value that is written from the first byte that is no blank is written from the start. -/
theorem Taken.of_skipBlanks (h : Taken (skipBlanks bs) result) : Taken bs result := by
  obtain ⟨w, hw, hwrites⟩ := h
  obtain ⟨lead, hlead, hbs⟩ := exists_skipped bs
  exact ⟨lead ++ w, by rw [List.append_assoc, ← hw, ← hbs], hwrites.before hlead⟩

/-- One step over the items of a list takes an item, and a comma or the closing bracket. -/
theorem exists_item (hvalue : TakesValue fuel)
    (h : readItems (fuel + 1) acc bs = some result) :
    ∃ v w more, Writes v w ∧
      (bs = w ++ comma :: more ∧ readItems fuel (v :: acc) more = some result ∨
        bs = w ++ closeList :: more ∧ result = (.list (v :: acc).reverse, more)) := by
  rw [readItems] at h
  split at h
  · exact absurd h (by simp)
  rename_i v behind hread
  obtain ⟨w, rfl, hw⟩ := hvalue bs (v, behind) hread
  obtain ⟨trail, htrail, hbehind⟩ := exists_skipped behind
  have hbs (x : UInt8) (more : Bytes) (hx : skipBlanks behind = x :: more) :
      w ++ behind = (w ++ trail) ++ x :: more := by
    rw [List.append_assoc, ← hx, ← hbehind]
  split at h
  · rename_i more hmore
    exact ⟨v, w ++ trail, more, hw.behind htrail, .inl ⟨hbs comma more hmore, h⟩⟩
  · rename_i more hmore
    exact ⟨v, w ++ trail, more, hw.behind htrail,
      .inr ⟨hbs closeList more hmore, (Option.some.inj h).symm⟩⟩
  · exact absurd h (by simp)

theorem takesItems_succ (hvalue : TakesValue fuel) (hitems : TakesItems fuel) :
    TakesItems (fuel + 1) := by
  intro acc bs d rest h
  obtain ⟨v, w, more, hw, ⟨rfl, hread⟩ | ⟨rfl, hdone⟩⟩ := exists_item hvalue h
  · obtain ⟨items, hne, hwritten, rfl, rfl⟩ := hitems (v :: acc) more d rest hread
    refine ⟨(v, w) :: items, by simp, List.forall_mem_cons.2 ⟨hw, hwritten⟩, by simp, ?_⟩
    rw [commaJoined_map_cons Prod.snd (v, w) hne, List.append_assoc, List.cons_append]
  · obtain ⟨rfl, rfl⟩ := Prod.mk.inj hdone
    exact ⟨[(v, w)], by simp, by simpa using hw, by simp, by simp⟩

/-- One step over the members of an object takes a member, and a comma or the closing brace. -/
theorem exists_entry {acc : List (Bytes × Document)}
    (hvalue : TakesValue fuel) (h : readMembers (fuel + 1) acc bs = some result) :
    ∃ (e : Entry) (more : Bytes), e.IsProper ∧ Writes e.value e.written ∧
      (bs = e.bytes ++ comma :: more ∧ readMembers fuel (e.member :: acc) more = some result ∨
        bs = e.bytes ++ closeObject :: more ∧
          result = (.object (e.member :: acc).reverse, more)) := by
  obtain ⟨lead, hlead, hbs⟩ := exists_skipped bs
  rw [readMembers] at h
  split at h
  swap
  · exact absurd h (by simp)
  rename_i named hquote
  split at h
  · exact absurd h (by simp)
  rename_i name behind hname
  obtain ⟨raw, hraw, rfl, hproper⟩ := isRaw_of_readText hname
  obtain rfl : name = raw := by simpa using hraw
  obtain ⟨gap, hgap, hbehind⟩ := exists_skipped behind
  split at h
  swap
  · exact absurd h (by simp)
  rename_i valued hcolon
  split at h
  · exact absurd h (by simp)
  rename_i v behind' hread
  obtain ⟨w, rfl, hw⟩ := hvalue valued (v, behind') hread
  obtain ⟨trail, htrail, hbehind'⟩ := exists_skipped behind'
  let e : Entry := ⟨lead, name, gap, v, w ++ trail⟩
  have hentry (x : UInt8) (more : Bytes) (hx : skipBlanks behind' = x :: more) :
      bs = e.bytes ++ x :: more :=
    calc bs = lead ++ quoteByte :: (name ++ quoteByte :: (gap ++ skipBlanks behind)) := by
          rw [← hbehind]
          exact hbs.trans (congrArg (lead ++ ·) hquote)
      _ = lead ++ quoteByte :: (name ++ quoteByte :: (gap ++ colon :: (w ++ behind'))) := by
          rw [hcolon]
          rfl
      _ = e.bytes ++ x :: more := by
          rw [hbehind', hx]
          simp [e, Entry.bytes]
  split at h
  · rename_i more hmore
    exact ⟨e, more, ⟨hlead, hproper, hgap⟩, hw.behind htrail, .inl ⟨hentry comma more hmore, h⟩⟩
  · rename_i more hmore
    exact ⟨e, more, ⟨hlead, hproper, hgap⟩, hw.behind htrail,
      .inr ⟨hentry closeObject more hmore, (Option.some.inj h).symm⟩⟩
  · exact absurd h (by simp)

theorem takesMembers_succ (hvalue : TakesValue fuel) (hmembers : TakesMembers fuel) :
    TakesMembers (fuel + 1) := by
  intro acc bs d rest h
  obtain ⟨e, more, he, hw, ⟨rfl, hread⟩ | ⟨rfl, hdone⟩⟩ := exists_entry hvalue h
  · obtain ⟨entries, hne, hproper, hwritten, rfl, rfl⟩ :=
      hmembers (e.member :: acc) more d rest hread
    refine ⟨e :: entries, by simp, List.forall_mem_cons.2 ⟨he, hproper⟩,
      List.forall_mem_cons.2 ⟨hw, hwritten⟩, by simp, ?_⟩
    rw [commaJoined_map_cons Entry.bytes e hne, List.append_assoc, List.cons_append]
  · obtain ⟨rfl, rfl⟩ := Prod.mk.inj hdone
    exact ⟨[e], by simp, by simpa using he, by simpa using hw, by simp, by simp⟩

theorem taken_of_word {word : String}
    (hword : Writes d (b :: Utf8.encodeText word))
    (h : (afterWord word more).map (d, ·) = some result) :
    Taken (b :: more) result := by
  obtain ⟨rest, hrest, rfl⟩ := Option.map_eq_some_iff.1 h
  exact ⟨b :: Utf8.encodeText word, by rw [of_afterWord hrest]; rfl, hword⟩

theorem taken_of_text
    (h : (readText [] more).map (fun r ↦ (Document.text r.1, r.2)) = some result) :
    Taken (quoteByte :: more) result := by
  obtain ⟨⟨raw, rest⟩, hread, rfl⟩ := Option.map_eq_some_iff.1 h
  obtain ⟨w, hraw, rfl, hw⟩ := isRaw_of_readText hread
  obtain rfl : raw = w := by simpa using hraw
  exact ⟨quoteByte :: (raw ++ [quoteByte]), by simp, .text hw⟩

theorem taken_of_number
    (h : (readNumber bs).map (fun r ↦ (Document.number r.1, r.2)) = some result) :
    Taken bs result := by
  obtain ⟨⟨n, rest⟩, hread, rfl⟩ := Option.map_eq_some_iff.1 h
  obtain ⟨w, hw, hwritten⟩ := writes_of_readNumber hread
  exact ⟨w, hw, .number hwritten⟩

theorem taken_of_list (hitems : TakesItems fuel)
    (h : readValue (fuel + 1) (openList :: more) = some result) :
    Taken (openList :: more) result := by
  obtain ⟨gap, hgap, hmore⟩ := exists_skipped more
  rw [readValue_openList fuel (skipBlanks_cons (by decide) more)] at h
  split at h
  · rename_i rest hrest
    obtain rfl := Option.some.inj h
    refine ⟨openList :: (gap ++ [closeList]), ?_, .noItems hgap⟩
    rw [hmore, hrest, List.cons_append, List.append_assoc]
    rfl
  · rw [readItems_skipBlanks] at h
    obtain ⟨d, rest⟩ := result
    obtain ⟨items, hne, hwritten, rfl, rfl⟩ := hitems [] more d rest h
    exact ⟨_, by simp, .items hne hwritten⟩

theorem taken_of_object (hmembers : TakesMembers fuel)
    (h : readValue (fuel + 1) (openObject :: more) = some result) :
    Taken (openObject :: more) result := by
  obtain ⟨gap, hgap, hmore⟩ := exists_skipped more
  rw [readValue_openObject fuel (skipBlanks_cons (by decide) more)] at h
  split at h
  · rename_i rest hrest
    obtain rfl := Option.some.inj h
    refine ⟨openObject :: (gap ++ [closeObject]), ?_, .noMembers hgap⟩
    rw [hmore, hrest, List.cons_append, List.append_assoc]
    rfl
  · rw [readMembers_skipBlanks] at h
    obtain ⟨d, rest⟩ := result
    obtain ⟨entries, hne, hproper, hwritten, rfl, rfl⟩ := hmembers [] more d rest h
    exact ⟨_, by simp, .members hne hproper hwritten⟩

/-- The first byte that is no blank tells what is taken. -/
theorem takesValue_succ (hitems : TakesItems fuel) (hmembers : TakesMembers fuel) :
    TakesValue (fuel + 1) := by
  intro bs result h
  refine Taken.of_skipBlanks ?_
  rw [← readValue_skipBlanks] at h
  have hskip := skipBlanks_skipBlanks bs
  generalize skipBlanks bs = bs at h hskip
  have hread := h
  rw [readValue, hskip] at h
  split at h
  · exact taken_of_text h
  · exact taken_of_list hitems hread
  · exact taken_of_object hmembers hread
  · exact taken_of_word .null h
  · exact taken_of_word .yes h
  · exact taken_of_word .no h
  · exact taken_of_number h

/-- All three readers take what is written, by induction on the fuel that they share. -/
theorem takes (fuel : Nat) : TakesValue fuel ∧ TakesItems fuel ∧ TakesMembers fuel := by
  induction fuel with
  | zero =>
    refine ⟨fun _ _ h ↦ ?_, fun _ _ _ _ h ↦ ?_, fun _ _ _ _ h ↦ ?_⟩
    · exact absurd h (by simp [readValue])
    · exact absurd h (by simp [readItems])
    · exact absurd h (by simp [readMembers])
  | succ fuel ih =>
    obtain ⟨hvalue, hitems, hmembers⟩ := ih
    exact ⟨takesValue_succ hitems hmembers, takesItems_succ hvalue hitems,
      takesMembers_succ hvalue hmembers⟩

/-- **Reading accepts exactly what the grammar has**, and finds the document that was written. -/
theorem read_eq_some_iff : Document.read bs = some d ↔ Writes d bs := by
  constructor
  · intro h
    rw [Document.read] at h
    split at h
    · rename_i d' rest hread
      split at h
      · rename_i hempty
        obtain rfl := Option.some.inj h
        obtain ⟨w, rfl, hw⟩ := (takes _).1 bs (d', rest) hread
        obtain ⟨trail, htrail, hrest⟩ := exists_skipped rest
        rw [List.isEmpty_iff.1 hempty, List.append_nil] at hrest
        subst hrest
        exact hw.behind htrail
      · exact absurd h (by simp)
    · exact absurd h (by simp)
  · intro h
    obtain ⟨rest', hread, hskip⟩ :=
      found_of_writes h (2 * bs.length + 2) [] (by omega) nofun
    rw [List.append_nil] at hread
    rw [Document.read, hread]
    show (if (skipBlanks rest').isEmpty then some d else none) = some d
    rw [hskip]
    rfl

/-- A byte sequence is written of at most one document. -/
theorem Writes.unique {d' : Document} (h : Writes d bs) (h' : Writes d' bs) : d = d' :=
  Option.some.inj ((read_eq_some_iff.2 h).symm.trans (read_eq_some_iff.2 h'))

end Licensing.Json
