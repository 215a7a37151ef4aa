import Licensing.Proofs.Json.Token
import Mathlib.Data.List.DropRight

/-!
# Documents are found as they are written

What is written as a document is found by the reader whatever follows it, unless that would continue
a number (`found_of_writes`, by induction on the grammar). A reader leaves the blanks behind a value
to the next reader, so what is left is known up to blanks only. Two units of fuel for each byte are
enough, one for a value and one for its place in a list or an object.
-/

namespace Licensing.Json

open Utf8 (Bytes)

variable {acc : List Document} {d : Document} {bs rest more raw lead trail : Bytes} {b : UInt8}
  {fuel : Nat}

/-! ### Blanks -/

/-- Blanks in front of a text are skipped together with those that it begins with. -/
theorem skipBlanks_append (h : AreBlank lead) (bs : Bytes) :
    skipBlanks (lead ++ bs) = skipBlanks bs :=
  List.dropWhile_append_of_pos h

/-- Nothing is skipped of a text that begins with something else. -/
theorem skipBlanks_cons (hb : isBlankByte b = false) (bs : Bytes) :
    skipBlanks (b :: bs) = b :: bs :=
  List.dropWhile_cons_of_neg (by simp [hb])

/-- After blanks were skipped there are none left to skip. -/
theorem skipBlanks_skipBlanks (bs : Bytes) : skipBlanks (skipBlanks bs) = skipBlanks bs :=
  List.dropWhile_idempotent isBlankByte bs

/-- No bytes at all are blank. -/
theorem areBlank_nil : AreBlank [] :=
  nofun

/-- What is skipped are blanks. -/
theorem exists_skipped (bs : Bytes) : ∃ lead, AreBlank lead ∧ bs = lead ++ skipBlanks bs :=
  ⟨bs.takeWhile isBlankByte, fun b hb ↦ List.all_eq_true.1 List.all_takeWhile b hb,
    List.takeWhile_append_dropWhile.symm⟩

/-- A blank continues no number. -/
theorem endsNumber_of_isBlankByte (h : isBlankByte b = true) : EndsNumber b := by
  have hcases : b = 0x20 ∨ b = 0x09 ∨ b = 0x0A ∨ b = 0x0D := by
    simpa [isBlankByte, or_assoc] using h
  rcases hcases with rfl | rfl | rfl | rfl <;> decide

/-- What follows a number ends it if its first byte does. -/
theorem ends_cons (hb : EndsNumber b) (rest : Bytes) : Ends (b :: rest) := by
  intro b' hb'
  obtain rfl := Option.some.inj hb'
  exact hb

/-- Blanks before the end of a text do not make a number longer. -/
theorem Ends.append (h : Ends rest) (htrail : AreBlank trail) : Ends (trail ++ rest) := by
  cases trail with
  | nil => exact h
  | cons b trail =>
    exact ends_cons (endsNumber_of_isBlankByte (htrail b List.mem_cons_self)) (trail ++ rest)

/-! ### One step of reading -/

/-- Blanks in front of a value make no difference. -/
theorem readValue_skipBlanks (fuel : Nat) (bs : Bytes) :
    readValue fuel (skipBlanks bs) = readValue fuel bs := by
  cases fuel with
  | zero => rfl
  | succ fuel => rw [readValue, readValue, skipBlanks_skipBlanks]

/-- Blanks in front of an item of a list make no difference. -/
theorem readItems_skipBlanks (fuel : Nat) (acc : List Document) (bs : Bytes) :
    readItems fuel acc (skipBlanks bs) = readItems fuel acc bs := by
  cases fuel with
  | zero => rfl
  | succ fuel => rw [readItems, readItems, readValue_skipBlanks]

/-- Blanks in front of a member of an object make no difference. -/
theorem readMembers_skipBlanks (fuel : Nat) (acc : List (Bytes × Document)) (bs : Bytes) :
    readMembers fuel acc (skipBlanks bs) = readMembers fuel acc bs := by
  cases fuel with
  | zero => rfl
  | succ fuel => rw [readMembers, readMembers, skipBlanks_skipBlanks]

/-- A word is read where it stands. -/
theorem afterWord_append (word : String) (rest : Bytes) :
    afterWord word (Utf8.encodeText word ++ rest) = some rest := by
  have hprefix : (Utf8.encodeText word).isPrefixOf (Utf8.encodeText word ++ rest) = true :=
    List.isPrefixOf_iff_prefix.2 (List.prefix_append _ _)
  simp only [afterWord]
  rw [if_pos hprefix, List.drop_left]

/-- Where a word was read, it stands. -/
theorem of_afterWord {word : String} (h : afterWord word bs = some rest) :
    bs = Utf8.encodeText word ++ rest := by
  simp only [afterWord] at h
  split at h
  · rename_i hprefix
    obtain ⟨more, rfl⟩ := List.isPrefixOf_iff_prefix.1 hprefix
    obtain rfl := Option.some.inj h
    rw [List.drop_left]
  · exact absurd h (by simp)

/-- A value that begins like a number is read as one. -/
theorem readValue_number (h : skipBlanks bs = b :: rest) (hb : isDigitByte b = true ∨ b = minus) :
    readValue (fuel + 1) bs = (readNumber (b :: rest)).map fun r ↦ (.number r.1, r.2) := by
  have hne : ∀ x ∈ [quoteByte, openList, openObject, letterN, letterT, letterF], b ≠ x := by
    rintro x hx rfl
    revert hb
    simp only [List.mem_cons, List.not_mem_nil, or_false] at hx
    rcases hx with rfl | rfl | rfl | rfl | rfl | rfl <;> decide
  simp only [List.forall_mem_cons] at hne
  obtain ⟨hquote, hlist, hobject, hnull, hyes, hno, -⟩ := hne
  rw [readValue, h]
  split
  · rename_i heq
    exact absurd (List.cons.inj heq).1 hquote
  · rename_i heq
    exact absurd (List.cons.inj heq).1 hlist
  · rename_i heq
    exact absurd (List.cons.inj heq).1 hobject
  · rename_i heq
    exact absurd (List.cons.inj heq).1 hnull
  · rename_i heq
    exact absurd (List.cons.inj heq).1 hyes
  · rename_i heq
    exact absurd (List.cons.inj heq).1 hno
  · rfl

/-- A bracket begins a list: either it is closed at once, or the first item follows. -/
theorem readValue_openList (fuel : Nat) (h : skipBlanks bs = openList :: rest) :
    readValue (fuel + 1) bs = match skipBlanks rest with
      | closeList :: rest => some (.list [], rest)
      | rest => readItems fuel [] rest := by
  rewrite [readValue, h]
  rfl

/-- A list without items is read as one. -/
theorem readValue_noItems (h : skipBlanks bs = openList :: rest)
    (hrest : skipBlanks rest = closeList :: more) :
    readValue (fuel + 1) bs = some (.list [], more) := by
  rewrite [readValue_openList fuel h, hrest]
  rfl

/-- A list that is not closed at once is read item by item. -/
theorem readValue_items (h : skipBlanks bs = openList :: rest)
    (hrest : ∀ b ∈ (skipBlanks rest).head?, b ≠ closeList) :
    readValue (fuel + 1) bs = readItems fuel [] rest := by
  rw [readValue_openList fuel h, ← readItems_skipBlanks]
  split
  · rename_i more hmore
    exact absurd rfl (hrest closeList (by rw [hmore]; rfl))
  · rfl

/-- A brace begins an object: either it is closed at once, or the first member follows. -/
theorem readValue_openObject (fuel : Nat) (h : skipBlanks bs = openObject :: rest) :
    readValue (fuel + 1) bs = match skipBlanks rest with
      | closeObject :: rest => some (.object [], rest)
      | rest => readMembers fuel [] rest := by
  rewrite [readValue, h]
  rfl

/-- An object without members is read as one. -/
theorem readValue_noMembers (h : skipBlanks bs = openObject :: rest)
    (hrest : skipBlanks rest = closeObject :: more) :
    readValue (fuel + 1) bs = some (.object [], more) := by
  rewrite [readValue_openObject fuel h, hrest]
  rfl

/-- An object that is not closed at once is read member by member. -/
theorem readValue_members (h : skipBlanks bs = openObject :: rest)
    (hrest : ∀ b ∈ (skipBlanks rest).head?, b ≠ closeObject) :
    readValue (fuel + 1) bs = readMembers fuel [] rest := by
  rw [readValue_openObject fuel h, ← readMembers_skipBlanks]
  split
  · rename_i more hmore
    exact absurd rfl (hrest closeObject (by rw [hmore]; rfl))
  · rfl

/-- Behind an item there is a comma, the end of the list, or an error. -/
theorem readItems_value (acc : List Document) (h : readValue fuel bs = some (d, rest)) :
    readItems (fuel + 1) acc bs = match skipBlanks rest with
      | comma :: rest => readItems fuel (d :: acc) rest
      | closeList :: rest => some (.list (d :: acc).reverse, rest)
      | _ => none := by
  rewrite [readItems, h]
  rfl

/-- After a comma the next item is read. -/
theorem readItems_comma (h : readValue fuel bs = some (d, rest))
    (hrest : skipBlanks rest = comma :: more) :
    readItems (fuel + 1) acc bs = readItems fuel (d :: acc) more := by
  rewrite [readItems_value acc h, hrest]
  rfl

/-- At the end of the list its items are put back in order. -/
theorem readItems_close (h : readValue fuel bs = some (d, rest))
    (hrest : skipBlanks rest = closeList :: more) :
    readItems (fuel + 1) acc bs = some (.list (d :: acc).reverse, more) := by
  rewrite [readItems_value acc h, hrest]
  rfl

/-- A member is a name, a colon and a value; behind it there is a comma, the end of the object, or
an error. -/
theorem readMembers_value {acc : List (Bytes × Document)} {name value behind : Bytes}
    (hquote : skipBlanks bs = quoteByte :: name) (hname : readText [] name = some (raw, rest))
    (hcolon : skipBlanks rest = colon :: value) (hvalue : readValue fuel value = some (d, behind)) :
    readMembers (fuel + 1) acc bs = match skipBlanks behind with
      | comma :: rest => readMembers fuel ((raw, d) :: acc) rest
      | closeObject :: rest => some (.object ((raw, d) :: acc).reverse, rest)
      | _ => none := by
  -- Each of the four facts tells the next thing that is matched on.
  rewrite [readMembers, hquote]
  conv_lhs => whnf
  rewrite [hname]
  conv_lhs => whnf
  rewrite [hcolon]
  conv_lhs => whnf
  rewrite [hvalue]
  rfl

/-! ### How what is written starts -/

/-- No digit is blank. -/
theorem isBlankByte_of_isDigitByte (h : isDigitByte b = true) : isBlankByte b = false := by
  cases hblank : isBlankByte b with
  | false => rfl
  | true => exact absurd h (by simp [(endsNumber_of_isBlankByte hblank).1])

/-- A number begins with a digit or with a minus. -/
theorem WritesNumber.starts {n : Numeral} (h : WritesNumber n bs) :
    ∃ b more, bs = b :: more ∧ (isDigitByte b = true ∨ b = minus) := by
  obtain @⟨negative, whole, fraction, fractionBytes, exponentBytes, exponent, hwhole, -⟩ := h
  cases negative with
  | true => exact ⟨minus, _, rfl, .inr rfl⟩
  | false =>
    cases whole with
    | nil => exact absurd rfl hwhole.1
    | cons b whole => exact ⟨b, _, rfl, .inl (hwhole.2 b List.mem_cons_self)⟩

/-- What is written starts with a byte that closes no list. -/
theorem Writes.starts (h : Writes d bs) : ∃ b more, b ≠ closeList ∧
    ∀ rest, skipBlanks (bs ++ rest) = b :: (more ++ rest) := by
  induction h with
  | null => exact ⟨letterN, Utf8.encodeText "ull", by decide, fun _ ↦ rfl⟩
  | yes => exact ⟨letterT, Utf8.encodeText "rue", by decide, fun _ ↦ rfl⟩
  | no => exact ⟨letterF, Utf8.encodeText "alse", by decide, fun _ ↦ rfl⟩
  | number h =>
    obtain ⟨b, more, rfl, hb⟩ := h.starts
    rcases hb with hb | rfl
    · refine ⟨b, more, ?_, fun rest ↦ skipBlanks_cons (isBlankByte_of_isDigitByte hb) _⟩
      rintro rfl
      exact absurd hb (by decide)
    · exact ⟨minus, more, by decide, fun _ ↦ rfl⟩
  | text | noItems | items | noMembers | members => exact ⟨_, _, by decide, fun _ ↦ rfl⟩
  | @spaced d lead bs trail hlead htrail h ih =>
    obtain ⟨b, more, hb, hskip⟩ := ih
    refine ⟨b, more ++ trail, hb, fun rest ↦ ?_⟩
    rw [List.append_assoc, List.append_assoc, skipBlanks_append hlead, hskip, List.append_assoc]

/-! ### What was written is found -/

/-- One part is joined without a comma. -/
@[simp]
theorem commaJoined_singleton (part : Bytes) : commaJoined [part] = part := by
  simp [commaJoined]

/-- The first of several parts is followed by a comma and the others. -/
theorem commaJoined_map_cons {α : Type} (f : α → Bytes) (a : α) {as : List α} (hne : as ≠ []) :
    commaJoined ((a :: as).map f) = f a ++ comma :: commaJoined (as.map f) := by
  cases as with
  | nil => exact absurd rfl hne
  | cons a' as =>
    rw [commaJoined, List.map_cons, List.map_cons, List.intercalate_cons_cons, List.append_assoc]
    rfl

/-- In any case the first part stands in front. -/
theorem exists_commaJoined_map_cons {α : Type} (f : α → Bytes) (a : α) (as : List α) :
    ∃ tail, commaJoined ((a :: as).map f) = f a ++ tail := by
  cases as with
  | nil => exact ⟨[], by simp⟩
  | cons a' as => exact ⟨_, commaJoined_map_cons f a (List.cons_ne_nil a' as)⟩

/-- What was written is found with enough fuel, whatever follows it. -/
def Found (d : Document) (bs : Bytes) : Prop :=
  ∀ fuel rest, 2 * bs.length ≤ fuel → Ends rest →
    ∃ rest', readValue fuel (bs ++ rest) = some (d, rest') ∧ skipBlanks rest' = skipBlanks rest

/-- The items of a list are found, one after the other. -/
theorem readItems_commaJoined {items : List (Document × Bytes)} (hne : items ≠ [])
    (h : ∀ i ∈ items, Found i.1 i.2) (acc : List Document) (rest : Bytes)
    (hfuel : 2 * ((commaJoined (items.map Prod.snd)).length + 1) ≤ fuel) :
    readItems fuel acc (commaJoined (items.map Prod.snd) ++ closeList :: rest) =
      some (.list (acc.reverse ++ items.map Prod.fst), rest) := by
  induction items generalizing fuel acc with
  | nil => exact absurd rfl hne
  | cons i items ih =>
    obtain ⟨fuel, rfl⟩ : ∃ f, fuel = f + 1 := Nat.exists_eq_succ_of_ne_zero (by omega)
    have hi : Found i.1 i.2 := h i List.mem_cons_self
    cases items with
    | nil =>
      rw [List.map_singleton, commaJoined_singleton] at hfuel ⊢
      obtain ⟨rest', hread, hskip⟩ :=
        hi fuel (closeList :: rest) (by omega) (ends_cons (by decide) _)
      rw [readItems_close hread (hskip.trans (skipBlanks_cons (by decide) _))]
      simp
    | cons j items =>
      have hrest : j :: items ≠ [] := List.cons_ne_nil j items
      have hcomma : EndsNumber comma := by decide
      rw [commaJoined_map_cons Prod.snd i hrest] at hfuel ⊢
      rw [List.length_append, List.length_cons] at hfuel
      rw [List.append_assoc, List.cons_append]
      obtain ⟨rest', hread, hskip⟩ := hi fuel _ (by omega) (ends_cons hcomma _)
      rw [readItems_comma hread (hskip.trans (skipBlanks_cons (by decide) _)),
        ih hrest (fun k hk ↦ h k (List.mem_cons_of_mem i hk)) (i.1 :: acc) (by omega)]
      simp

/-- One member is found, and what follows is left up to blanks. -/
theorem readMembers_entry {acc : List (Bytes × Document)} {e : Entry} (hproper : e.IsProper)
    (h : Found e.value e.written) (hfuel : 2 * e.bytes.length ≤ fuel) (hrest : Ends rest) :
    readMembers (fuel + 1) acc (e.bytes ++ rest) = match skipBlanks rest with
      | comma :: rest => readMembers fuel (e.member :: acc) rest
      | closeObject :: rest => some (.object (e.member :: acc).reverse, rest)
      | _ => none := by
  have hbytes : e.bytes ++ rest = e.lead ++ quoteByte ::
      (e.name ++ quoteByte :: (e.gap ++ colon :: (e.written ++ rest))) := by
    simp [Entry.bytes]
  have hlength : e.written.length ≤ e.bytes.length := by
    simp only [Entry.bytes, List.length_append, List.length_cons]
    omega
  obtain ⟨rest', hread, hskip⟩ := h fuel rest (by omega) hrest
  have hquote : skipBlanks (e.bytes ++ rest) =
      quoteByte :: (e.name ++ quoteByte :: (e.gap ++ colon :: (e.written ++ rest))) := by
    rw [hbytes, skipBlanks_append hproper.lead, skipBlanks_cons (by decide)]
  have hcolon : skipBlanks (e.gap ++ colon :: (e.written ++ rest)) =
      colon :: (e.written ++ rest) := by
    rw [skipBlanks_append hproper.gap, skipBlanks_cons (by decide)]
  rw [readMembers_value hquote (readText_of_isRaw hproper.name [] _) hcolon hread, hskip]
  rfl

/-- The members of an object are found, one after the other. -/
theorem readMembers_commaJoined {entries : List Entry} (hne : entries ≠ [])
    (hproper : ∀ e ∈ entries, e.IsProper) (h : ∀ e ∈ entries, Found e.value e.written)
    (acc : List (Bytes × Document)) (rest : Bytes)
    (hfuel : 2 * ((commaJoined (entries.map Entry.bytes)).length + 1) ≤ fuel) :
    readMembers fuel acc (commaJoined (entries.map Entry.bytes) ++ closeObject :: rest) =
      some (.object (acc.reverse ++ entries.map Entry.member), rest) := by
  induction entries generalizing fuel acc with
  | nil => exact absurd rfl hne
  | cons e entries ih =>
    obtain ⟨fuel, rfl⟩ : ∃ f, fuel = f + 1 := Nat.exists_eq_succ_of_ne_zero (by omega)
    have he : Found e.value e.written := h e List.mem_cons_self
    have hfirst : e.IsProper := hproper e List.mem_cons_self
    cases entries with
    | nil =>
      rw [List.map_singleton, commaJoined_singleton] at hfuel ⊢
      rw [readMembers_entry hfirst he (by omega) (ends_cons (by decide) _),
        skipBlanks_cons (by decide)]
      show some (Document.object (e.member :: acc).reverse, rest) = _
      simp
    | cons e' entries =>
      have hrest : e' :: entries ≠ [] := List.cons_ne_nil e' entries
      have hcomma : EndsNumber comma := by decide
      rw [commaJoined_map_cons Entry.bytes e hrest] at hfuel ⊢
      rw [List.length_append, List.length_cons] at hfuel
      rw [List.append_assoc, List.cons_append,
        readMembers_entry hfirst he (by omega) (ends_cons hcomma _), skipBlanks_cons (by decide)]
      refine (ih hrest (fun k hk ↦ hproper k (List.mem_cons_of_mem e hk))
        (fun k hk ↦ h k (List.mem_cons_of_mem e hk)) (e.member :: acc) (by omega)).trans ?_
      simp

/-- What has a first byte takes fuel, so one step of reading may be taken. -/
theorem found_cons (h : ∀ fuel rest, 2 * bs.length + 1 ≤ fuel → Ends rest →
    ∃ rest', readValue (fuel + 1) (b :: (bs ++ rest)) = some (d, rest') ∧
      skipBlanks rest' = skipBlanks rest) : Found d (b :: bs) := by
  intro fuel rest hfuel hrest
  rw [List.length_cons] at hfuel
  obtain ⟨fuel, rfl⟩ : ∃ f, fuel = f + 1 := Nat.exists_eq_succ_of_ne_zero (by omega)
  exact h fuel rest (by omega) hrest

/-- A word is found by its first byte. -/
theorem found_word (b : UInt8) (word : String)
    (h : ∀ fuel rest, readValue (fuel + 1) (b :: rest) = (afterWord word rest).map (d, ·)) :
    Found d (b :: Utf8.encodeText word) := by
  refine found_cons fun fuel rest _ _ ↦ ⟨rest, ?_, rfl⟩
  rw [h, afterWord_append, Option.map_some]

/-- The first item of a list does not start with the bracket that closes it. -/
theorem items_not_closed {items : List (Document × Bytes)} (hne : items ≠ [])
    (h : ∀ i ∈ items, Writes i.1 i.2) (rest : Bytes) :
    ∀ b ∈ (skipBlanks (commaJoined (items.map Prod.snd) ++ rest)).head?, b ≠ closeList := by
  intro b' hb'
  cases items with
  | nil => exact absurd rfl hne
  | cons i items =>
    obtain ⟨b, more, hb, hstarts⟩ := (h i List.mem_cons_self).starts
    obtain ⟨tail, htail⟩ := exists_commaJoined_map_cons Prod.snd i items
    rw [htail, List.append_assoc, hstarts] at hb'
    obtain rfl := Option.some.inj hb'
    exact hb

/-- The first member of an object does not start with the brace that closes it. -/
theorem entries_not_closed {entries : List Entry} (hne : entries ≠ [])
    (hproper : ∀ e ∈ entries, e.IsProper) (rest : Bytes) :
    ∀ b ∈ (skipBlanks (commaJoined (entries.map Entry.bytes) ++ rest)).head?, b ≠ closeObject := by
  intro b hb
  cases entries with
  | nil => exact absurd rfl hne
  | cons e entries =>
    obtain ⟨tail, htail⟩ := exists_commaJoined_map_cons Entry.bytes e entries
    rw [htail, Entry.bytes, List.append_assoc, List.append_assoc,
      skipBlanks_append (hproper e List.mem_cons_self).lead, List.cons_append,
      skipBlanks_cons (by decide)] at hb
    obtain rfl := Option.some.inj hb
    decide

/-- **What was written is found**, by induction on how it was written: each part is read as itself,
and what stands behind it is left for the next. -/
theorem found_of_writes (h : Writes d bs) : Found d bs := by
  induction h with
  | null => exact found_word letterN "ull" fun _ _ ↦ rfl
  | yes => exact found_word letterT "rue" fun _ _ ↦ rfl
  | no => exact found_word letterF "alse" fun _ _ ↦ rfl
  | number h =>
    obtain ⟨b, more, rfl, hb⟩ := h.starts
    refine found_cons fun fuel rest _ hrest ↦ ⟨rest, ?_, rfl⟩
    have hblank : isBlankByte b = false :=
      hb.elim isBlankByte_of_isDigitByte (by rintro rfl; decide)
    rw [readValue_number (skipBlanks_cons hblank (more ++ rest)) hb, ← List.cons_append,
      readNumber_append h hrest]
    rfl
  | @text raw h =>
    refine found_cons fun fuel rest _ _ ↦ ⟨rest, ?_, rfl⟩
    show (readText [] ((raw ++ [quoteByte]) ++ rest)).map _ = _
    rw [List.append_assoc, List.singleton_append, readText_of_isRaw h]
    rfl
  | @noItems gap h =>
    refine found_cons fun fuel rest _ _ ↦ ⟨rest, readValue_noItems rfl ?_, rfl⟩
    rw [List.append_assoc, skipBlanks_append h, List.singleton_append, skipBlanks_cons (by decide)]
  | @items items hne h ih =>
    refine found_cons fun fuel rest hfuel _ ↦ ⟨rest, ?_, rfl⟩
    rw [List.length_append, List.length_singleton] at hfuel
    rw [List.append_assoc, List.singleton_append, readValue_items rfl (items_not_closed hne h _),
      readItems_commaJoined hne ih [] rest (by omega)]
    rfl
  | @noMembers gap h =>
    refine found_cons fun fuel rest _ _ ↦ ⟨rest, readValue_noMembers rfl ?_, rfl⟩
    rw [List.append_assoc, skipBlanks_append h, List.singleton_append, skipBlanks_cons (by decide)]
  | @members entries hne hproper _ ih =>
    refine found_cons fun fuel rest hfuel _ ↦ ⟨rest, ?_, rfl⟩
    rw [List.length_append, List.length_singleton] at hfuel
    rw [List.append_assoc, List.singleton_append,
      readValue_members rfl (entries_not_closed hne hproper _),
      readMembers_commaJoined hne hproper ih [] rest (by omega)]
    rfl
  | @spaced d lead bs trail hlead htrail _ ih =>
    intro fuel rest hfuel hrest
    rw [List.length_append, List.length_append] at hfuel
    obtain ⟨rest', hread, hskip⟩ := ih fuel (trail ++ rest) (by omega) (hrest.append htrail)
    refine ⟨rest', ?_, hskip.trans (skipBlanks_append htrail rest)⟩
    rw [List.append_assoc, List.append_assoc, ← readValue_skipBlanks, skipBlanks_append hlead,
      readValue_skipBlanks, hread]

end Licensing.Json
