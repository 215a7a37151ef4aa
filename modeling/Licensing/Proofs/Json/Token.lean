import Licensing.Json.Grammar
import Mathlib.Data.List.Basic

/-!
# Texts and numbers are read as they are written

What stands between the quotes of a text is read up to the closing quote (`readText_of_isRaw`), and
nothing else is (`isRaw_of_readText`). A number has no closing sign. It is read as far as it goes,
so it is found again only where the next byte does not continue it (`Ends`, `readNumber_append`,
`writes_of_readNumber`).
-/

namespace Licensing.Json

open Utf8 (Bytes)

variable {acc raw rest bs ds whole fraction : Bytes} {a b c d e : UInt8} {n : Numeral}
  {exponent : Option Int}

/-! ### Texts -/

/-- Behind a backslash an escape is read whole, or there is an error. -/
theorem readText_escape (acc : Bytes) (e : UInt8) (rest : Bytes) :
    readText acc (backslash :: e :: rest) =
      if isSimpleEscape e || e == letterU && fourHexAhead rest
      then readText (e :: backslash :: acc) rest else none :=
  rfl

/-- A byte that needs no escape is read as it is. -/
theorem readText_plain (hb : 0x20 ≤ b) (hquote : b ≠ quoteByte) (hback : b ≠ backslash) :
    readText acc (b :: rest) = readText (b :: acc) rest := by
  rw [readText]
  · have hcontrol : ¬ b < 0x20 := UInt8.not_lt.2 hb
    simp [hcontrol, hback]
  · exact hquote
  · rintro e rest' rfl
    exact absurd rfl hback

/-- A hexadecimal digit may stand in a text by itself. -/
theorem plain_of_hexValue? (h : (hexValue? b).isSome = true) :
    0x20 ≤ b ∧ b ≠ quoteByte ∧ b ≠ backslash := by
  refine ⟨?_, ?_, ?_⟩
  · have hn : 48 ≤ b.toNat := by
      by_contra hlt
      rw [hexValue?, if_neg (by omega), if_neg (by omega), if_neg (by omega)] at h
      exact absurd h (by simp)
    rw [UInt8.le_iff_toNat_le]
    exact Nat.le_trans (by decide) hn
  · rintro rfl
    exact absurd h (by decide)
  · rintro rfl
    exact absurd h (by decide)

/-- Four digits are ahead if each of them has a value. -/
theorem fourHexAhead_cons :
    fourHexAhead (a :: b :: c :: d :: rest) = true ↔
      ∀ x ∈ [a, b, c, d], (hexValue? x).isSome = true := by
  simp [fourHexAhead]

/-- Digits that come before a quote are before it. -/
theorem exists_of_fourHexAhead (h : fourHexAhead (raw ++ quoteByte :: rest) = true) :
    ∃ a b c d more, raw = a :: b :: c :: d :: more ∧
      ∀ x ∈ [a, b, c, d], (hexValue? x).isSome = true := by
  have hlength : 4 ≤ raw.length := by
    by_contra hshort
    obtain ⟨k, hk⟩ : ∃ k, 4 - raw.length = k + 1 := ⟨3 - raw.length, by omega⟩
    have hmem : quoteByte ∈ (raw ++ quoteByte :: rest).take 4 := by
      rw [List.take_append, hk, List.take_succ_cons]
      simp
    have hall := List.all_eq_true.1 ((Bool.and_eq_true_iff.1 h).2) quoteByte hmem
    exact absurd hall (by decide)
  match raw, hlength with
  | a :: b :: c :: d :: more, _ => exact ⟨a, b, c, d, more, rfl, fourHexAhead_cons.1 h⟩

/-- What may stand between quotes is read up to the closing one. -/
theorem readText_of_isRaw (h : IsRaw raw) (acc rest : Bytes) :
    readText acc (raw ++ quoteByte :: rest) = some (acc.reverse ++ raw, rest) := by
  induction h generalizing acc with
  | nil =>
    rw [List.append_nil]
    rfl
  | plain hb hquote hback h ih =>
    rw [List.cons_append, readText_plain hb hquote hback, ih]
    simp
  | escape he h ih =>
    rw [List.cons_append, List.cons_append, readText_escape, he, Bool.true_or, if_pos rfl, ih]
    simp
  | @unit a b c d raw hhex h ih =>
    have hplain : ∀ x ∈ [a, b, c, d], 0x20 ≤ x ∧ x ≠ quoteByte ∧ x ≠ backslash :=
      fun x hx ↦ plain_of_hexValue? (hhex x hx)
    simp only [List.forall_mem_cons] at hplain
    obtain ⟨⟨ha, ha', ha''⟩, ⟨hb, hb', hb''⟩, ⟨hc, hc', hc''⟩, ⟨hd, hd', hd''⟩, -⟩ := hplain
    simp only [List.cons_append]
    rw [readText_escape, fourHexAhead_cons.2 hhex, if_pos (by decide), readText_plain ha ha' ha'',
      readText_plain hb hb' hb'', readText_plain hc hc' hc'', readText_plain hd hd' hd'', ih]
    simp

/-- What follows a byte that begins no escape is still a text. -/
theorem IsRaw.of_cons (h : IsRaw (b :: raw)) (hback : b ≠ backslash) : IsRaw raw := by
  cases h with
  | plain _ _ _ h => exact h
  | escape | unit => exact absurd rfl hback

/-- What is read up to the closing quote may stand between quotes. -/
theorem isRaw_of_readText (h : readText acc bs = some (raw, rest)) :
    ∃ w, raw = acc.reverse ++ w ∧ bs = w ++ quoteByte :: rest ∧ IsRaw w := by
  fun_induction readText acc bs with
  | case1 => exact absurd h (by simp)
  | case2 acc rest' =>
    obtain ⟨rfl, rfl⟩ := Prod.mk.inj (Option.some.inj h)
    exact ⟨[], by simp, rfl, .nil⟩
  | case3 acc e rest' he ih =>
    obtain ⟨w, rfl, rfl, hw⟩ := ih h
    refine ⟨backslash :: e :: w, by simp, rfl, ?_⟩
    simp only [Bool.or_eq_true, Bool.and_eq_true, beq_iff_eq] at he
    rcases he with hsimple | ⟨rfl, hahead⟩
    · exact .escape hsimple hw
    -- The four digits are bytes of the text, for none of them is the closing quote.
    · obtain ⟨a, b, c, d, more, rfl, hhex⟩ := exists_of_fourHexAhead hahead
      have hback : ∀ x ∈ [a, b, c, d], x ≠ backslash :=
        fun x hx ↦ (plain_of_hexValue? (hhex x hx)).2.2
      simp only [List.forall_mem_cons] at hback
      obtain ⟨ha, hb, hc, hd, -⟩ := hback
      exact .unit hhex ((((hw.of_cons ha).of_cons hb).of_cons hc).of_cons hd)
  | case4 => exact absurd h (by simp)
  | case5 => exact absurd h (by simp)
  | case6 acc b rest' hquote hescape hb ih =>
    obtain ⟨w, rfl, rfl, hw⟩ := ih h
    simp only [Bool.or_eq_true, decide_eq_true_eq, beq_iff_eq, not_or, UInt8.not_lt] at hb
    exact ⟨b :: w, by simp, rfl, .plain hb.1 hquote hb.2 hw⟩

/-! ### Digits -/

/-- A byte that continues no number. -/
def EndsNumber (b : UInt8) : Prop :=
  isDigitByte b = false ∧ b ≠ point ∧ b ≠ letterE ∧ b ≠ capitalE

instance (b : UInt8) : Decidable (EndsNumber b) :=
  inferInstanceAs (Decidable (_ ∧ _))

/-- What comes next continues no number. -/
def Ends (rest : Bytes) : Prop :=
  ∀ b ∈ rest.head?, EndsNumber b

/-- Digits are read as far as they go. -/
theorem readDigits_append (h : AreDigits ds) (hrest : ∀ b ∈ rest.head?, isDigitByte b = false) :
    readDigits (ds ++ rest) = some (ds, rest) := by
  have htake : (ds ++ rest).takeWhile isDigitByte = ds := by
    rw [List.takeWhile_append_of_pos h.2]
    cases rest with
    | nil => simp
    | cons b rest => rw [List.takeWhile_cons_of_neg (by simp [hrest b rfl]), List.append_nil]
  have hdrop : (ds ++ rest).dropWhile isDigitByte = rest := by
    rw [List.dropWhile_append_of_pos h.2]
    cases rest with
    | nil => rfl
    | cons b rest => exact List.dropWhile_cons_of_neg (by simp [hrest b rfl])
  rw [readDigits, htake, hdrop]
  cases ds with
  | nil => exact absurd rfl h.1
  | cons => rfl

/-- What was read as digits are digits. -/
theorem areDigits_of_readDigits (h : readDigits bs = some (ds, rest)) :
    bs = ds ++ rest ∧ AreDigits ds := by
  rw [readDigits] at h
  split at h
  · exact absurd h (by simp)
  · rename_i hne
    obtain ⟨rfl, rfl⟩ := Prod.mk.inj (Option.some.inj h)
    exact ⟨(List.takeWhile_append_dropWhile ..).symm, hne,
      fun b hb ↦ List.all_eq_true.1 List.all_takeWhile b hb⟩

/-! ### Fractions and exponents -/

/-- Where there is no point there is no fraction. -/
theorem readFraction_of_ne (h : ∀ b ∈ bs.head?, b ≠ point) :
    readFraction bs = some ([], bs) := by
  unfold readFraction
  split
  · exact absurd rfl (h point rfl)
  · rfl

/-- A fraction is read as it was written. -/
theorem readFraction_append (h : WritesFraction fraction bs)
    (hrest : ∀ b ∈ rest.head?, isDigitByte b = false ∧ b ≠ point) :
    readFraction (bs ++ rest) = some (fraction, rest) := by
  cases h with
  | absent => exact readFraction_of_ne fun b hb ↦ (hrest b hb).2
  | present h => exact readDigits_append h fun b hb ↦ (hrest b hb).1

/-- A fraction does not continue the digits before it. -/
theorem WritesFraction.not_digit (h : WritesFraction fraction bs)
    (hrest : ∀ b ∈ rest.head?, isDigitByte b = false ∧ b ≠ point) :
    ∀ b ∈ (bs ++ rest).head?, isDigitByte b = false := by
  cases h with
  | absent => exact fun b hb ↦ (hrest b hb).1
  | present h =>
    intro b hb
    obtain rfl := Option.some.inj hb
    decide

/-- What was read as a fraction is written as one. -/
theorem writes_of_readFraction (h : readFraction bs = some (fraction, rest)) :
    ∃ w, bs = w ++ rest ∧ WritesFraction fraction w := by
  unfold readFraction at h
  split at h
  · obtain ⟨rfl, hdigits⟩ := areDigits_of_readDigits h
    exact ⟨point :: fraction, rfl, .present hdigits⟩
  · obtain ⟨rfl, rfl⟩ := Prod.mk.inj (Option.some.inj h)
    exact ⟨[], rfl, .absent⟩

/-- Where there is no letter for it there is no exponent. -/
theorem readExponent_of_ne (h : ∀ b ∈ bs.head?, b ≠ letterE ∧ b ≠ capitalE) :
    readExponent bs = some (none, bs) := by
  unfold readExponent
  split
  · exact absurd rfl (h letterE rfl).1
  · exact absurd rfl (h capitalE rfl).2
  · rfl

/-- An exponent with a minus is negative. -/
theorem readExponent_minus (he : e = letterE ∨ e = capitalE) (rest : Bytes) :
    readExponent (e :: minus :: rest) =
      (readDigits rest).map fun r ↦ (some (-(digitsValue r.1 : Int)), r.2) := by
  rcases he with rfl | rfl <;> rfl

/-- One with a plus is not. -/
theorem readExponent_plus (he : e = letterE ∨ e = capitalE) (rest : Bytes) :
    readExponent (e :: plus :: rest) =
      (readDigits rest).map fun r ↦ (some (digitsValue r.1 : Int), r.2) := by
  rcases he with rfl | rfl <;> rfl

/-- Neither is one without a sign. -/
theorem readExponent_unsigned (he : e = letterE ∨ e = capitalE)
    (h : ∀ b ∈ rest.head?, b ≠ minus ∧ b ≠ plus) : readExponent (e :: rest) =
      (readDigits rest).map fun r ↦ (some (digitsValue r.1 : Int), r.2) := by
  have hread : readExponent (letterE :: rest) =
      (readDigits rest).map fun r ↦ (some (digitsValue r.1 : Int), r.2) := by
    unfold readExponent
    split
    · rename_i more heq
      obtain rfl := (List.cons.inj heq).2
      dsimp only
      split
      · exact absurd rfl (h minus rfl).1
      · exact absurd rfl (h plus rfl).2
      · rfl
    · rename_i heq
      exact absurd (List.cons.inj heq).1 (by decide)
    · rename_i hne _
      exact absurd rfl (hne rest)
  -- Both letters are read alike.
  rcases he with rfl | rfl <;> exact hread

/-- The first digit is no sign. -/
theorem AreDigits.ne_sign (h : AreDigits ds) (rest : Bytes) :
    ∀ b ∈ (ds ++ rest).head?, b ≠ minus ∧ b ≠ plus := by
  intro b hb
  have hdigit : isDigitByte b = true := by
    cases ds with
    | nil => exact absurd rfl h.1
    | cons d ds =>
      obtain rfl := Option.some.inj hb
      exact h.2 d List.mem_cons_self
  constructor
  · rintro rfl
    exact absurd hdigit (by decide)
  · rintro rfl
    exact absurd hdigit (by decide)

/-- An exponent is read as it was written. -/
theorem readExponent_append (h : WritesExponent exponent bs) (hrest : Ends rest) :
    readExponent (bs ++ rest) = some (exponent, rest) := by
  have hdigit : ∀ b ∈ rest.head?, isDigitByte b = false := fun b hb ↦ (hrest b hb).1
  cases h with
  | absent => exact readExponent_of_ne fun b hb ↦ (hrest b hb).2.2
  | unsigned he h =>
    rw [List.cons_append, readExponent_unsigned he (h.ne_sign rest), readDigits_append h hdigit]
    rfl
  | plus he h =>
    rw [List.cons_append, List.cons_append, readExponent_plus he, readDigits_append h hdigit]
    rfl
  | minus he h =>
    rw [List.cons_append, List.cons_append, readExponent_minus he, readDigits_append h hdigit]
    rfl

/-- What was read as an exponent is written as one. -/
theorem writes_of_readExponent (h : readExponent bs = some (exponent, rest)) :
    ∃ w, bs = w ++ rest ∧ WritesExponent exponent w := by
  by_cases hletter : ∀ b ∈ bs.head?, b ≠ letterE ∧ b ≠ capitalE
  · rw [readExponent_of_ne hletter] at h
    obtain ⟨rfl, rfl⟩ := Prod.mk.inj (Option.some.inj h)
    exact ⟨[], rfl, .absent⟩
  -- There is a letter, and a sign may stand behind it.
  obtain ⟨e, bs, rfl, he⟩ : ∃ e more, bs = e :: more ∧ (e = letterE ∨ e = capitalE) := by
    cases bs with
    | nil => exact absurd nofun hletter
    | cons e bs => exact ⟨e, bs, rfl, by simpa [Classical.or_iff_not_imp_left] using hletter⟩
  by_cases hsign : ∀ b ∈ bs.head?, b ≠ minus ∧ b ≠ plus
  · rw [readExponent_unsigned he hsign] at h
    obtain ⟨⟨ds, more⟩, hds, heq⟩ := Option.map_eq_some_iff.1 h
    obtain ⟨rfl, rfl⟩ := Prod.mk.inj heq
    obtain ⟨rfl, hdigits⟩ := areDigits_of_readDigits hds
    exact ⟨e :: ds, rfl, .unsigned he hdigits⟩
  obtain ⟨s, bs, rfl, hs⟩ : ∃ s more, bs = s :: more ∧ (s = minus ∨ s = plus) := by
    cases bs with
    | nil => exact absurd nofun hsign
    | cons s bs => exact ⟨s, bs, rfl, by simpa [Classical.or_iff_not_imp_left] using hsign⟩
  rcases hs with rfl | rfl
  · rw [readExponent_minus he] at h
    obtain ⟨⟨ds, more⟩, hds, heq⟩ := Option.map_eq_some_iff.1 h
    obtain ⟨rfl, rfl⟩ := Prod.mk.inj heq
    obtain ⟨rfl, hdigits⟩ := areDigits_of_readDigits hds
    exact ⟨e :: minus :: ds, rfl, .minus he hdigits⟩
  · rw [readExponent_plus he] at h
    obtain ⟨⟨ds, more⟩, hds, heq⟩ := Option.map_eq_some_iff.1 h
    obtain ⟨rfl, rfl⟩ := Prod.mk.inj heq
    obtain ⟨rfl, hdigits⟩ := areDigits_of_readDigits hds
    exact ⟨e :: plus :: ds, rfl, .plus he hdigits⟩

/-- An exponent does not continue the fraction before it. -/
theorem WritesExponent.not_fraction (h : WritesExponent exponent bs) (hrest : Ends rest) :
    ∀ b ∈ (bs ++ rest).head?, isDigitByte b = false ∧ b ≠ point := by
  have hletter : ∀ e : UInt8, e = letterE ∨ e = capitalE → isDigitByte e = false ∧ e ≠ point := by
    rintro e (rfl | rfl) <;> decide
  intro b hb
  cases h with
  | absent => exact ⟨(hrest b hb).1, (hrest b hb).2.1⟩
  | unsigned he | plus he | minus he =>
    obtain rfl := Option.some.inj hb
    exact hletter _ he

/-! ### Numbers -/

/-- A number is read up to where it ends. -/
theorem readNumber_append (h : WritesNumber n bs) (hrest : Ends rest) :
    readNumber (bs ++ rest) = some (n, rest) := by
  obtain @⟨negative, whole, fraction, fractionBytes, exponentBytes, exponent, hwhole, hzero,
    hfraction, hexponent⟩ := h
  have hbehind := hexponent.not_fraction hrest
  have hdigits := readDigits_append hwhole (hfraction.not_digit hbehind)
  have hsign := hwhole.ne_sign (fractionBytes ++ (exponentBytes ++ rest))
  have hbytes : signBytes negative ++ (whole ++ (fractionBytes ++ exponentBytes)) ++ rest =
      signBytes negative ++ (whole ++ (fractionBytes ++ (exponentBytes ++ rest))) := by simp
  rw [hbytes]
  generalize whole ++ (fractionBytes ++ (exponentBytes ++ rest)) = digits at hdigits hsign
  have hhead : ((signBytes negative ++ digits).head? == some minus) = negative := by
    cases negative with
    | true => rfl
    | false => exact beq_eq_false_iff_ne.2 fun heq ↦ (hsign minus heq).1 rfl
  have hbody : (if negative then (signBytes negative ++ digits).drop 1
      else signBytes negative ++ digits) = digits := by
    cases negative <;> rfl
  have hsingle : (whole.head? == some 0x30 && whole.length != 1) = false := by
    cases hhead : whole.head? == some 0x30 with
    | false => rfl
    | true => rw [hzero (eq_of_beq hhead)]; rfl
  unfold readNumber
  simp only [hhead, hbody, hdigits, hsingle, readFraction_append hfraction hbehind,
    readExponent_append hexponent hrest, Option.bind_eq_bind, Option.bind_some]
  rfl

/-- What is read as a number is written as one. -/
theorem writes_of_readNumber (h : readNumber bs = some (n, rest)) :
    ∃ w, bs = w ++ rest ∧ WritesNumber n w := by
  unfold readNumber at h
  simp only [Option.bind_eq_bind, Option.bind_eq_some_iff] at h
  obtain ⟨⟨whole, more⟩, hwhole, h⟩ := h
  split at h
  · exact absurd h (by simp)
  rename_i hsingle
  simp only [Option.bind_eq_some_iff] at h
  obtain ⟨⟨fraction, more'⟩, hfraction, ⟨exponent, more''⟩, hexponent, hdone⟩ := h
  obtain ⟨rfl, rfl⟩ := Prod.mk.inj (Option.some.inj hdone)
  obtain ⟨hbody, hdigits⟩ := areDigits_of_readDigits hwhole
  obtain ⟨fractionBytes, rfl, hwritten⟩ := writes_of_readFraction hfraction
  obtain ⟨exponentBytes, rfl, hwritten'⟩ := writes_of_readExponent hexponent
  have hzero : whole.head? = some 0x30 → whole.length = 1 := by
    intro hhead
    simpa [hhead] using hsingle
  have hbs : bs = signBytes (bs.head? == some minus) ++
      (whole ++ (fractionBytes ++ (exponentBytes ++ more''))) := by
    rw [← hbody]
    cases hhead : bs.head? == some minus with
    | false => rfl
    | true =>
      rw [if_pos rfl, List.drop_one]
      exact List.eq_cons_of_mem_head? (eq_of_beq hhead)
  refine ⟨_, ?_, .parts hdigits hzero hwritten hwritten'⟩
  simpa using hbs

end Licensing.Json
