import Licensing.Form
import Licensing.Proofs.Text.Percent
import Licensing.Proofs.Text.Split

/-!
# Reading what was written in a form

Whatever pairs of texts are written in a form, these pairs are read in it (`decode_encode`): what
stands in a form is plain bytes, plus signs and percent signs, so no text can bring an ampersand or
an equals sign of its own. Forms that are joined by an ampersand are the form of all their pairs
(`encode_append`). The characters of a form are letters and digits and a few marks (`isFormChar`),
and its percent signs belong to escaped bytes (`escaped_encode`).

A line that was not written like this is read all the same: piece by piece (`decode_append`), and
the commas in a value stand for themselves (`decodeBytes_append_cons`).
-/

namespace Licensing.Form

open Utf8 (Bytes)

variable {b : UInt8} {p : String × String} {ps qs : List (String × String)}

/-! ### Bytes -/

/-- What a byte of a form stands for before escaped bytes are decoded. -/
def spaced (b : UInt8) : UInt8 :=
  if b.toNat = 0x2B then 0x20 else b

/-- The bytes that stand in a text of a form: plain ones, the plus sign and the percent sign. -/
def isWritten (b : UInt8) : Bool :=
  isPlain b || b = 0x2B || b = 0x25

/-- Plain bytes are ASCII. -/
theorem ascii_of_isPlain (h : isPlain b = true) : b.toNat < 128 := by
  simp only [isPlain, Bool.or_eq_true, Bool.and_eq_true, decide_eq_true_eq] at h
  omega

/-- A plain byte is not the sign for a blank. -/
theorem spaced_of_isPlain (h : isPlain b = true) : spaced b = b := by
  refine if_neg fun hplus ↦ ?_
  simp [isPlain, hplus] at h

/-- A plain byte does not begin an escape. -/
theorem ne_sign_of_isPlain (h : isPlain b = true) : b ≠ Percent.sign := by
  rintro rfl
  exact absurd h (by decide)

/-- The digits of an escape are plain bytes. -/
theorem isPlain_hexDigit {n : Nat} (h : n < 16) :
    isPlain (UInt8.ofNat (Percent.hexDigit n).toNat) = true := by
  revert n
  decide

/-- How a byte is written. -/
theorem encode_encodeByte_cases (b : UInt8) :
    (b = 0x20 ∧ Utf8.encode (encodeByte b) = [0x2B]) ∨
      (isPlain b = true ∧ Utf8.encode (encodeByte b) = [b]) ∨
      Utf8.encode (encodeByte b) = Utf8.encode (Percent.escape b) := by
  rw [encodeByte]
  split
  · rename_i hb
    exact .inl ⟨UInt8.toNat_inj.1 hb, Utf8.encode_cons_of_ascii (by decide) []⟩
  · cases hplain : isPlain b with
    | true =>
      exact .inr (.inl ⟨rfl, Percent.encode_encodeByte_of_not (by simp [hplain])
        (ascii_of_isPlain hplain)⟩)
    | false => exact .inr (.inr (by rw [Percent.encodeByte, if_pos (by simp [hplain])]))

/-- A byte is written in bytes that may stand in a form. -/
theorem isWritten_of_mem_encodeByte {x : UInt8} (hx : x ∈ Utf8.encode (encodeByte b)) :
    isWritten x = true := by
  have hb : b.toNat < 256 := b.toNat_lt
  rcases encode_encodeByte_cases b with ⟨-, h⟩ | ⟨hplain, h⟩ | h
  · rw [h, List.mem_singleton] at hx
    subst hx
    rfl
  · rw [h, List.mem_singleton] at hx
    subst hx
    simp [isWritten, hplain]
  · rw [h, Percent.encode_escape] at hx
    simp only [List.mem_cons, List.not_mem_nil, or_false] at hx
    rcases hx with rfl | rfl | rfl
    · rfl
    · simp [isWritten, isPlain_hexDigit (show b.toNat / 16 < 16 by omega)]
    · simp [isWritten, isPlain_hexDigit (show b.toNat % 16 < 16 by omega)]

/-- A byte that was written is read again. -/
theorem decode_encodeByte (b : UInt8) (bs : Bytes) :
    Percent.decode ((Utf8.encode (encodeByte b) ++ bs).map spaced) =
      b :: Percent.decode (bs.map spaced) := by
  have hb : b.toNat < 256 := b.toNat_lt
  rw [List.map_append]
  rcases encode_encodeByte_cases b with ⟨rfl, h⟩ | ⟨hplain, h⟩ | h
  · rw [h]
    exact Percent.decode_cons_of_ne (by decide) _
  · rw [h, List.map_singleton, spaced_of_isPlain hplain]
    exact Percent.decode_cons_of_ne (ne_sign_of_isPlain hplain) _
  · -- No byte of an escaped byte is a plus sign.
    have hkept : (Utf8.encode (Percent.escape b)).map spaced = Utf8.encode (Percent.escape b) := by
      rw [Percent.encode_escape]
      simp only [List.map_cons, List.map_nil,
        spaced_of_isPlain (isPlain_hexDigit (show b.toNat / 16 < 16 by omega)),
        spaced_of_isPlain (isPlain_hexDigit (show b.toNat % 16 < 16 by omega))]
      rfl
    rw [h, hkept, Percent.decode_escape]

/-! ### Texts -/

/-- So is a text, byte by byte. -/
theorem isWritten_of_mem_encodeChars {s : String} {x : UInt8}
    (hx : x ∈ Utf8.encode (encodeChars s)) : isWritten x = true := by
  rw [encodeChars, Utf8.encode_flatMap] at hx
  obtain ⟨b, -, hb⟩ := List.mem_flatMap.1 hx
  exact isWritten_of_mem_encodeByte hb

/-- A text that was written is read again, whatever stands behind it. -/
theorem decode_encodeChars (s : String) (rest : Bytes) :
    Percent.decode ((Utf8.encode (encodeChars s) ++ rest).map spaced) =
      Utf8.encodeText s ++ Percent.decode (rest.map spaced) := by
  rw [encodeChars, Utf8.encode_flatMap]
  induction Utf8.encodeText s with
  | nil => rfl
  | cons b bs ih =>
    rw [List.flatMap_cons, List.append_assoc, decode_encodeByte, ih, List.cons_append]

/-- A text is read back from its escaped bytes. -/
theorem decodeBytes_of_decode {s : String} {bs : Bytes}
    (h : Percent.decode (bs.map spaced) = Utf8.encodeText s) : decodeBytes bs = s := by
  have hread : decodeBytes bs = String.ofList (Utf8.decodeLossy (Percent.decode (bs.map spaced))) :=
    rfl
  rw [hread, h, Utf8.encodeText, Utf8.decodeLossy_encode, String.ofList_toList]

/-- A text that was written is read again. -/
theorem decodeBytes_encodeChars (s : String) : decodeBytes (Utf8.encode (encodeChars s)) = s := by
  have hs := decode_encodeChars s []
  rw [List.append_nil, List.map_nil, Percent.decode, List.append_nil] at hs
  exact decodeBytes_of_decode hs

/-! ### Pairs -/

/-- A pair is written as name and value with an equals sign between them. -/
theorem encode_encodePair (p : String × String) : Utf8.encode (encodePair p) =
    Utf8.encode (encodeChars p.1) ++ 0x3D :: Utf8.encode (encodeChars p.2) := by
  rw [encodePair, Utf8.encode_append, Utf8.encode_cons_of_ascii (by decide)]
  rfl

/-- The name of a pair ends with the first equals sign, and whatever stands behind is its value. -/
theorem decodePair_encodeChars_append (name : String) (value : Bytes) :
    decodePair (Utf8.encode (encodeChars name) ++ 0x3D :: value) = (name, decodeBytes value) := by
  have heq : (0x3D : UInt8) ∉ Utf8.encode (encodeChars name) := fun hmem ↦
    absurd (isWritten_of_mem_encodeChars hmem) (by decide)
  rw [decodePair, Text.cut_append heq]
  simp only [Option.getD_some, decodeBytes_encodeChars]

/-- A pair that was written is read again. -/
theorem decodePair_encodePair (p : String × String) :
    decodePair (Utf8.encode (encodePair p)) = p := by
  rw [encode_encodePair, decodePair_encodeChars_append, decodeBytes_encodeChars]

/-- The sign between pairs does not stand in one. -/
theorem ampersand_not_mem_encodePair (p : String × String) :
    (0x26 : UInt8) ∉ Utf8.encode (encodePair p) := by
  rw [encode_encodePair, List.mem_append, List.mem_cons]
  rintro (hmem | heq | hmem)
  · exact absurd (isWritten_of_mem_encodeChars hmem) (by decide)
  · exact absurd heq (by decide)
  · exact absurd (isWritten_of_mem_encodeChars hmem) (by decide)

/-- No pair is written as nothing. -/
theorem encode_encodePair_ne_nil (p : String × String) : Utf8.encode (encodePair p) ≠ [] := by
  simp [encode_encodePair]

/-! ### Forms -/

/-- The first of several pairs is followed by the sign between pairs and the others. -/
theorem joinPairs_cons_of_ne {l : List Char} {ls : List (List Char)} (h : ls ≠ []) :
    joinPairs (l :: ls) = l ++ '&' :: joinPairs ls := by
  cases ls with
  | nil => exact absurd rfl h
  | cons l' ls => rfl

/-- The pairs of a form are its pieces between ampersands. -/
theorem split_joinPairs (h : ps ≠ []) :
    Text.split (0x26 : UInt8) (Utf8.encode (joinPairs (ps.map encodePair))) =
      ps.map fun p ↦ Utf8.encode (encodePair p) := by
  induction ps with
  | nil => exact absurd rfl h
  | cons p ps ih =>
    by_cases hps : ps = []
    · subst hps
      exact Text.split_of_not_mem (ampersand_not_mem_encodePair p)
    · rw [List.map_cons, joinPairs_cons_of_ne (by simpa using hps), Utf8.encode_append,
        Utf8.encode_cons_of_ascii (by decide)]
      exact (Text.split_append (ampersand_not_mem_encodePair p) _).trans
        (congrArg _ (ih hps))

/-- **Pairs that were written are read again**, whatever characters are in them. -/
theorem decode_encode (ps : List (String × String)) : decode (encode ps) = ps := by
  by_cases hps : ps = []
  · subst hps
    rfl
  have hfilter : (ps.map fun p ↦ Utf8.encode (encodePair p)).filter (!·.isEmpty) =
      ps.map fun p ↦ Utf8.encode (encodePair p) := by
    refine List.filter_eq_self.2 fun bs hbs ↦ ?_
    obtain ⟨p, -, rfl⟩ := List.mem_map.1 hbs
    simp [encode_encodePair_ne_nil]
  rw [decode, encode, Utf8.encodeText, String.toList_ofList, split_joinPairs hps, hfilter,
    List.map_map]
  exact (List.map_congr_left fun p _ ↦ decodePair_encodePair p).trans (List.map_id _)

/-- Some pairs are never written as nothing. -/
theorem encode_ne_empty (h : ps ≠ []) : encode ps ≠ "" := by
  intro heq
  have hps := congrArg decode heq
  rw [decode_encode] at hps
  exact h hps

/-- Forms that are joined by an ampersand are one form. -/
theorem encode_append (hp : ps ≠ []) (hq : qs ≠ []) :
    encode (ps ++ qs) = encode ps ++ "&" ++ encode qs := by
  have hjoin : ∀ ls : List (List Char), ls ≠ [] → joinPairs (ls ++ qs.map encodePair) =
      joinPairs ls ++ '&' :: joinPairs (qs.map encodePair) := by
    intro ls hls
    induction ls with
    | nil => exact absurd rfl hls
    | cons l ls ih =>
      by_cases hnil : ls = []
      · subst hnil
        exact joinPairs_cons_of_ne (by simpa using hq)
      · rw [List.cons_append, joinPairs_cons_of_ne (by simp [hnil]), ih hnil,
          joinPairs_cons_of_ne hnil, List.append_assoc, List.cons_append]
  refine String.toList_injective ?_
  rw [encode, encode, encode, List.map_append, hjoin _ (by simpa using hp)]
  simp

/-! ### Lists with commas

A comma is escaped in a form, but it may stand there as it is and is read all the same. So a list
can be written with its items escaped and the commas between them not. -/

/-- The first of several texts is followed by a comma and the others. -/
theorem encode_intercalate_cons {t : String} {ts : List String} (h : ts ≠ []) :
    Utf8.encode ([','].intercalate ((t :: ts).map encodeChars)) = Utf8.encode (encodeChars t) ++
      0x2C :: Utf8.encode ([','].intercalate (ts.map encodeChars)) := by
  rw [List.map_cons, List.intercalate_cons_of_ne_nil (by simpa using h), Utf8.encode_append,
    Utf8.encode_append, Utf8.encode_cons_of_ascii (by decide), List.append_assoc]
  rfl

/-- The items are read with the commas between them. -/
theorem decodeBytes_intercalate (ts : List String) :
    decodeBytes (Utf8.encode ([','].intercalate (ts.map encodeChars))) = ",".intercalate ts := by
  refine decodeBytes_of_decode ?_
  induction ts with
  | nil => rfl
  | cons t ts ih =>
    by_cases hts : ts = []
    · subst hts
      simpa [Percent.decode] using decode_encodeChars t []
    · have hcomma : spaced 0x2C = 0x2C := by decide
      rw [encode_intercalate_cons hts, decode_encodeChars, List.map_cons, hcomma,
        Percent.decode_cons_of_ne (by decide), ih, String.intercalate_cons_of_ne_nil hts]
      simp [Utf8.encodeText, Utf8.encode_cons_of_ascii]

/-- Texts with commas between them hold no sign between pairs. -/
theorem ampersand_not_mem_intercalate (ts : List String) :
    (0x26 : UInt8) ∉ Utf8.encode ([','].intercalate (ts.map encodeChars)) := by
  have htext : ∀ t, (0x26 : UInt8) ∉ Utf8.encode (encodeChars t) := fun t hmem ↦
    absurd (isWritten_of_mem_encodeChars hmem) (by decide)
  induction ts with
  | nil => simp
  | cons t ts ih =>
    by_cases hts : ts = []
    · subst hts
      simpa using htext t
    · rw [encode_intercalate_cons hts]
      simp [htext t, ih]

/-- A line with one name and its value. -/
theorem decode_of_not_mem {line name : String} {value : Bytes} (h : (0x26 : UInt8) ∉ value)
    (hline : Utf8.encodeText line = Utf8.encode (encodeChars name) ++ 0x3D :: value) :
    decode line = [(name, decodeBytes value)] := by
  have hmem : (0x26 : UInt8) ∉ Utf8.encode (encodeChars name) ++ 0x3D :: value := by
    rw [List.mem_append, List.mem_cons]
    rintro (hname | heq | hvalue)
    · exact absurd (isWritten_of_mem_encodeChars hname) (by decide)
    · exact absurd heq (by decide)
    · exact h hvalue
  rw [decode, hline, Text.split_of_not_mem hmem]
  simp [decodePair_encodeChars_append]

/-! ### Lines that were not written as forms

A line need not be the form of any pairs, but it is read all the same. -/

/-- Bytes are read by putting blanks for their sign, undoing the escapes and then decoding UTF-8. -/
theorem toList_decodeBytes (bs : Bytes) :
    (decodeBytes bs).toList = Utf8.decodeLossy (Percent.decode (bs.map spaced)) :=
  String.toList_ofList

/-- What two texts stand for is read with the comma between them. -/
theorem decodeBytes_append_cons (as bs : Bytes) :
    decodeBytes (as ++ 0x2C :: bs) = decodeBytes as ++ "," ++ decodeBytes bs := by
  have hcomma : Percent.decode ((as ++ 0x2C :: bs).map spaced) =
      Percent.decode (as.map spaced) ++ 0x2C :: Percent.decode (bs.map spaced) := by
    rw [List.map_append, List.map_cons]
    exact Percent.decode_append_cons (by decide) (by decide) _ _
  refine String.toList_injective ?_
  rw [toList_decodeBytes, hcomma, Utf8.decodeLossy_append_cons (by decide)]
  simp [toList_decodeBytes]

/-- A line is read piece by piece. -/
theorem decode_append (s t : String) : decode (s ++ "&" ++ t) = decode s ++ decode t := by
  have hbytes : Utf8.encodeText (s ++ "&" ++ t) =
      Utf8.encodeText s ++ 0x26 :: Utf8.encodeText t := by
    simp [Utf8.encodeText, Utf8.encode_cons_of_ascii]
  rw [decode, hbytes, Text.split_append_cons, List.filter_append, List.map_append]
  rfl

/-- Lines that are joined by ampersands are read one by one. -/
theorem decode_intercalate (lines : List String) :
    decode ("&".intercalate lines) = lines.flatMap decode := by
  induction lines with
  | nil => rfl
  | cons line lines ih =>
    by_cases hlines : lines = []
    · simp [hlines]
    · rw [String.intercalate_cons_of_ne_nil hlines, decode_append, ih, List.flatMap_cons]

/-- What stands in front of the first equals sign is the name of a piece, and what stands behind is
its value. -/
theorem decode_pair {name value : String} (hname : '=' ∉ name.toList)
    (hpiece : '&' ∉ (name ++ "=" ++ value).toList) : decode (name ++ "=" ++ value) =
      [(decodeBytes (Utf8.encodeText name), decodeBytes (Utf8.encodeText value))] := by
  have hbytes : Utf8.encodeText (name ++ "=" ++ value) =
      Utf8.encodeText name ++ 0x3D :: Utf8.encodeText value := by
    simp [Utf8.encodeText, Utf8.encode_cons_of_ascii]
  have hequals : (0x3D : UInt8) ∉ Utf8.encodeText name := fun hmem ↦
    hname (Utf8.mem_of_mem_encode (by decide) hmem)
  have hampersand : (0x26 : UInt8) ∉ Utf8.encodeText (name ++ "=" ++ value) := fun hmem ↦
    hpiece (Utf8.mem_of_mem_encode (by decide) hmem)
  rw [decode, Text.split_of_not_mem hampersand, hbytes]
  simp [decodePair, Text.cut_append hequals]

/-! ### The characters of a form -/

/-- A character that can stand in a form: a plain one or a sign. -/
def isFormChar (c : Char) : Bool :=
  c.toNat < 128 && (isPlain (UInt8.ofNat c.toNat) || ['+', '%', '&', '='].contains c)

/-- What may stand in a form is ASCII. -/
theorem ascii_of_isFormChar {c : Char} (h : isFormChar c = true) : c.toNat < 128 := by
  rw [isFormChar, Bool.and_eq_true, decide_eq_true_eq] at h
  exact h.1

/-- The plain characters are letters, digits and a few marks. -/
theorem isAlphanum_or_of_isFormChar {c : Char} (h : isFormChar c = true) :
    c.isAlphanum = true ∨ c ∈ ['*', '-', '.', '_', '+', '%', '&', '='] := by
  have hall : ∀ n < 128, isFormChar (Char.ofNat n) = true → (Char.ofNat n).isAlphanum = true ∨
      Char.ofNat n ∈ ['*', '-', '.', '_', '+', '%', '&', '='] := by decide +kernel
  have hc := hall c.toNat (ascii_of_isFormChar h)
  rw [Char.ofNat_toNat] at hc
  exact hc h

/-- The digits of an escape may stand in a form. -/
theorem isFormChar_hexDigit {n : Nat} (h : n < 16) : isFormChar (Percent.hexDigit n) = true := by
  revert n
  decide

/-- So may plain bytes. -/
theorem isFormChar_of_isPlain (h : isPlain b = true) : isFormChar (Char.ofNat b.toNat) = true := by
  have hall : ∀ n < 128, isPlain (UInt8.ofNat n) = true → isFormChar (Char.ofNat n) = true := by
    decide +kernel
  exact hall b.toNat (ascii_of_isPlain h) (by rwa [UInt8.ofNat_toNat])

/-- A byte is written in characters that may stand in a form. -/
theorem isFormChar_of_mem_encodeByte {c : Char} (hc : c ∈ encodeByte b) :
    isFormChar c = true := by
  have hb : b.toNat < 256 := b.toNat_lt
  rw [encodeByte] at hc
  split at hc
  · obtain rfl := List.mem_singleton.1 hc
    rfl
  rw [Percent.encodeByte] at hc
  split at hc
  · simp only [Percent.escape, List.mem_cons, List.not_mem_nil, or_false] at hc
    rcases hc with rfl | rfl | rfl
    · rfl
    · exact isFormChar_hexDigit (by omega)
    · exact isFormChar_hexDigit (by omega)
  · rename_i hplain
    obtain rfl := List.mem_singleton.1 hc
    exact isFormChar_of_isPlain (by simpa using hplain)

/-- What holds of pairs and is kept when they are joined holds of forms. -/
theorem encode_induction {P : List Char → Prop} (nil : P []) (pair : ∀ p, P (encodePair p))
    (join : ∀ cs ds, P cs → P ds → P (cs ++ '&' :: ds)) (ps : List (String × String)) :
    P (encode ps).toList := by
  rw [encode, String.toList_ofList]
  induction ps with
  | nil => exact nil
  | cons p ps ih =>
    by_cases hps : ps = []
    · subst hps
      exact pair p
    · rw [List.map_cons, joinPairs_cons_of_ne (by simpa using hps)]
      exact join _ _ (pair p) ih

/-- So is a pair. -/
theorem isFormChar_of_mem_encodePair {c : Char} (hc : c ∈ encodePair p) : isFormChar c = true := by
  have htext : ∀ s, c ∈ encodeChars s → isFormChar c = true := fun s hc ↦ by
    obtain ⟨b, -, hb⟩ := List.mem_flatMap.1 hc
    exact isFormChar_of_mem_encodeByte hb
  rcases List.mem_append.1 hc with hc | hc
  · exact htext _ hc
  · rcases List.mem_cons.1 hc with rfl | hc
    · rfl
    · exact htext _ hc

/-- So are pairs, with the signs between them. -/
theorem isFormChar_of_mem_encode {c : Char} (hc : c ∈ (encode ps).toList) :
    isFormChar c = true := by
  refine encode_induction (P := fun cs ↦ ∀ c ∈ cs, isFormChar c = true) (by simp)
    (fun p c hc ↦ isFormChar_of_mem_encodePair hc) (fun cs ds hcs hds c hc ↦ ?_) ps c hc
  rcases List.mem_append.1 hc with hc | hc
  · exact hcs c hc
  · rcases List.mem_cons.1 hc with rfl | hc
    · rfl
    · exact hds c hc

/-- No number sign stands in a form. -/
theorem hash_not_mem_encode (ps : List (String × String)) : '#' ∉ (encode ps).toList := fun hmem ↦
  absurd (isFormChar_of_mem_encode hmem) (by decide)

/-- What is written of a byte begins no escape that it does not end. -/
theorem escaped_encodeByte (b : UInt8) : Percent.Escaped (encodeByte b) := by
  rw [encodeByte]
  split
  · exact .char (by decide) .nil
  rw [Percent.encodeByte]
  split
  · exact Percent.escaped_escape b
  · rename_i hplain
    have hplain : isPlain b = true := by simpa using hplain
    refine .char (fun hsign ↦ ne_sign_of_isPlain hplain ?_) .nil
    have hvalue : ∀ n < 128, (Char.ofNat n).toNat = n := by decide
    rw [← UInt8.toNat_inj, ← hvalue _ (ascii_of_isPlain hplain), hsign]
    rfl

/-- So it is with what is written of a pair. -/
theorem escaped_encodePair (p : String × String) : Percent.Escaped (encodePair p) :=
  (Percent.Escaped.flatMap escaped_encodeByte _).append
    (.char (by decide) (Percent.Escaped.flatMap escaped_encodeByte _))

/-- Every percent sign of a form begins an escaped byte. -/
theorem escaped_encode (ps : List (String × String)) : Percent.Escaped (encode ps).toList :=
  encode_induction .nil escaped_encodePair (fun _ _ hcs hds ↦ hcs.append (.char (by decide) hds)) ps

end Licensing.Form
