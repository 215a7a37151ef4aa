import Licensing.Proofs.Text.Utf8
import Licensing.Text.Percent

/-!
# Decoding what was escaped

An escaped byte is decoded as itself (`decode_escape`), and so is a byte that is not escaped, if it
is not the percent sign (`decode_cons_of_ne`), whatever stands behind it. So a text is decoded as
itself whichever other bytes are escaped in it (`decode_encode`). In what was escaped every percent
sign begins an escaped byte (`Escaped`). Bytes that were never escaped are decoded too; where one of
them can be no part of an escaped byte, they fall into two parts (`decode_append_cons`).
-/

namespace Licensing.Percent

open Utf8 (Bytes)

variable {n : Nat}

theorem hexDigit_ascii (h : n < 16) : (hexDigit n).toNat < 128 := by
  revert n
  decide

theorem hexValue?_hexDigit (h : n < 16) :
    hexValue? (UInt8.ofNat (hexDigit n).toNat) = some n := by
  revert n
  decide

theorem decode_cons_of_ne {b : UInt8} (h : b ≠ sign) (bs : Bytes) :
    decode (b :: bs) = b :: decode bs := by
  match bs with
  | [] | [_] => rfl
  | c :: d :: bs =>
    rw [decode]
    split
    · rw [if_neg h]
    · rfl

/-- A byte stands for itself in front of two that are not both digits. -/
theorem decode_cons_of_not_digits {a b c : UInt8}
    (h : ∀ high low, hexValue? b = some high → hexValue? c = some low → False) (bs : Bytes) :
    decode (a :: b :: c :: bs) = a :: decode (b :: c :: bs) := by
  rw [decode]
  split
  · exact absurd (h _ _ ‹_› ‹_›) id
  · rfl

/-- A byte that can be no part of an escaped one divides what is decoded. -/
theorem decode_append_cons {b : UInt8} (hdigit : hexValue? b = none) (hsign : b ≠ sign)
    (as bs : Bytes) : decode (as ++ b :: bs) = decode as ++ b :: decode bs := by
  -- The last byte in front of it has at most one digit behind itself.
  have hlast : ∀ a, decode (a :: b :: bs) = a :: b :: decode bs := by
    intro a
    rw [← decode_cons_of_ne hsign bs]
    cases bs with
    | nil => rfl
    | cons c bs => exact decode_cons_of_not_digits (by simp [hdigit]) bs
  fun_induction decode as with
  | case1 => exact decode_cons_of_ne hsign bs
  | case2 a => exact hlast a
  | case3 a a' =>
    show decode (a :: a' :: b :: bs) = a :: a' :: b :: decode bs
    rw [decode_cons_of_not_digits (by simp [hdigit]), hlast]
  | case4 a' c as high low hlow hhigh ih =>
    rw [List.cons_append, List.cons_append, List.cons_append, decode, hhigh, hlow]
    simp only [if_true, ih, List.cons_append]
  | case5 a a' c as low high hlow hhigh hne ih =>
    rw [List.cons_append, decode_cons_of_ne hne, ih, List.cons_append]
  | case6 a a' c as hne ih =>
    show decode (a :: a' :: c :: (as ++ b :: bs)) = _
    rw [decode_cons_of_not_digits hne]
    exact congrArg (a :: ·) ih

/-- The bytes of an escaped byte. -/
theorem encode_escape (b : UInt8) : Utf8.encode (escape b) =
    [sign, UInt8.ofNat (hexDigit (b.toNat / 16)).toNat,
      UInt8.ofNat (hexDigit (b.toNat % 16)).toNat] := by
  have hb : b.toNat < 256 := b.toNat_lt
  rw [escape, Utf8.encode_cons_of_ascii (by decide),
    Utf8.encode_cons_of_ascii (hexDigit_ascii (by omega)),
    Utf8.encode_cons_of_ascii (hexDigit_ascii (by omega)), Utf8.encode_nil]
  rfl

theorem decode_escape (b : UInt8) (bs : Bytes) :
    decode (Utf8.encode (escape b) ++ bs) = b :: decode bs := by
  have hb : b.toNat < 256 := b.toNat_lt
  have hvalue : 16 * (b.toNat / 16) + b.toNat % 16 = b.toNat := by omega
  rw [encode_escape, List.cons_append, List.cons_append, List.cons_append, List.nil_append, decode,
    hexValue?_hexDigit (show b.toNat / 16 < 16 by omega),
    hexValue?_hexDigit (show b.toNat % 16 < 16 by omega)]
  simp only [if_true, hvalue, UInt8.ofNat_toNat]

/-- The bytes of a byte that stands for itself. -/
theorem encode_encodeByte_of_not {escaped : UInt8 → Bool} {b : UInt8} (h : escaped b = false)
    (hb : b.toNat < 128) : Utf8.encode (encodeByte escaped b) = [b] := by
  have hascii : ∀ n < 128, (Char.ofNat n).toNat = n := by decide
  have hc : (Char.ofNat b.toNat).toNat = b.toNat := hascii _ hb
  rw [encodeByte, if_neg (by simp [h]), Utf8.encode_cons_of_ascii (by omega), hc,
    UInt8.ofNat_toNat, Utf8.encode_nil]

/-! ### Texts -/

section Texts

variable {escaped : UInt8 → Bool}

theorem decode_encodeByte (hascii : ∀ b, escaped b = false → b.toNat < 128)
    (hsign : escaped sign = true) (b : UInt8) (bs : Bytes) :
    decode (Utf8.encode (encodeByte escaped b) ++ bs) = b :: decode bs := by
  cases hb : escaped b with
  | true => rw [encodeByte, if_pos hb, decode_escape]
  | false =>
    have hne : b ≠ sign := by
      rintro rfl
      exact absurd (hsign.symm.trans hb) (by decide)
    rw [encode_encodeByte_of_not hb (hascii b hb), List.singleton_append, decode_cons_of_ne hne]

/-- **What was escaped is decoded as it was**, as long as the percent sign is escaped too. -/
theorem decode_encode (hascii : ∀ b, escaped b = false → b.toNat < 128)
    (hsign : escaped sign = true) (cs : List Char) :
    decode (Utf8.encode (encode escaped cs)) = Utf8.encode cs := by
  rw [encode, Utf8.encode_flatMap]
  induction Utf8.encode cs with
  | nil => rfl
  | cons b bs ih => rw [List.flatMap_cons, decode_encodeByte hascii hsign, ih]

/-- A character that does not serve to escape others stands for itself. -/
theorem mem_of_mem_encode (hascii : ∀ b, escaped b = false → b.toNat < 128) {c : Char}
    (hsign : c ≠ '%') (hdigit : ∀ n < 16, hexDigit n ≠ c) {cs : List Char}
    (h : c ∈ encode escaped cs) : escaped (UInt8.ofNat c.toNat) = false ∧ c ∈ cs := by
  obtain ⟨b, hb, hmem⟩ := List.mem_flatMap.1 h
  have hlt : b.toNat < 256 := b.toNat_lt
  rw [encodeByte] at hmem
  split at hmem
  · simp only [escape, List.mem_cons, List.not_mem_nil, or_false] at hmem
    rcases hmem with hc | hc | hc
    · exact absurd hc hsign
    · exact absurd hc.symm (hdigit _ (by omega))
    · exact absurd hc.symm (hdigit _ (by omega))
  · rename_i hplain
    have hplain : escaped b = false := eq_false_of_ne_true hplain
    have hvalue : ∀ n < 128, (Char.ofNat n).toNat = n := by decide
    obtain rfl := List.mem_singleton.1 hmem
    refine ⟨?_, Utf8.mem_of_mem_encode (hascii b hplain) hb⟩
    rw [hvalue _ (hascii b hplain), UInt8.ofNat_toNat, hplain]

/-- What need not be escaped is left as it is. -/
theorem encode_eq_self {cs : List Char}
    (h : ∀ c ∈ cs, c.toNat < 128 ∧ escaped (UInt8.ofNat c.toNat) = false) :
    encode escaped cs = cs := by
  induction cs with
  | nil => rfl
  | cons c cs ih =>
    obtain ⟨⟨hascii, hc⟩, hcs⟩ := List.forall_mem_cons.1 h
    have hbyte : (UInt8.ofNat c.toNat).toNat = c.toNat := Utf8.toNat_ofNat (by omega)
    have hself : encodeByte escaped (UInt8.ofNat c.toNat) = [c] := by
      rw [encodeByte, if_neg (by simp [hc]), hbyte, Char.ofNat_toNat]
    rw [encode, Utf8.encode_cons_of_ascii hascii, List.flatMap_cons, hself]
    exact congrArg (c :: ·) (ih hcs)

end Texts

/-! ### Escapes -/

/-- Every percent sign begins an escaped byte. -/
inductive Escaped : List Char → Prop where
  /-- The end. -/
  | nil : Escaped []
  /-- A character that stands for itself. -/
  | char {c : Char} {cs : List Char} (hc : c ≠ '%') (h : Escaped cs) : Escaped (c :: cs)
  /-- An escaped byte. -/
  | byte (b : UInt8) {cs : List Char} (h : Escaped cs) : Escaped (escape b ++ cs)

theorem Escaped.append {cs ds : List Char} (h : Escaped cs) (h' : Escaped ds) :
    Escaped (cs ++ ds) := by
  induction h with
  | nil => exact h'
  | char hc h ih => exact .char hc ih
  | byte b h ih =>
    rw [List.append_assoc]
    exact .byte b ih

theorem Escaped.flatMap {f : UInt8 → List Char} (h : ∀ b, Escaped (f b)) (bs : Bytes) :
    Escaped (bs.flatMap f) := by
  induction bs with
  | nil => exact .nil
  | cons b bs ih => exact (h b).append ih

theorem escaped_escape (b : UInt8) : Escaped (escape b) :=
  .byte b .nil

end Licensing.Percent
