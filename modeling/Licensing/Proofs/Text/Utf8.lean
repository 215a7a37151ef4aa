import Licensing.Text.Utf8

/-!
# Reading what was written in UTF-8

The bytes of characters are read as these characters (`pieces_encode`), so no piece of them is
invalid. A character has one to four bytes. The first of them tells how many are owed, and in which
range the second has to lie; this range holds the second byte of every character, as no character
is a surrogate and none lies behind the last code point. Whatever the bytes are, one of ASCII among
them is read as a character of its own (`decodeLossy_append_cons`).
-/

namespace Licensing.Utf8

variable {n : Nat}

/-! ### The first byte -/

theorem toNat_ofNat {k : Nat} (h : k < 256) : (UInt8.ofNat k).toNat = k := by
  rw [UInt8.toNat_ofNat', Nat.mod_eq_of_lt h]

theorem begin_one (h : n < 0x80) : begin (UInt8.ofNat n) = ([some (Char.ofNat n)], none) := by
  simp only [begin, toNat_ofNat (show n < 256 by omega)]
  rw [if_pos h]

theorem begin_two (h : 0x80 ≤ n) (h' : n < 0x800) :
    begin (UInt8.ofNat (n / 64 % 32 + 192)) = ([], some ⟨1, n / 64, 0x80, 0xBF⟩) := by
  simp only [begin, toNat_ofNat (show n / 64 % 32 + 192 < 256 by omega)]
  rw [if_neg (by omega), if_neg (by omega), if_pos (by omega)]
  have hbits : n / 64 % 32 + 192 - 0xC0 = n / 64 := by omega
  rw [hbits]

/-- The second of three bytes lies in the range that the first tells. -/
theorem begin_three (h : 0x800 ≤ n) (h' : n < 0x10000) (hs : n < 0xD800 ∨ 0xDFFF < n) :
    ∃ low high, begin (UInt8.ofNat (n / 4096 % 16 + 224)) = ([], some ⟨2, n / 4096, low, high⟩) ∧
      low ≤ n / 64 % 64 + 128 ∧ n / 64 % 64 + 128 ≤ high := by
  have hbits : n / 4096 % 16 + 224 - 0xE0 = n / 4096 := by omega
  simp only [begin, toNat_ofNat (show n / 4096 % 16 + 224 < 256 by omega)]
  rw [if_neg (by omega), if_neg (by omega), if_neg (by omega)]
  by_cases hfirst : n / 4096 = 0
  · rw [if_pos (by omega)]
    exact ⟨0xA0, 0xBF, by rw [hfirst], by omega, by omega⟩
  rw [if_neg (by omega)]
  by_cases hlast : n / 4096 = 13
  · rw [if_pos (by omega), hbits]
    exact ⟨0x80, 0x9F, rfl, by omega, by omega⟩
  · rw [if_neg (by omega), if_pos (by omega), hbits]
    exact ⟨0x80, 0xBF, rfl, by omega, by omega⟩

/-- The second of four bytes lies in the range that the first tells. -/
theorem begin_four (h : 0x10000 ≤ n) (h' : n < 0x110000) :
    ∃ low high, begin (UInt8.ofNat (n / 262144 % 8 + 240)) =
        ([], some ⟨3, n / 262144, low, high⟩) ∧
      low ≤ n / 4096 % 64 + 128 ∧ n / 4096 % 64 + 128 ≤ high := by
  have hbits : n / 262144 % 8 + 240 - 0xF0 = n / 262144 := by omega
  simp only [begin, toNat_ofNat (show n / 262144 % 8 + 240 < 256 by omega)]
  rw [if_neg (by omega), if_neg (by omega), if_neg (by omega), if_neg (by omega),
    if_neg (by omega), if_neg (by omega)]
  by_cases hfirst : n / 262144 = 0
  · rw [if_pos (by omega)]
    exact ⟨0x90, 0xBF, by rw [hfirst], by omega, by omega⟩
  rw [if_neg (by omega)]
  by_cases hlast : n / 262144 = 4
  · rw [if_neg (by omega), if_pos (by omega), hbits]
    exact ⟨0x80, 0x8F, rfl, by omega, by omega⟩
  · rw [if_pos (by omega), hbits]
    exact ⟨0x80, 0xBF, rfl, by omega, by omega⟩

/-! ### The bytes that are owed -/

variable {read : List Piece} {owed bits low high k : Nat}

/-- A byte that is owed adds six bits. -/
theorem next_more (h : k < 64) (hlow : low ≤ k + 128) (hhigh : k + 128 ≤ high)
    (howed : 1 < owed) :
    Reading.next ⟨read, some ⟨owed, bits, low, high⟩⟩ (UInt8.ofNat (k + 128)) =
      ⟨read, some ⟨owed - 1, bits * 64 + k, 0x80, 0xBF⟩⟩ := by
  have hk : (UInt8.ofNat (k + 128)).toNat = k + 128 := toNat_ofNat (by omega)
  simp only [Reading.next, step, hk, Bool.and_eq_true, decide_eq_true_eq]
  rw [if_pos ⟨hlow, hhigh⟩, if_neg (by omega), Nat.add_sub_cancel]
  rfl

/-- The last byte that is owed ends the character. -/
theorem next_last (h : k < 64) :
    Reading.next ⟨read, some ⟨1, bits, 0x80, 0xBF⟩⟩ (UInt8.ofNat (k + 128)) =
      ⟨some (Char.ofNat (bits * 64 + k)) :: read, none⟩ := by
  have hk : (UInt8.ofNat (k + 128)).toNat = k + 128 := toNat_ofNat (by omega)
  simp only [Reading.next, step, hk, Bool.and_eq_true, decide_eq_true_eq]
  rw [if_pos (by omega), if_pos (Nat.le_refl 1), Nat.add_sub_cancel]
  rfl

theorem next_of_begin {b : UInt8} {pieces : List Piece} {pending : Option Pending}
    (h : begin b = (pieces, pending)) :
    Reading.next ⟨read, none⟩ b = ⟨pieces.reverse ++ read, pending⟩ := by
  simp only [Reading.next, step, h]

/-! ### Characters -/

/-- The bytes of a character are read as this character. -/
theorem foldl_next_utf8EncodeChar (c : Char) (read : List Piece) :
    (String.utf8EncodeChar c).foldl Reading.next ⟨read, none⟩ = ⟨some c :: read, none⟩ := by
  have hvalid : c.val.toNat < 0xD800 ∨ 0xDFFF < c.val.toNat ∧ c.val.toNat < 0x110000 := c.valid
  have hc : Char.ofNat c.val.toNat = c := Char.ofNat_toNat c
  rw [String.utf8EncodeChar]
  generalize c.val.toNat = n at hvalid hc
  split
  · rw [List.foldl_cons, List.foldl_nil, next_of_begin (begin_one (by omega)), hc]
    rfl
  split
  · rw [List.foldl_cons, List.foldl_cons, List.foldl_nil,
      next_of_begin (begin_two (by omega) (by omega)), next_last (by omega),
      show n / 64 * 64 + n % 64 = n by omega, hc]
    rfl
  split
  · obtain ⟨low, high, hbegin, hlow, hhigh⟩ := begin_three (n := n) (by omega) (by omega) (by omega)
    rw [List.foldl_cons, List.foldl_cons, List.foldl_cons, List.foldl_nil, next_of_begin hbegin,
      next_more (by omega) hlow hhigh (by omega), next_last (by omega),
      show (n / 4096 * 64 + n / 64 % 64) * 64 + n % 64 = n by omega, hc]
    rfl
  · obtain ⟨low, high, hbegin, hlow, hhigh⟩ := begin_four (n := n) (by omega) (by omega)
    rw [List.foldl_cons, List.foldl_cons, List.foldl_cons, List.foldl_cons, List.foldl_nil,
      next_of_begin hbegin, next_more (by omega) hlow hhigh (by omega),
      next_more (by omega) (by omega) (by omega) (by omega), next_last (by omega),
      show ((n / 262144 * 64 + n / 4096 % 64) * 64 + n / 64 % 64) * 64 + n % 64 = n by omega, hc]
    rfl

theorem foldl_next_encode (cs : List Char) (read : List Piece) :
    (encode cs).foldl Reading.next ⟨read, none⟩ = ⟨(cs.map some).reverse ++ read, none⟩ := by
  induction cs generalizing read with
  | nil => rfl
  | cons c cs ih =>
    rw [encode, List.flatMap_cons, List.foldl_append, foldl_next_utf8EncodeChar, ← encode, ih]
    simp

/-- **What was written is read again**: every text has one encoding, and this decodes to it alone.
-/
theorem pieces_encode (cs : List Char) : pieces (encode cs) = cs.map some := by
  rw [pieces, foldl_next_encode]
  simp [Reading.finish]

theorem decodeLossy_encode (cs : List Char) : decodeLossy (encode cs) = cs := by
  rw [decodeLossy, pieces_encode, List.map_map]
  exact List.map_id' cs

/-! ### Characters of ASCII -/

@[simp] theorem encode_nil : encode [] = [] := rfl

@[simp] theorem encode_append (cs ds : List Char) : encode (cs ++ ds) = encode cs ++ encode ds :=
  List.flatMap_append

theorem encode_flatMap (f : UInt8 → List Char) (bs : Bytes) :
    encode (bs.flatMap f) = bs.flatMap fun b ↦ encode (f b) := by
  simp only [encode, List.flatMap_assoc]

/-- Different characters are written differently. -/
theorem encode_inj {cs ds : List Char} (h : encode cs = encode ds) : cs = ds := by
  rw [← decodeLossy_encode cs, h, decodeLossy_encode]

/-- A character of ASCII is one byte. -/
theorem encode_cons_of_ascii {c : Char} (h : c.toNat < 128) (cs : List Char) :
    encode (c :: cs) = UInt8.ofNat c.toNat :: encode cs := by
  have hc : String.utf8EncodeChar c = [UInt8.ofNat c.toNat] := by
    rw [String.utf8EncodeChar]
    exact if_pos (Nat.le_of_lt_succ h)
  rw [encode, List.flatMap_cons, hc]
  rfl

/-- A byte of ASCII is a character: no part of another one is such a byte. -/
theorem mem_of_mem_encode {cs : List Char} {b : UInt8} (hb : b.toNat < 128) (h : b ∈ encode cs) :
    Char.ofNat b.toNat ∈ cs := by
  obtain ⟨c, hc, hmem⟩ := List.mem_flatMap.1 h
  have hofNat : Char.ofNat c.val.toNat = c := Char.ofNat_toNat c
  -- What stands for a character outside of ASCII has the highest bit set.
  have hhigh : ∀ k, 128 ≤ k → k < 256 → b ≠ UInt8.ofNat k := by
    intro k hlow hk heq
    have hvalue : b.toNat = k := by rw [heq, toNat_ofNat hk]
    omega
  rw [String.utf8EncodeChar] at hmem
  generalize c.val.toNat = n at hmem hofNat
  split at hmem
  · have hvalue : b.toNat = n := by
      rw [List.mem_singleton.1 hmem]
      exact toNat_ofNat (by omega)
    rwa [hvalue, hofNat]
  exfalso
  split at hmem
  · simp only [List.mem_cons, List.not_mem_nil, or_false] at hmem
    rcases hmem with heq | heq <;> exact hhigh _ (by omega) (by omega) heq
  split at hmem
  · simp only [List.mem_cons, List.not_mem_nil, or_false] at hmem
    rcases hmem with heq | heq | heq <;> exact hhigh _ (by omega) (by omega) heq
  · simp only [List.mem_cons, List.not_mem_nil, or_false] at hmem
    rcases hmem with heq | heq | heq | heq <;> exact hhigh _ (by omega) (by omega) heq

/-! ### Bytes of ASCII

No part of another character is a byte of ASCII. So where there is one, what stands in front of it
is read as if it were all, even if a character was begun there. -/

section Ascii

variable {b : UInt8} {p : Pending} {r : Reading}

/-- What is read goes behind what was read before. -/
theorem foldl_next_eq (bs : Bytes) (read : List Piece) (pending : Option Pending) :
    bs.foldl Reading.next ⟨read, pending⟩ =
      ⟨(bs.foldl Reading.next ⟨[], pending⟩).read ++ read,
        (bs.foldl Reading.next ⟨[], pending⟩).pending⟩ := by
  induction bs generalizing read pending with
  | nil => rfl
  | cons b bs ih =>
    rw [List.foldl_cons, List.foldl_cons, Reading.next, ih, Reading.next, ih (_ ++ [])]
    simp

theorem finish_foldl_next (bs : Bytes) (read : List Piece) :
    (bs.foldl Reading.next ⟨read, none⟩).finish = read.reverse ++ pieces bs := by
  rw [foldl_next_eq, pieces]
  obtain ⟨read', pending⟩ := bs.foldl Reading.next ⟨[], none⟩
  cases pending <;> simp [Reading.finish]

theorem low_of_begin (h : (begin b).2 = some p) : 0x80 ≤ p.low := by
  grind [begin]

/-- A byte that is owed is none of ASCII. -/
theorem low_of_step (h : (step pending b).2 = some p) : 0x80 ≤ p.low := by
  unfold step at h
  split at h
  · exact low_of_begin h
  split at h
  · split at h
    · cases h
    · obtain rfl := Option.some.inj h
      exact Nat.le_refl 0x80
  · exact low_of_begin h

theorem low_of_foldl_next {bs : Bytes} (h : (bs.foldl Reading.next r).pending = some p)
    (hr : ∀ p, r.pending = some p → 0x80 ≤ p.low) : 0x80 ≤ p.low := by
  induction bs generalizing r with
  | nil => exact hr p h
  | cons b bs ih => exact ih h fun p hp ↦ low_of_step hp

/-- A byte of ASCII ends what was begun. -/
theorem next_of_ascii (hb : b.toNat < 128) (hr : ∀ p, r.pending = some p → 0x80 ≤ p.low) :
    r.next b = ⟨some (Char.ofNat b.toNat) :: r.finish.reverse, none⟩ := by
  have hbegin : begin b = ([some (Char.ofNat b.toNat)], none) := by
    rw [begin]
    exact if_pos hb
  obtain ⟨read, pending⟩ := r
  cases pending with
  | none => simp [Reading.next, step, hbegin, Reading.finish]
  | some p =>
    have hlow : 0x80 ≤ p.low := hr p rfl
    have hout : ¬ p.low ≤ b.toNat := by omega
    simp [Reading.next, step, hbegin, Reading.finish, hout]

/-- **A byte of ASCII is a character**, whatever stands in front of it. -/
theorem decodeLossy_append_cons (hb : b.toNat < 128) (as bs : Bytes) :
    decodeLossy (as ++ b :: bs) = decodeLossy as ++ Char.ofNat b.toNat :: decodeLossy bs := by
  have hpieces : pieces (as ++ b :: bs) = pieces as ++ some (Char.ofNat b.toNat) :: pieces bs := by
    rw [pieces, List.foldl_append, List.foldl_cons,
      next_of_ascii hb fun p hp ↦ low_of_foldl_next hp (by simp), finish_foldl_next]
    simp [pieces]
  simp [decodeLossy, hpieces]

end Ascii

end Licensing.Utf8
