import Licensing.Seat.Paging
import Mathlib.Order.MinMax

/-!
# Pages and offsets agree

An offset and the start of its page differ by less than a page, the start is between two pages, and
asking for the start finds the same page again. Both translations are cut off at 64 bits. A product
never is: the start of a page lies at or below the offset (`offsetForPage_pageForOffset`). A number
of a page is cut off at one place only, the greatest offset with one seat a page: the page that
holds it would have the number 2⁶⁴ (`div_lt_maxU64`). There the page before is found, and that is
the only exception (`translated`, `greatest_not_within`).
-/

namespace Licensing.Paging

open Decimal (capU64 maxU64)

variable {offset limit : Nat}

/-! ### Where numbers are cut off -/

theorem capU64_mono : Monotone capU64 :=
  fun _ _ h ↦ min_le_min h le_rfl

/-- The number of the page of an offset, unless it is cut off. -/
theorem pageForOffset_of_lt (hpos : 0 < limit) (h : offset / limit < maxU64) :
    pageForOffset offset limit = offset / limit + 1 := by
  rw [pageForOffset, if_neg hpos.ne']
  exact min_eq_left h

/-- The number of the page is cut off for no offset but the greatest, and only when a page holds
one seat. -/
theorem div_lt_maxU64 (hpos : 0 < limit) (hoffset : offset ≤ maxU64)
    (h : ¬ (offset = maxU64 ∧ limit = 1)) : offset / limit < maxU64 := by
  rcases Nat.lt_or_eq_of_le (Nat.one_le_of_lt hpos) with hlimit | rfl
  · have hhalf : offset / limit ≤ offset / 2 := Nat.div_le_div_left hlimit (by decide)
    rw [maxU64] at hoffset ⊢
    omega
  · rw [Nat.div_one]
    exact lt_of_le_of_ne hoffset fun heq ↦ h ⟨heq, rfl⟩

/-- **The start of a page** is the multiple of its size next to the offset from below. -/
theorem offsetForPage_pageForOffset (hpos : 0 < limit) (hoffset : offset ≤ maxU64)
    (h : offset / limit < maxU64) :
    offsetForPage (pageForOffset offset limit) limit = offset / limit * limit := by
  rw [pageForOffset_of_lt hpos h, offsetForPage, Nat.add_sub_cancel]
  exact min_eq_left ((Nat.div_mul_le_self offset limit).trans hoffset)

/-- No offset is on an earlier page than one before it. -/
theorem pageForOffset_mono (limit : Nat) : Monotone (pageForOffset · limit) := by
  intro earlier later h
  show pageForOffset earlier limit ≤ pageForOffset later limit
  rw [pageForOffset, pageForOffset]
  split
  · exact le_rfl
  · exact capU64_mono (Nat.succ_le_succ (Nat.div_le_div_right h))

/-! ### There and back -/

/-- How an offset, the page that holds it and the start of that page belong together. -/
structure Translated (offset limit : Nat) : Prop where
  /-- The page starts at the offset or before. -/
  le : offsetForPage (pageForOffset offset limit) limit ≤ offset
  /-- The page reaches to the offset, unless its number is too great for one. -/
  lt_iff : offset - offsetForPage (pageForOffset offset limit) limit < limit ↔
    ¬ (offset = maxU64 ∧ limit = 1)
  /-- The page starts between two pages. -/
  dvd : limit ∣ offsetForPage (pageForOffset offset limit) limit
  /-- The start is on the page. -/
  stable : pageForOffset (offsetForPage (pageForOffset offset limit) limit) limit =
    pageForOffset offset limit
  /-- Earlier offsets are on the page or on an earlier one. -/
  mono : ∀ earlier ≤ offset, pageForOffset earlier limit ≤ pageForOffset offset limit

/-- Wherever the number of the page is not cut off, the quotient tells the page and the remainder
how far the offset is into it. -/
theorem translated_of_lt (hpos : 0 < limit) (hoffset : offset ≤ maxU64)
    (h : ¬ (offset = maxU64 ∧ limit = 1)) : Translated offset limit := by
  have hpage : offset / limit < maxU64 := div_lt_maxU64 hpos hoffset h
  have hstart := offsetForPage_pageForOffset hpos hoffset hpage
  have hback : offset / limit * limit / limit = offset / limit := Nat.mul_div_cancel _ hpos
  refine ⟨?_, ?_, ?_, ?_, fun _ hle ↦ pageForOffset_mono limit hle⟩
  · rw [hstart]
    exact Nat.div_mul_le_self offset limit
  · have hsplit : limit * (offset / limit) + offset % limit = offset := Nat.div_add_mod ..
    have hmod : offset % limit < limit := Nat.mod_lt offset hpos
    rw [hstart, Nat.mul_comm]
    exact iff_of_true (by omega) h
  · rw [hstart]
    exact Nat.dvd_mul_left ..
  · rw [hstart, pageForOffset_of_lt hpos (hback.symm ▸ hpage), hback,
      pageForOffset_of_lt hpos hpage]

/-- **Pages and offsets agree.** At the one place where the number of the page is cut off, the page
before the right one is told. -/
theorem translated (hpos : 0 < limit) (hoffset : offset ≤ maxU64) : Translated offset limit := by
  by_cases h : offset = maxU64 ∧ limit = 1
  · obtain ⟨rfl, rfl⟩ := h
    exact ⟨by decide, by decide, Nat.one_dvd _, by decide, fun _ hle ↦ pageForOffset_mono 1 hle⟩
  · exact translated_of_lt hpos hoffset h

/-- The greatest offset, with two seats a page. -/
theorem translated_greatest : 0 < 2 ∧ maxU64 ≤ maxU64 ∧ Translated maxU64 2 :=
  ⟨by decide, le_rfl, translated (by decide) le_rfl⟩

/-- Not every offset of 64 bits is on its page: the greatest is not when a page holds one seat. -/
theorem greatest_not_within : ¬ ∀ offset limit, offset ≤ maxU64 → 0 < limit → limit ≤ maxU64 →
    offset - offsetForPage (pageForOffset offset limit) limit < limit := by
  intro h
  have hone : maxU64 - offsetForPage (pageForOffset maxU64 1) 1 < 1 :=
    h maxU64 1 le_rfl (by decide) (by decide)
  exact absurd hone (by decide)

end Licensing.Paging
