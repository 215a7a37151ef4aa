import Licensing.Text.Blank
import Mathlib.Data.List.DropRight

/-!
# Trimming

Trimming leaves no blank at either end, so a text that was trimmed stays as it is (`trim_trim`), and
it adds no character. Blanks around a text make no difference to it (`trim_padded`).
-/

namespace Licensing.Text

variable {c : Char} {cs : List Char} {s : String}

theorem trimEndChars_eq (cs : List Char) : trimEndChars cs = cs.rdropWhile isBlankChar :=
  rfl

/-- Dropping blanks at the end brings none to the front. -/
theorem trimStartChars_trimChars (cs : List Char) :
    trimStartChars (trimChars cs) = trimChars cs := by
  refine List.dropWhile_eq_self_iff.2 fun hpos ↦ ?_
  have hfront : trimChars cs <+: trimStartChars cs := List.rdropWhile_prefix isBlankChar _
  rw [hfront.getElem hpos]
  exact List.dropWhile_get_zero_not isBlankChar cs (hpos.trans_le hfront.length_le)

theorem trimChars_trimChars (cs : List Char) : trimChars (trimChars cs) = trimChars cs := by
  rw [trimChars, trimStartChars_trimChars, trimChars, trimEndChars_eq, trimEndChars_eq]
  exact List.rdropWhile_idempotent _ _

/-- **What was trimmed stays as it is.** -/
theorem trim_trim (s : String) : trim (trim s) = trim s := by
  rw [trim, trim, String.toList_ofList, trimChars_trimChars]

theorem mem_of_mem_trim (h : c ∈ (trim s).toList) : c ∈ s.toList := by
  rw [trim, String.toList_ofList] at h
  exact List.dropWhile_subset _ ((List.rdropWhile_prefix isBlankChar _).subset h)

/-! ### Blanks around a text -/

variable {lead trail : List Char}

theorem trimStartChars_append (h : lead.all isBlankChar = true) (cs : List Char) :
    trimStartChars (lead ++ cs) = trimStartChars cs :=
  List.dropWhile_append_of_pos (List.all_eq_true.1 h)

theorem trimEndChars_append (h : trail.all isBlankChar = true) (cs : List Char) :
    trimEndChars (cs ++ trail) = trimEndChars cs := by
  have hreverse : trail.reverse.all isBlankChar = true := by rwa [List.all_reverse]
  rw [trimEndChars, List.reverse_append, List.dropWhile_append_of_pos (List.all_eq_true.1 hreverse),
    trimEndChars]

theorem trimChars_append (h : trail.all isBlankChar = true) (cs : List Char) :
    trimChars (cs ++ trail) = trimChars cs := by
  by_cases hblank : cs.all isBlankChar = true
  · have hboth : (cs ++ trail).all isBlankChar = true := by rw [List.all_append, hblank, h]; rfl
    rw [trimChars_eq_nil_iff.2 hblank, trimChars_eq_nil_iff.2 hboth]
  -- There is a character that is no blank, and what follows it stays for the end.
  · have hstart : (cs.dropWhile isBlankChar).isEmpty = false := by
      rw [List.isEmpty_eq_false_iff]
      exact fun hnil ↦ hblank (trimStartChars_eq_nil_iff.1 hnil)
    rw [trimChars, trimStartChars, List.dropWhile_append, hstart, if_neg Bool.false_ne_true,
      trimEndChars_append h]
    rfl

/-- **Blanks around a text make no difference** to what is left of it. -/
theorem trim_padded {before after : String} (hbefore : isBlank before = true)
    (hafter : isBlank after = true) (s : String) : trim (before ++ s ++ after) = trim s := by
  rw [trim, String.toList_append, String.toList_append, trimChars_append hafter, trimChars,
    trimStartChars_append hbefore]
  rfl

end Licensing.Text
