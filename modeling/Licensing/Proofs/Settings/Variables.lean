import Licensing.Proofs.Text.Blank
import Licensing.Proofs.Text.Decimal
import Licensing.Settings

/-!
# What variables say

A variable is set to a text, or it is not set, and then it has a default. So there are two ways to
come to a value (`Yields`), and a variable that is set to something that makes no sense has none: a
default never takes its place (`Yields.means_of_sets`). The accessors of `Variables` find the value
and nothing else, and fail when there is none (`flag_eq_ok_iff`, `number_eq_ok_iff`).
-/

namespace Licensing.Variables

variable {α : Type} {vars : Variables} {key text text' : String} {means : String → α → Prop}
  {default a : α}

/-! ### Texts -/

/-- A variable is set to a text: that is what is left of its value without the blanks around it,
and something is left. -/
def Sets (vars : Variables) (key text : String) : Prop :=
  ∃ value, vars key = some value ∧ Text.isBlank value = false ∧ Text.trim value = text

/-- A variable is not set: it has no value, or one that is blank. -/
def Unset (vars : Variables) (key : String) : Prop :=
  ∀ value, vars key = some value → Text.isBlank value = true

/-- A variable has a text when it is set to this, without the blanks around it. -/
theorem optional_eq_some_iff : vars.optional key = some text ↔ vars.Sets key text := by
  rw [optional, Sets]
  cases hvalue : vars key with
  | none => simp
  | some value =>
    have hblank : Text.isBlank value = false ↔ Text.trim value ≠ "" := by
      rw [← Bool.not_eq_true, ← Text.trim_eq_empty_iff, ne_eq]
    simp only [Option.map_some, Option.filter_eq_some_iff, Option.some.injEq, decide_eq_true_eq]
    constructor
    · rintro ⟨rfl, hne⟩
      exact ⟨value, rfl, hblank.2 hne, rfl⟩
    · rintro ⟨_, rfl, hne, rfl⟩
      exact ⟨rfl, hblank.1 hne⟩

/-- It has none when it is not set, or set to blanks. -/
theorem optional_eq_none_iff : vars.optional key = none ↔ vars.Unset key := by
  rw [optional, Unset]
  cases hvalue : vars key with
  | none => simp
  | some value =>
    simp only [Option.map_some, Option.filter_eq_none_iff, Option.some.injEq, decide_eq_true_eq,
      not_not, forall_eq', Text.trim_eq_empty_iff]

/-- A variable is set to one text only. -/
theorem Sets.eq (h : vars.Sets key text) (h' : vars.Sets key text') : text = text' :=
  Option.some.inj ((optional_eq_some_iff.2 h).symm.trans (optional_eq_some_iff.2 h'))

/-- A variable that is set is not unset. -/
theorem Sets.not_unset (h : vars.Sets key text) : ¬ vars.Unset key := fun hunset ↦ by
  have hnone := optional_eq_none_iff.2 hunset
  rw [optional_eq_some_iff.2 h] at hnone
  cases hnone

/-- A variable is set or it is not. -/
theorem exists_sets_or_unset (vars : Variables) (key : String) :
    (∃ text, vars.Sets key text) ∨ vars.Unset key := by
  cases hvalue : vars.optional key with
  | none => exact .inr (optional_eq_none_iff.1 hvalue)
  | some text => exact .inl ⟨text, optional_eq_some_iff.1 hvalue⟩

/-- A text that a variable is set to is not empty, and there are no blanks around it. -/
theorem Sets.normal (h : vars.Sets key text) : text ≠ "" ∧ Text.trim text = text := by
  obtain ⟨value, -, hblank, rfl⟩ := h
  refine ⟨fun hempty ↦ ?_, Text.trim_trim value⟩
  rw [Text.trim_eq_empty_iff.1 hempty] at hblank
  cases hblank

/-! ### Values -/

/-- What a variable comes to: what the text means that it is set to, or the default. -/
inductive Yields (vars : Variables) (key : String) (means : String → α → Prop) (default : α) :
    α → Prop where
  /-- It is set to a text with a meaning. -/
  | set {text : String} {a : α} (hset : vars.Sets key text) (hmeans : means text a) :
    Yields vars key means default a
  /-- It is not set. -/
  | unset (hunset : vars.Unset key) : Yields vars key means default default

/-- **A default takes the place of nothing that is set**: a text that means nothing is an error, and
not a reason to use the default. -/
theorem Yields.means_of_sets (h : vars.Yields key means default a) (hset : vars.Sets key text) :
    means text a := by
  cases h with
  | set hset' hmeans => exact hset.eq hset' ▸ hmeans
  | unset hunset => exact absurd hunset hset.not_unset

/-- A variable that is not set yields the default. -/
theorem Yields.eq_of_unset (h : vars.Yields key means default a) (hunset : vars.Unset key) :
    a = default := by
  cases h with
  | set hset hmeans => exact absurd hunset hset.not_unset
  | unset _ => rfl

/-- A variable that is set has a meaning, if it yields anything. -/
theorem Yields.exists_means (h : vars.Yields key means default a) (text : String)
    (hset : vars.Sets key text) : ∃ a, means text a :=
  ⟨a, h.means_of_sets hset⟩

/-- A variable comes to a value if it is not set to something without a meaning. -/
theorem exists_yields (default : α) (h : ∀ text, vars.Sets key text → ∃ a, means text a) :
    ∃ a, vars.Yields key means default a := by
  rcases exists_sets_or_unset vars key with ⟨text, hset⟩ | hunset
  · obtain ⟨a, ha⟩ := h text hset
    exact ⟨a, .set hset ha⟩
  · exact ⟨default, .unset hunset⟩

/-- What the accessors have in common. -/
theorem yields_iff : vars.Yields key means default a ↔
    (vars.optional key).elim (a = default) (means · a) := by
  cases hvalue : vars.optional key with
  | none =>
    have hunset := optional_eq_none_iff.1 hvalue
    exact ⟨fun h ↦ h.eq_of_unset hunset, fun h ↦ by subst h; exact .unset hunset⟩
  | some text =>
    have hset := optional_eq_some_iff.1 hvalue
    exact ⟨fun h ↦ h.means_of_sets hset, .set hset⟩

/-- The text of a variable. -/
abbrev YieldsText (vars : Variables) (key default text : String) : Prop :=
  vars.Yields key Eq default text

/-- Reading a text gives what the variable yields. -/
theorem string_eq_iff : vars.string key text = text' ↔ vars.YieldsText key text text' := by
  rw [YieldsText, yields_iff, string]
  cases vars.optional key <;> simp [eq_comm]

/-- A variable yields one text only. -/
theorem YieldsText.unique {default : String} (h : vars.YieldsText key default text)
    (h' : vars.YieldsText key default text') : text = text' :=
  (string_eq_iff.2 h).symm.trans (string_eq_iff.2 h')

/-- What is made of a text. -/
theorem YieldsText.map {default : String} (h : vars.YieldsText key default text)
    (f : String → α) : vars.Yields key (fun text a ↦ a = f text) (f default) (f text) := by
  cases h with
  | set hset hmeans => exact .set hset (hmeans ▸ rfl)
  | unset hunset => exact .unset hunset

/-- With no default the text is empty exactly if the variable is not set. -/
theorem YieldsText.eq_empty_iff (h : vars.YieldsText key "" text) : text = "" ↔ vars.Unset key := by
  cases h with
  | set hset hmeans =>
    subst hmeans
    exact iff_of_false hset.normal.1 hset.not_unset
  | unset hunset => exact iff_of_true rfl hunset

/-- With a default it is never empty. -/
theorem YieldsText.ne_empty {default : String} (h : vars.YieldsText key default text)
    (hdefault : default ≠ "") : text ≠ "" := by
  cases h with
  | set hset hmeans => exact hmeans ▸ hset.normal.1
  | unset _ => exact hdefault

/-- No variable comes to a blank text, unless its default is blank. -/
theorem YieldsText.isBlank_eq_false {default : String} (h : vars.YieldsText key default text)
    (hdefault : Text.isBlank default = false) : Text.isBlank text = false := by
  cases h with
  | set hset hmeans =>
    subst hmeans
    obtain ⟨hne, htrim⟩ := hset.normal
    rw [← Bool.not_eq_true, ← Text.trim_eq_empty_iff, htrim]
    exact hne
  | unset _ => exact hdefault

/-- What a text says that may be missing. -/
abbrev YieldsMaybe (vars : Variables) (key : String) (f : String → α) (a : Option α) : Prop :=
  vars.Yields key (fun text a ↦ a = some (f text)) none a

/-- Reading an optional value gives what the variable yields. -/
theorem optional_map_eq_iff {f : String → α} {a : Option α} :
    (vars.optional key).map f = a ↔ vars.YieldsMaybe key f a := by
  rw [YieldsMaybe, yields_iff]
  cases vars.optional key <;> simp [eq_comm]

/-- There is no optional value exactly if the variable is not set. -/
theorem YieldsMaybe.eq_none_iff {f : String → α} {a : Option α} (h : vars.YieldsMaybe key f a) :
    a = none ↔ vars.Unset key := by
  cases h with
  | set hset hmeans =>
    subst hmeans
    exact iff_of_false (by simp) hset.not_unset
  | unset hunset => exact iff_of_true rfl hunset

/-! ### Flags -/

/-- A text means yes or no; upper case is as good as lower case. -/
def IsFlag (text : String) (b : Bool) : Prop :=
  String.ofList (text.toList.map Char.toLower) ∈ if b then ["true", "1"] else ["false", "0"]

instance (text : String) (b : Bool) : Decidable (IsFlag text b) :=
  inferInstanceAs (Decidable (_ ∈ _))

/-- The truth value of a variable. -/
abbrev YieldsFlag (vars : Variables) (key : String) (default b : Bool) : Prop :=
  vars.Yields key IsFlag default b

/-- Reading a flag gives what the variable yields, and an error if it yields none. -/
theorem flag_eq_ok_iff {default b : Bool} :
    vars.flag key default = .ok b ↔ vars.YieldsFlag key default b := by
  rw [YieldsFlag, yields_iff, flag]
  cases vars.optional key with
  | none => simp [eq_comm]
  | some text =>
    show (if _ then _ else _) = _ ↔ _
    cases b <;> simp [IsFlag] <;> grind

/-- A variable yields one flag only. -/
theorem YieldsFlag.unique {default b b' : Bool} (h : vars.YieldsFlag key default b)
    (h' : vars.YieldsFlag key default b') : b = b' :=
  Except.ok.inj ((flag_eq_ok_iff.2 h).symm.trans (flag_eq_ok_iff.2 h'))

/-! ### Numbers -/

/-- The number of a variable, which is not greater than `most`. -/
abbrev YieldsNumber (vars : Variables) (key : String) (most default n : Nat) : Prop :=
  vars.Yields key (fun text n ↦ Decimal.IsNumeral text n ∧ n ≤ most) default n

/-- Reading a number gives what the variable yields, and an error if it yields none. -/
theorem number_eq_ok_iff {most default n : Nat} :
    vars.number key most default = .ok n ↔ vars.YieldsNumber key most default n := by
  rw [YieldsNumber, yields_iff, number]
  cases vars.optional key with
  | none => simp [eq_comm]
  | some text =>
    rw [Option.elim_some, ← Decimal.readNat?_eq_some_iff]
    cases hread : Decimal.readNat? most text <;> simp [hread]

/-- A variable yields one number only. -/
theorem YieldsNumber.unique {most default n n' : Nat} (h : vars.YieldsNumber key most default n)
    (h' : vars.YieldsNumber key most default n') : n = n' :=
  Except.ok.inj ((number_eq_ok_iff.2 h).symm.trans (number_eq_ok_iff.2 h'))

end Licensing.Variables
