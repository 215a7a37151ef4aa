import Licensing.Identity.Variation
import Licensing.Proofs.Json.Record
import Mathlib.Logic.Relation

/-!
# What is not read does not matter

One edit of a part of a document leaves each field of the part as it was or edits it
(`Edit.fields?_close`). No reader of a field can tell: a text and a flag are no objects, and a part
is read from its own fields. So the identity stays what it was, part by part from the inside to the
whole document, and after any edits, made or undone (`ofDocument?_eq_of_varies`).
-/

namespace Licensing.Identity

open Json (Document)
open Json.Document (areNamed valuesOf sole?)
open Utf8 (Bytes)

variable {p : Part} {name : String} {names : List String} {d d' : Document}
  {members members' : List (Bytes × Document)} {f f' : Option Document}

/-! ### Fields after an edit -/

/-- A field of a part is as it was, or was edited. -/
inductive FieldClose (p : Part) : Option Document → Option Document → Prop where
  | same (f : Option Document) : FieldClose p f f
  | edit {d d' : Document} (h : Edit p d d') : FieldClose p (some d) (some d')

/-- Each of the fields that a part has under these names is as it was, or was edited. -/
inductive FieldsClose (p : Part) :
    List String → List (Option Document) → List (Option Document) → Prop where
  | nil : FieldsClose p [] [] []
  | cons {name : String} {names : List String} {f f' : Option Document}
    {fs fs' : List (Option Document)} (h : FieldClose (p.member name) f f')
    (hs : FieldsClose p names fs fs') : FieldsClose p (name :: names) (f :: fs) (f' :: fs')

theorem memberAt_eq {raw : Bytes} (h : Json.textOf raw = some name) :
    p.memberAt raw = p.member name := by
  rw [Part.memberAt, h]

/-- Only objects and lists are edited, and they stay what they are. -/
theorem Edit.shape (h : Edit p d d') :
    (∃ members members', d = .object members ∧ d' = .object members') ∨
      ∃ items items', p = .other ∧ d = .list items ∧ d' = .list items' := by
  cases h with
  | add | permute | within => exact .inl ⟨_, _, rfl, rfl⟩
  | item => exact .inr ⟨_, _, rfl, rfl, rfl⟩

/-- An edit of an object keeps all its names texts. -/
theorem areNamed_eq_of_edit (h : Edit p (.object members) (.object members')) (hp : p ≠ .other) :
    areNamed members = areNamed members' := by
  cases h with
  | @add _ raw d _ h =>
    obtain rfl | ⟨name, hraw, -⟩ := h
    · exact absurd rfl hp
    · rw [Json.Document.areNamed_cons, hraw, Option.isSome_some, Bool.true_and]
  | permute h => exact Json.Document.areNamed_perm h
  | within => rfl

/-- What an edited object has under a name that is read there is as it was, or was edited. -/
theorem sole?_close (h : Edit p (.object members) (.object members')) (hname : name ∈ p.names) :
    Option.Rel (FieldClose (p.member name)) (sole? (valuesOf name members))
      (sole? (valuesOf name members')) := by
  have hsame (x : Option (Option Document)) : Option.Rel (FieldClose (p.member name)) x x := by
    cases x with
    | none => exact .none
    | some f => exact .some (.same f)
  cases h with
  | @add _ raw d _ h =>
    have hraw : Json.textOf raw ≠ some name := by
      intro hraw
      obtain rfl | ⟨other, hother, hnot⟩ := h
      · exact absurd hname List.not_mem_nil
      · obtain rfl := Option.some.inj (hother.symm.trans hraw)
        exact hnot hname
    rw [Json.Document.valuesOf_cons_of_ne hraw]
    exact hsame _
  | permute h =>
    rw [Json.Document.sole?_valuesOf_perm h]
    exact hsame _
  | @within _ raw d d' rest h =>
    by_cases hraw : Json.textOf raw = some name
    · rw [memberAt_eq hraw] at h
      rw [Json.Document.valuesOf_cons_self hraw, Json.Document.valuesOf_cons_self hraw]
      cases valuesOf name rest with
      | nil => exact .some (.edit h)
      | cons => exact .none
    · rw [Json.Document.valuesOf_cons_of_ne hraw, Json.Document.valuesOf_cons_of_ne hraw]
      exact hsame _

theorem mapM_close {g g' : String → Option (Option Document)}
    (h : ∀ name ∈ names, Option.Rel (FieldClose (p.member name)) (g name) (g' name)) :
    Option.Rel (FieldsClose p names) (names.mapM g) (names.mapM g') := by
  induction names with
  | nil => exact .some .nil
  | cons name names ih =>
    have hfirst := h name List.mem_cons_self
    have hrest := ih fun other hother ↦ h other (List.mem_cons_of_mem name hother)
    rw [List.mapM_cons, List.mapM_cons]
    revert hfirst hrest
    generalize g name = x
    generalize g' name = x'
    generalize names.mapM g = xs
    generalize names.mapM g' = xs'
    rintro (hfirst | _) hrest
    · rcases hrest with hrest | _
      · exact .some (.cons hfirst hrest)
      · exact .none
    · exact .none

/-- **An edit leaves each field of a part as it was or edits it**, and a part that is refused is
refused before and after. -/
theorem Edit.fields?_close (h : Edit p d d') (hp : p ≠ .other) :
    d.fields? p.names = none ∧ d'.fields? p.names = none ∨
      ∃ fs fs', d.fields? p.names = some fs ∧ d'.fields? p.names = some fs' ∧
        FieldsClose p p.names fs fs' := by
  obtain ⟨members, members', rfl, rfl⟩ | ⟨-, -, rfl, -⟩ := h.shape
  · have hclose := mapM_close fun name (hname : name ∈ p.names) ↦ sole?_close h hname
    rw [Json.Document.fields?_object, Json.Document.fields?_object, areNamed_eq_of_edit h hp]
    revert hclose
    generalize p.names.mapM (fun name ↦ sole? (valuesOf name members)) = x
    generalize p.names.mapM (fun name ↦ sole? (valuesOf name members')) = y
    rintro (hclose | _)
    · cases areNamed members' with
      | false => exact .inl ⟨rfl, rfl⟩
      | true => exact .inr ⟨_, _, rfl, rfl, hclose⟩
    · exact .inl ⟨ite_self none, ite_self none⟩
  · exact absurd rfl hp

/-! ### Readers of fields -/

theorem FieldClose.textField_eq (h : FieldClose p f f') : textField f = textField f' := by
  cases h with
  | same => rfl
  | edit h =>
    obtain ⟨_, _, rfl, rfl⟩ | ⟨_, _, -, rfl, rfl⟩ := h.shape <;> rfl

theorem FieldClose.flagField_eq (h : FieldClose p f f') : flagField f = flagField f' := by
  cases h with
  | same => rfl
  | edit h =>
    obtain ⟨_, _, rfl, rfl⟩ | ⟨_, _, -, rfl, rfl⟩ := h.shape <;> rfl

theorem FieldClose.partField_eq {α : Type} {part : Document → Option α}
    (hpart : ∀ d d', Edit p d d' → part d = part d') (h : FieldClose p f f') :
    partField part f = partField part f' := by
  cases h with
  | same => rfl
  | @edit d d' h =>
    have hread := hpart d d' h
    obtain ⟨_, _, rfl, rfl⟩ | ⟨_, _, -, rfl, rfl⟩ := h.shape <;>
      exact congrArg (Option.map some) hread

/-! ### Readers of parts -/

theorem Edit.textPart?_eq (hnames : p.names = [name]) (h : Edit p d d') :
    textPart? name d = textPart? name d' := by
  have hp : p ≠ .other := by
    rintro rfl
    exact absurd hnames nofun
  have hclose := h.fields?_close hp
  rw [hnames] at hclose
  unfold textPart?
  obtain ⟨hnone, hnone'⟩ | ⟨fs, fs', hfs, hfs', hclose⟩ := hclose
  · rw [hnone, hnone']
  · rw [hfs, hfs']
    obtain _ | ⟨htext, ⟨⟩⟩ := hclose
    exact htext.textField_eq

theorem Edit.userPart_eq (h : Edit .user d d') :
    UserPart.ofDocument? d = UserPart.ofDocument? d' := by
  have hclose := h.fields?_close nofun
  simp only [Part.names] at hclose
  unfold UserPart.ofDocument?
  obtain ⟨hnone, hnone'⟩ | ⟨fs, fs', hfs, hfs', hclose⟩ := hclose
  · rw [hnone, hnone']
  · rw [hfs, hfs']
    obtain _ | ⟨husername, _ | ⟨hemail, _ | ⟨hinternal, _ | ⟨hadmin, ⟨⟩⟩⟩⟩⟩ := hclose
    dsimp only
    rw [husername.textField_eq, hemail.textField_eq, hinternal.flagField_eq, hadmin.flagField_eq]

theorem Edit.ofBody?_eq (h : Edit .identity d d') : ofBody? d = ofBody? d' := by
  have hclose := h.fields?_close nofun
  simp only [Part.names] at hclose
  unfold ofBody?
  obtain ⟨hnone, hnone'⟩ | ⟨fs, fs', hfs, hfs', hclose⟩ := hclose
  · rw [hnone, hnone']
  · rw [hfs, hfs']
    obtain _ | ⟨hnumber, _ | ⟨horg, _ | ⟨htype, _ | ⟨hinternal, hclose⟩⟩⟩⟩ := hclose
    obtain _ | ⟨huser, _ | ⟨haccount, ⟨⟩⟩⟩ := hclose
    dsimp only
    rw [hnumber.textField_eq, horg.textField_eq, htype.textField_eq,
      hinternal.partField_eq fun _ _ h ↦ h.textPart?_eq rfl,
      huser.partField_eq fun _ _ h ↦ h.userPart_eq,
      haccount.partField_eq fun _ _ h ↦ h.textPart?_eq rfl]

/-- **An edit of a document keeps the identity.** An edit changes the order of members, adds one
that is not read, or does this further inside. -/
theorem Edit.ofDocument?_eq (h : Edit .document d d') : ofDocument? d = ofDocument? d' := by
  have hclose := h.fields?_close nofun
  simp only [Part.names] at hclose
  unfold ofDocument?
  obtain ⟨hnone, hnone'⟩ | ⟨fs, fs', hfs, hfs', hclose⟩ := hclose
  · rw [hnone, hnone']
  · rw [hfs, hfs']
    obtain _ | ⟨hbody, ⟨⟩⟩ := hclose
    cases hbody with
    | same => rfl
    | edit h => exact h.ofBody?_eq

/-! ### Any number of edits -/

/-- A document comes from another by edits that are made or undone. -/
def Varies : Document → Document → Prop :=
  Relation.EqvGen (Edit .document)

/-- **Edits that are made or undone keep the identity**, by induction on them. -/
theorem ofDocument?_eq_of_varies (h : Varies d d') : ofDocument? d = ofDocument? d' := by
  induction h with
  | rel d d' h => exact h.ofDocument?_eq
  | refl d => rfl
  | symm d d' _ ih => exact ih.symm
  | trans d d' d'' _ _ ih ih' => exact ih.trans ih'

end Licensing.Identity
