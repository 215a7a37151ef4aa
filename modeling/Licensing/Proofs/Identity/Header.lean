import Licensing.Proofs.Identity.Variation
import Licensing.Proofs.Json.Reading
import Licensing.Proofs.Text.Blank
import Mathlib

/-!
# The caller that a header states

Who calls is determined by what is read of the document in a header (`determined_of_presents`).
Neither blanks around the header, nor how the document is written, nor what is not read in it make a
difference; and a caller has a right only from the member that is meant for it: the flags from the
part about a user, the organization from the identity or, if that is silent, from the internal part.
-/

namespace Licensing.Identity

open Json (Document)
open Utf8 (Bytes encodeText)

variable {d body : Document} {f : Option Document} {i : Identity} {text : String}

/-! ### Headers -/

/-- Which document a header presents can be computed. -/
theorem presents_iff :
    Presents text d ↔ (Base64.decode (Text.trim text).toList).bind Document.read = some d := by
  rw [Option.bind_eq_some_iff]
  exact exists_congr fun bytes ↦ and_congr_right fun _ ↦ Json.read_eq_some_iff.symm

/-- A header that presents a document is read as that document is. -/
theorem ofHeaderText_of_presents (h : Presents text d) :
    ofHeaderText text = (ofDocument? d).elim (.error .document) .ok := by
  obtain ⟨bytes, hdecode, hwrites⟩ := h
  have hread : Json.readAs ofDocument? bytes = ofDocument? d := by
    rw [Json.readAs, Json.read_eq_some_iff.2 hwrites, Option.bind_some]
  simp only [ofHeaderText, hdecode, hread]
  cases ofDocument? d <;> rfl

/-- **What is accepted presents a document.** A header is Base64 of a JSON document of an identity,
and the caller is what is read of this document. -/
theorem exists_presents (h : ofHeaderText text = .ok i) : ∃ d, Presents text d := by
  rw [ofHeaderText] at h
  split at h
  · exact absurd h nofun
  · rename_i bytes hdecode
    split at h
    · rename_i i' hread
      obtain ⟨d, hd, -⟩ := Option.bind_eq_some_iff.1 hread
      exact ⟨d, bytes, hdecode, Json.read_eq_some_iff.1 hd⟩
    · exact absurd h nofun

theorem ofDocument?_of_ok (h : Presents text d) (hok : ofHeaderText text = .ok i) :
    ofDocument? d = some i := by
  rw [ofHeaderText_of_presents h] at hok
  cases hi : ofDocument? d with
  | none => exact absurd (hi ▸ hok) nofun
  | some i' =>
    rw [hi] at hok
    exact congrArg some (Except.ok.inj hok)

/-! ### What was read of the parts -/

theorem textField_eq_textOrEmpty {s : String} (h : textField f = some s) :
    s = Document.textOrEmpty f := by
  match f, h with
  | none, h => exact (Option.some.inj h).symm
  | some (.text raw), h =>
    have hraw : Json.textOf raw = some s := h
    rw [Document.textOrEmpty, hraw, Option.getD_some]

theorem flagField_eq_true_iff {flag : Bool} (h : flagField f = some flag) :
    flag = true ↔ f = some (.bool true) := by
  match f, h with
  | none, h =>
    obtain rfl := Option.some.inj h
    simp
  | some (.bool b), h =>
    obtain rfl := Option.some.inj h
    simp

/-- A part is missing or null, or it is read. -/
theorem partField_cases {α : Type} {part : Document → Option α} {x : Option α}
    (h : partField part f = some x) :
    (∀ name, f.bind (Document.member? name) = none) ∧ x = none ∨
      ∃ d a, f = some d ∧ x = some a ∧ part d = some a := by
  cases f with
  | none => exact .inl ⟨fun _ ↦ rfl, (Option.some.inj h).symm⟩
  | some d =>
    cases d with
    | null => exact .inl ⟨fun _ ↦ rfl, (Option.some.inj h).symm⟩
    | bool | number | text | list | object =>
      obtain ⟨a, ha, rfl⟩ := Option.map_eq_some_iff.1 h
      exact .inr ⟨_, a, rfl, rfl, ha⟩

/-- The text of a part with one text. -/
theorem getD_of_textPart {name : String} {x : Option String}
    (h : partField (textPart? name) f = some x) (hlist : ∀ items, f ≠ some (.list items)) :
    x.getD "" = Document.textOrEmpty (f.bind (Document.member? name)) := by
  obtain ⟨hnone, rfl⟩ | ⟨d, s, rfl, rfl, hs⟩ := partField_cases h
  · rw [hnone]
    rfl
  · rw [textPart?] at hs
    split at hs
    · rename_i field hfields
      have hmember := Document.eq_map_member?_of_fields? hfields
        fun items heq ↦ hlist items (congrArg some heq)
      obtain rfl := (List.cons.inj hmember).1
      exact textField_eq_textOrEmpty hs
    · exact absurd hs (by simp)

/-- The flags of a part about a user are the members of their names. -/
theorem flags_of_userPart {x : Option UserPart} (h : partField UserPart.ofDocument? f = some x)
    (hlist : ∀ items, f ≠ some (.list items)) :
    ((x.getD default).isInternal = true ↔
        f.bind (Document.member? "is_internal") = some (.bool true)) ∧
      ((x.getD default).isOrgAdmin = true ↔
        f.bind (Document.member? "is_org_admin") = some (.bool true)) := by
  obtain ⟨hnone, rfl⟩ | ⟨d, user, rfl, rfl, huser⟩ := partField_cases h
  · rw [hnone, hnone]
    exact ⟨⟨nofun, nofun⟩, ⟨nofun, nofun⟩⟩
  · rw [UserPart.ofDocument?] at huser
    split at huser
    · rename_i username email isInternal isOrgAdmin hfields
      have hmember := Document.eq_map_member?_of_fields? hfields
        fun items heq ↦ hlist items (congrArg some heq)
      simp only [List.map_cons, List.map_nil, List.cons.injEq, and_true] at hmember
      obtain ⟨-, -, rfl, rfl⟩ := hmember
      simp only [Option.bind_eq_bind, Option.bind_eq_some_iff] at huser
      obtain ⟨_, -, _, -, internal, hinternal, admin, hadmin, huser⟩ := huser
      obtain rfl := Option.some.inj huser
      exact ⟨flagField_eq_true_iff hinternal, flagField_eq_true_iff hadmin⟩
    · exact absurd huser (by simp)

/-! ### What was read of the document -/

/-- What an identity allows is what its parts say. -/
theorem rights_of_ofBody? (h : ofBody? body = some i) (hbody : ∀ items, body ≠ .list items)
    (hinternal : ∀ items, body.member? "internal" ≠ some (.list items))
    (huser : ∀ items, body.member? "user" ≠ some (.list items)) :
    (i.isInternal = true ↔ body.valueAt ["user", "is_internal"] = some (.bool true)) ∧
      (i.orgAdmin = true ↔ body.valueAt ["user", "is_org_admin"] = some (.bool true)) ∧
      i.orgId = if Document.textOrEmpty (body.valueAt ["org_id"]) = "" then
        Document.textOrEmpty (body.valueAt ["internal", "org_id"])
        else Document.textOrEmpty (body.valueAt ["org_id"]) := by
  rw [Document.valueAt_pair, Document.valueAt_pair, Document.valueAt_pair,
    Document.valueAt_singleton]
  rw [ofBody?] at h
  split at h
  · rename_i number org type internal user account hfields
    have hmember := Document.eq_map_member?_of_fields? hfields hbody
    simp only [List.map_cons, List.map_nil, List.cons.injEq, and_true] at hmember
    obtain ⟨-, rfl, -, rfl, rfl, -⟩ := hmember
    simp only [Option.bind_eq_bind, Option.bind_eq_some_iff] at h
    obtain ⟨_, -, orgId, horg, _, -, internalPart, hinternalPart, userPart, huserPart, _, -, h⟩ := h
    obtain rfl := Option.some.inj h
    obtain ⟨hflag, hadmin⟩ := flags_of_userPart huserPart huser
    refine ⟨hflag, hadmin, ?_⟩
    rw [← textField_eq_textOrEmpty horg, ← getD_of_textPart hinternalPart hinternal]
  · exact absurd h (by simp)

/-- The identity of a document is read from the member of its name. -/
theorem exists_body (h : ofDocument? d = some i) (hd : ∀ items, d ≠ .list items) :
    ∃ body, d.member? "identity" = some body ∧ ofBody? body = some i := by
  rw [ofDocument?] at h
  split at h
  · rename_i identity hfields
    have hmember := Document.eq_map_member?_of_fields? hfields hd
    obtain rfl := (List.cons.inj hmember).1
    cases hbody : d.member? "identity" with
    | none => exact absurd h (by simp [hbody, Document.required?])
    | some body => exact ⟨body, rfl, by simpa [hbody, Document.required?] using h⟩
  · exact absurd h (by simp)

/-- An identity allows its caller what the document says, where the document has to say it. -/
structure Grounded (d : Document) (i : Identity) : Prop where
  /-- A caller is marked as internal by the part about the user. -/
  isInternal : i.isInternal = true ↔
    d.valueAt ["identity", "user", "is_internal"] = some (.bool true)
  /-- A caller administers the organization by the part about the user. -/
  orgAdmin : i.orgAdmin = true ↔
    d.valueAt ["identity", "user", "is_org_admin"] = some (.bool true)
  /-- The organization is that of the identity or, if that is empty, of its internal part. -/
  orgId : i.orgId = if Document.textOrEmpty (d.valueAt ["identity", "org_id"]) = "" then
    Document.textOrEmpty (d.valueAt ["identity", "internal", "org_id"])
    else Document.textOrEmpty (d.valueAt ["identity", "org_id"])

/-- **What is read from a document of objects is grounded in it**: the caller has a right exactly if
a member of the document says so, and no default grants one. -/
theorem grounded_of_ofDocument? (hobjects : BuiltOfObjects d) (h : ofDocument? d = some i) :
    Grounded d i := by
  obtain ⟨body, hbody, hread⟩ :=
    exists_body h fun items heq ↦ hobjects [] (by decide) items (congrArg some heq)
  have hat (path : List String) : d.valueAt ("identity" :: path) = body.valueAt path :=
    Document.valueAt_cons_of_member? hbody path
  have hpart (name : String) : d.valueAt ["identity", name] = body.member? name :=
    (hat [name]).trans (Document.valueAt_singleton name body)
  obtain ⟨hinternal, hadmin, horg⟩ := rights_of_ofBody? hread
    (fun items heq ↦ hobjects ["identity"] (by decide) items (by rw [hat, heq]; rfl))
    (fun items heq ↦ hobjects ["identity", "internal"] (by decide) items (by rw [hpart, heq]))
    (fun items heq ↦ hobjects ["identity", "user"] (by decide) items (by rw [hpart, heq]))
  constructor
  · rw [hat, hinternal]
  · rw [hat, hadmin]
  · rw [hat, hat, horg]

/-! ### The caller -/

/-- The document of a header determines the caller, and only what is read of it does. -/
structure Determined (text : String) (d : Document) : Prop where
  /-- Blanks around the header make no difference. -/
  padded : ∀ before after, Text.isBlank before = true → Text.isBlank after = true →
    ofHeaderText (before ++ text ++ after) = ofHeaderText text
  /-- Members that are not read make no difference, nor does the order of members or the way in
  which a document is written. -/
  varied : ∀ text' d', Presents text' d' → Varies d d' → ofHeaderText text' = ofHeaderText text
  /-- What a document of objects allows a caller, it says. -/
  grounded : ∀ i, BuiltOfObjects d → ofHeaderText text = .ok i → Grounded d i

/-- **Only what is read of a document determines the caller.** -/
theorem determined_of_presents (h : Presents text d) : Determined text d where
  padded before after hbefore hafter := by
    rw [ofHeaderText, Text.trim_padded hbefore hafter, ofHeaderText]
  varied text' d' h' hvaries := by
    rw [ofHeaderText_of_presents h', ofHeaderText_of_presents h, ofDocument?_eq_of_varies hvaries]
  grounded i hobjects hok := grounded_of_ofDocument? hobjects (ofDocument?_of_ok h hok)

/-! ### A header in two forms -/

/-- The part about an administrator. -/
def userMember : Bytes × Document :=
  (encodeText "user", .object [(encodeText "is_org_admin", .bool true)])

/-- A flag that is read in the part about a user only. -/
def strayMember : Bytes × Document :=
  (encodeText "is_internal", .bool true)

/-- An identity with these members. -/
def wrapped (members : List (Bytes × Document)) : Document :=
  .object [(encodeText "identity", .object members)]

/-- The header of an administrator: `{"identity":{"user":{"is_org_admin":true}}}`. -/
def adminHeader : String :=
  "eyJpZGVudGl0eSI6eyJ1c2VyIjp7ImlzX29yZ19hZG1pbiI6dHJ1ZX19fQ=="

/-- The same with blanks and a stray flag:
`{"identity": {"user": {"is_org_admin":true}, "is_internal":true}}`. -/
def strayHeader : String :=
  "eyJpZGVudGl0eSI6IHsidXNlciI6IHsiaXNfb3JnX2FkbWluIjp0cnVlfSwgImlzX2ludGVybmFsIjp0cnVlfX0="

theorem presents_adminHeader : Presents adminHeader (wrapped [userMember]) :=
  presents_iff.2 (by cbv)

theorem presents_strayHeader : Presents strayHeader (wrapped [userMember, strayMember]) :=
  presents_iff.2 (by cbv)

theorem varies_strayMember : Varies (wrapped [userMember]) (wrapped [userMember, strayMember]) := by
  have hpart : Part.document.memberAt (encodeText "identity") = .identity := by decide +kernel
  have hadd : Edit .identity (.object [userMember]) (.object [strayMember, userMember]) :=
    .add (.inr ⟨"is_internal", by decide +kernel, by decide⟩)
  have horder : Edit .identity (.object [strayMember, userMember])
      (.object [userMember, strayMember]) :=
    .permute (.swap userMember strayMember [])
  exact .trans _ _ _ (.rel _ _ (.within (hpart ▸ hadd))) (.rel _ _ (.within (hpart ▸ horder)))

theorem builtOfObjects_wrapped : BuiltOfObjects (wrapped [userMember]) := by
  simp only [BuiltOfObjects, Part.paths, List.forall_mem_cons]
  refine ⟨?_, ?_, ?_, ?_, ?_, nofun⟩ <;> intro items h <;> cbv at h <;> exact absurd h (by simp)

/-- The stray flag makes nobody internal, and the administrator stays one. -/
theorem determined_adminHeader :
    Determined adminHeader (wrapped [userMember]) ∧
      ofHeaderText strayHeader = ofHeaderText adminHeader ∧
      ∃ i, ofHeaderText adminHeader = .ok i ∧ Grounded (wrapped [userMember]) i ∧
        i.orgAdmin = true ∧ i.isInternal = false := by
  have hdetermined := determined_of_presents presents_adminHeader
  have hread : ofDocument? (wrapped [userMember]) =
      some ⟨"", "", false, "", "", .user, true⟩ := by decide +kernel
  have hok : ofHeaderText adminHeader = .ok ⟨"", "", false, "", "", .user, true⟩ := by
    rw [ofHeaderText_of_presents presents_adminHeader, hread, Option.elim_some]
  exact ⟨hdetermined, hdetermined.varied _ _ presents_strayHeader varies_strayMember, _, hok,
    hdetermined.grounded _ builtOfObjects_wrapped hok, rfl, rfl⟩

end Licensing.Identity
