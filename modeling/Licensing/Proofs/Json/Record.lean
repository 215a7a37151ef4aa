import Licensing.Json.Lookup
import Licensing.Json.Record
import Mathlib.Data.List.Basic

/-!
# The fields of a record

What a reader of records takes from an object are, for each name, the values that the members of
that name have (`fields?_object`). The object is refused when a name stands twice. Otherwise the
order of the members does not count (`sole?_perm`), and a field is the value of the member of its
name (`eq_map_member?_of_fields?`).
-/

namespace Licensing.Json.Document

open Utf8 (Bytes)

variable {members members' : List (Bytes × Document)} {named : List (String × Document)}
  {name : String} {names : List String} {d d' : Document} {raw : Bytes} {f : Option Document}
  {fs : List (Option Document)}

/-! ### Values by name -/

/-- All names in an object are texts. -/
def areNamed (members : List (Bytes × Document)) : Bool :=
  members.all fun m ↦ (textOf m.1).isSome

/-- The values of all members of a name. -/
def valuesOf (name : String) (members : List (Bytes × Document)) : List Document :=
  (members.filter fun m ↦ textOf m.1 = some name).map (·.2)

/-- What is to be found once at most. -/
def sole? : List Document → Option (Option Document)
  | [] => some none
  | [d] => some (some d)
  | _ => none

/-- All members have readable names if the first one and the others have. -/
theorem areNamed_cons (raw : Bytes) (d : Document) (members : List (Bytes × Document)) :
    areNamed ((raw, d) :: members) = ((textOf raw).isSome && areNamed members) :=
  rfl

/-- This does not depend on their order. -/
theorem areNamed_perm (h : members.Perm members') : areNamed members = areNamed members' :=
  h.all_eq

/-- A member of the name is among those of the name. -/
theorem valuesOf_cons_self (h : textOf raw = some name) (d : Document)
    (members : List (Bytes × Document)) :
    valuesOf name ((raw, d) :: members) = d :: valuesOf name members := by
  simp [valuesOf, h]

/-- A member of another name is not. -/
theorem valuesOf_cons_of_ne (h : textOf raw ≠ some name) (d : Document)
    (members : List (Bytes × Document)) :
    valuesOf name ((raw, d) :: members) = valuesOf name members := by
  simp [valuesOf, h]

/-- Whether there is only one does not depend on the order. -/
theorem sole?_perm {ds ds' : List Document} (h : ds.Perm ds') : sole? ds = sole? ds' := by
  match ds, h with
  | [], h => rw [h.nil_eq]
  | [d], h => rw [h.singleton_eq]
  | _ :: _ :: _, h =>
    match ds', h.length_eq with
    | _ :: _ :: _, _ => rfl

/-- So neither does what is found under a name. -/
theorem sole?_valuesOf_perm (h : members.Perm members') (name : String) :
    sole? (valuesOf name members) = sole? (valuesOf name members') :=
  sole?_perm ((h.filter _).map _)

/-! ### Fields -/

/-- Members are named one after another, or not at all. -/
theorem namedMembers_cons (raw : Bytes) (d : Document) (members : List (Bytes × Document)) :
    namedMembers ((raw, d) :: members) =
      (textOf raw).bind fun name ↦ (namedMembers members).map ((name, d) :: ·) := by
  unfold namedMembers
  rw [List.mapM_cons]
  cases textOf raw with
  | none => rfl
  | some name =>
    generalize members.mapM (fun m ↦ (textOf m.1).map (·, m.2)) = rest
    cases rest <;> rfl

/-- The names of an object are decoded when all of them are texts. -/
theorem namedMembers_isSome (members : List (Bytes × Document)) :
    (namedMembers members).isSome = areNamed members := by
  induction members with
  | nil => rfl
  | cons m members ih =>
    obtain ⟨raw, d⟩ := m
    rw [namedMembers_cons, areNamed_cons, ← ih]
    cases textOf raw with
    | none => rfl
    | some name => simp

/-- A field is what the members of its name have. -/
theorem field?_of_namedMembers (h : namedMembers members = some named) (name : String) :
    field? named name = sole? (valuesOf name members) := by
  have hvalues : (named.filter fun m ↦ m.1 = name).map (·.2) = valuesOf name members := by
    induction members generalizing named with
    | nil =>
      obtain rfl := Option.some.inj h
      rfl
    | cons m members ih =>
      obtain ⟨raw, d⟩ := m
      rw [namedMembers_cons] at h
      obtain ⟨first, hraw, h⟩ := Option.bind_eq_some_iff.1 h
      obtain ⟨rest, hrest, rfl⟩ := Option.map_eq_some_iff.1 h
      by_cases heq : first = name
      · rw [valuesOf_cons_self (by rw [hraw, heq]), ← ih hrest]
        simp [heq]
      · rw [valuesOf_cons_of_ne (by simpa [hraw] using heq), ← ih hrest]
        simp [heq]
  rw [← hvalues, field?]
  generalize named.filter (fun m ↦ decide (m.1 = name)) = ms
  match ms with
  | [] | [_] | _ :: _ :: _ => rfl

/-- **What is taken from an object** are, for each name, the values that its members have. A name
that stands there twice has no one value, and then nothing is taken. -/
theorem fields?_object (names : List String) (members : List (Bytes × Document)) :
    (object members).fields? names =
      if areNamed members then names.mapM fun name ↦ sole? (valuesOf name members) else none := by
  rw [fields?, ← namedMembers_isSome]
  split
  · rename_i named hnamed
    rw [hnamed, Option.isSome_some, if_pos rfl]
    exact congrArg (names.mapM ·) (funext (field?_of_namedMembers hnamed))
  · rename_i hnamed
    rw [hnamed]
    rfl

/-- What stands alone under a name is the member of this name. -/
theorem member?_of_sole? (h : sole? (valuesOf name members) = some f) :
    (object members).member? name = f := by
  have hfirst : (object members).member? name = (valuesOf name members).head? := by
    rw [member?, valuesOf, List.head?_map, List.head?_filter]
  rw [hfirst]
  match valuesOf name members, h with
  | [], h => exact Option.some.inj h
  | [_], h => exact Option.some.inj h

/-- **The fields of a record that is an object are its members.** -/
theorem eq_map_member?_of_fields? (h : d.fields? names = some fs)
    (hlist : ∀ items, d ≠ .list items) : fs = names.map fun name ↦ d.member? name := by
  cases d with
  | object members =>
    rw [fields?_object] at h
    split at h
    · induction names generalizing fs with
      | nil => exact (Option.some.inj h).symm
      | cons name names ih =>
        rw [List.mapM_cons] at h
        obtain ⟨f, hf, h⟩ := Option.bind_eq_some_iff.1 h
        obtain ⟨rest, hrest, h⟩ := Option.bind_eq_some_iff.1 h
        obtain rfl := Option.some.inj h
        rw [List.map_cons, member?_of_sole? hf, ih hrest]
    · exact absurd h (by simp)
  | list items => exact absurd rfl (hlist items)
  | null | bool | number | text => exact absurd h (by simp [fields?])

/-! ### Paths -/

/-- A path of one name leads to the member of this name. -/
theorem valueAt_singleton (name : String) (d : Document) : d.valueAt [name] = d.member? name := by
  rw [valueAt]
  cases d.member? name <;> rfl

/-- A path of two names leads to the member of a member. -/
theorem valueAt_pair (part name : String) (d : Document) :
    d.valueAt [part, name] = (d.member? part).bind (member? name) := by
  rw [valueAt, funext (valueAt_singleton name)]

/-- Behind its first name a path goes on in the member of this name. -/
theorem valueAt_cons_of_member? (h : d.member? name = some d') (path : List String) :
    d.valueAt (name :: path) = d'.valueAt path := by
  rw [valueAt, h, Option.bind_some]

end Licensing.Json.Document
