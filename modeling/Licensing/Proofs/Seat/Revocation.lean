import Licensing.Proofs.Seat.Course

/-!
# Who may revoke a seat

The deletion of a subscription is asked for only when the accounts system has told that this very
subscription belongs to the organization of the caller, who administers it. The courses of a
revocation are listed in `Revocation`; what they have in common is `Revokes`, and `revokes` says
it for whatever the accounts system answers.
-/

namespace Licensing.Seat

open Dialogue (Course)

variable {i : Identity} {id : String} {es : List Exchange} {o : Except SeatError Unit}

/-! ### The courses -/

/-- How a revocation can go. -/
inductive Revocation (i : Identity) (id : String) :
    List Exchange → Except SeatError Unit → Prop where
  /-- The caller administers nothing. -/
  | refused (ha : i.orgAdmin = false) :
    Revocation i id [] (.error (.forbidden "caller is not an organization administrator"))
  /-- There is no telling whose subscription it is. -/
  | lost (ha : i.orgAdmin = true) (e : RemoteError) :
    Revocation i id [⟨.subscription id, .error e⟩] (.error (.remote e))
  /-- It is nobody's subscription. -/
  | ownerless (ha : i.orgAdmin = true) {s : Subscription}
    (hs : ∀ g, s.organizationId = some g → g = "") :
    Revocation i id [⟨.subscription id, .ok s⟩]
      (.error (.internal ("subscription " ++ id ++ " has no organization")))
  /-- There is no telling which organization the caller's is. -/
  | unnamed (ha : i.orgAdmin = true) {s : Subscription} {g : String}
    (hs : s.organizationId = some g) (hg : g ≠ "") {es : List Exchange} {e : SeatError}
    (hc : Conversion i es (.error e)) :
    Revocation i id (⟨.subscription id, .ok s⟩ :: es) (.error e)
  /-- It is another organization's subscription. -/
  | foreign (ha : i.orgAdmin = true) {s : Subscription} {g : String}
    (hs : s.organizationId = some g) (hg : g ≠ "") {org : String}
    (hc : Conversion i [⟨.convertOrg i.orgId, .ok org⟩] (.ok org)) (hne : org ≠ g) :
    Revocation i id [⟨.subscription id, .ok s⟩, ⟨.convertOrg i.orgId, .ok org⟩]
      (.error (.forbidden ("subscription organization " ++ g
        ++ " does not match caller organization " ++ org)))
  /-- It is the caller's, but is not deleted. -/
  | kept (ha : i.orgAdmin = true) {s : Subscription} {g : String}
    (hs : s.organizationId = some g) (hg : g ≠ "")
    (hc : Conversion i [⟨.convertOrg i.orgId, .ok g⟩] (.ok g)) (e : RemoteError) :
    Revocation i id [⟨.subscription id, .ok s⟩, ⟨.convertOrg i.orgId, .ok g⟩,
      ⟨.deleteSubscription id, .error e⟩] (.error (.remote e))
  /-- It is the caller's, and is deleted. -/
  | revoked (ha : i.orgAdmin = true) {s : Subscription} {g : String}
    (hs : s.organizationId = some g) (hg : g ≠ "")
    (hc : Conversion i [⟨.convertOrg i.orgId, .ok g⟩] (.ok g)) :
    Revocation i id [⟨.subscription id, .ok s⟩, ⟨.convertOrg i.orgId, .ok g⟩,
      ⟨.deleteSubscription id, .ok ()⟩] (.ok ())

/-- **The courses of a revocation** are those that are listed. Each check that is not passed ends
it, so a course is told by the first that fails. -/
theorem revocation_of_course (h : Course (revoke i id) es o) : Revocation i id es o := by
  rcases Dialogue.course_require_bind h with ⟨ha, rfl, rfl⟩ | ⟨ha, hcall⟩
  · exact .refused ha
  rcases Dialogue.course_call_bind hcall with ⟨e, rfl, rfl⟩ | ⟨s, es, rfl, hrest⟩
  · exact .lost ha e
  -- Whose subscription it is.
  split at hrest
  · rename_i hnone
    cases hrest with
    | fail =>
      refine .ownerless ha fun g hg ↦ ?_
      simpa [hg] using Option.filter_eq_none_iff.1 hnone g hg
  · rename_i g hsome
    obtain ⟨hs, hg⟩ := Option.filter_eq_some_iff.1 hsome
    have hg : g ≠ "" := of_decide_eq_true hg
    rcases course_convertOrg_bind hrest with ⟨e, hc, rfl⟩ | ⟨org, es, hc, rfl, hcheck⟩
    · exact .unnamed ha hs hg hc
    · rcases Dialogue.course_require_bind hcheck with ⟨hne, rfl, rfl⟩ | ⟨heq, hdelete⟩
      · exact .foreign ha hs hg hc (of_decide_eq_false hne)
      · obtain rfl := of_decide_eq_true heq
        rcases Dialogue.course_call hdelete with ⟨e, rfl, rfl⟩ | ⟨⟨⟩, rfl, rfl⟩
        · exact .kept ha hs hg hc e
        · exact .revoked ha hs hg hc

/-! ### What was told -/

/-- The accounts system told that a subscription belongs to an organization. -/
def Belongs (es : List Exchange) (id g : String) : Prop :=
  ∃ s, ⟨.subscription id, .ok s⟩ ∈ es ∧ s.organizationId = some g ∧ g ≠ ""

/-- The accounts system told that a subscription belongs to nobody. -/
def Ownerless (es : List Exchange) (id : String) : Prop :=
  ∃ s, ⟨.subscription id, .ok s⟩ ∈ es ∧ ∀ g, s.organizationId = some g → g = ""

/-! ### What all courses have in common

A course says what was told in it, so on each course both sides of an equivalence are known. -/

namespace Revocation

/-- A revocation asks for the deletion of no other subscription, and not twice. -/
theorem deletions_eq (h : Revocation i id es o) : deletions es = [] ∨ deletions es = [id] := by
  cases h with
  | kept | revoked => exact .inr rfl
  | unnamed ha hs hg hc => cases hc <;> exact .inl rfl
  | _ => exact .inl rfl

/-- It asks for it exactly after every check was passed: by an administrator, for a subscription of
the organization whose name was told for the caller's. -/
theorem deletions_eq_iff (h : Revocation i id es o) :
    deletions es = [id] ↔ i.orgAdmin = true ∧ ∃ g, Belongs es id g ∧ hasQuote i.orgId = false ∧
      Named es i g ∧ hasQuote g = false := by
  cases h with
  | unnamed ha hs hg hc => cases hc <;> simp_all [Belongs, Named]
  | foreign ha hs hg hc hne => simp [Belongs, Named, and_assoc, hs, hne.symm]
  | kept ha hs hg hc | revoked ha hs hg hc =>
    cases hc
    simp_all [Belongs, Named, and_assoc]
  | _ => simp_all [Belongs, Named]

/-- All went well exactly if the deletion was asked for and confirmed. -/
theorem ok_iff (h : Revocation i id es o) :
    o = .ok () ↔ ⟨.deleteSubscription id, .ok ()⟩ ∈ es := by
  cases h with
  | unnamed ha hs hg hc => cases hc <;> simp
  | _ => simp

/-- Who administers nothing has nothing asked. -/
theorem silent (h : Revocation i id es o) (ha : i.orgAdmin = false) : es = [] := by
  cases h with
  | refused => rfl
  | _ => simp_all

/-- A revocation is refused exactly if the caller administers nothing, or the subscription belongs
to another organization. -/
theorem forbidden_iff (h : Revocation i id es o) :
    (∃ m, o = .error (.forbidden m)) ↔ i.orgAdmin = false ∨
      ∃ g org, Belongs es id g ∧ Named es i org ∧ hasQuote org = false ∧ org ≠ g := by
  cases h with
  | unnamed ha hs hg hc => cases hc <;> simp_all [Belongs, Named]
  | foreign ha hs hg hc hne => cases hc; simp_all [Belongs, Named, and_assoc]
  | kept ha hs hg hc | revoked ha hs hg hc => cases hc; simp_all [Belongs, Named]
  | _ => simp_all [Belongs, Named]

/-- It ends with an internal error exactly if an answer cannot be right. -/
theorem internal_iff (h : Revocation i id es o) :
    (∃ m, o = .error (.internal m)) ↔
      Ownerless es id ∨ ∃ org, Named es i org ∧ hasQuote org = true := by
  cases h with
  | unnamed ha hs hg hc => cases hc <;> simp_all [Ownerless, Named]
  | foreign ha hs hg hc => cases hc; simp_all [Ownerless, Named]
  | kept ha hs hg hc | revoked ha hs hg hc => cases hc; simp_all [Ownerless, Named]
  | _ => simp_all [Ownerless, Named]

/-- It is a bad request exactly if the organization has a quote, which is noticed only after the
subscription was found to have an owner. -/
theorem badRequest_iff (h : Revocation i id es o) :
    (∃ m, o = .error (.badRequest m)) ↔ (∃ g, Belongs es id g) ∧ hasQuote i.orgId = true := by
  cases h with
  | unnamed ha hs hg hc => cases hc <;> simp_all [Belongs]
  | foreign ha hs hg hc | kept ha hs hg hc | revoked ha hs hg hc => cases hc; simp_all [Belongs]
  | _ => simp_all [Belongs]

/-- A revocation fails with the failure of a service exactly if it met this failure. -/
theorem remote_iff (h : Revocation i id es o) (e : RemoteError) :
    o = .error (.remote e) ↔ e ∈ failures es := by
  cases h with
  | unnamed ha hs hg hc => cases hc <;> simp [eq_comm]
  | _ => simp [eq_comm]

/-- A revocation never ends with a conflict. -/
theorem conflict_ne (h : Revocation i id es o) (m : String) : o ≠ .error (.conflict m) := by
  cases h with
  | unnamed ha hs hg hc => cases hc <;> simp
  | _ => simp

end Revocation

/-- What is true of a revocation, by what was asked and answered in it. -/
structure Revokes (i : Identity) (id : String) (es : List Exchange)
    (o : Except SeatError Unit) : Prop where
  /-- At most one deletion is asked for, and that of the subscription. -/
  deletions_eq : deletions es = [] ∨ deletions es = [id]
  /-- It is asked for exactly when the caller is an administrator and the subscription was told
  to belong to the organization that was told to be the caller's. -/
  deletions_eq_iff : deletions es = [id] ↔ i.orgAdmin = true ∧ ∃ g, Belongs es id g ∧
    hasQuote i.orgId = false ∧ Named es i g ∧ hasQuote g = false
  /-- All went well exactly when the subscription was deleted. -/
  ok_iff : o = .ok () ↔ ⟨.deleteSubscription id, .ok ()⟩ ∈ es
  /-- A caller who is no administrator has nothing asked. -/
  silent : i.orgAdmin = false → es = []
  /-- A caller may not revoke who is no administrator, or whose organization has not got the
  subscription. -/
  forbidden_iff : (∃ m, o = .error (.forbidden m)) ↔ i.orgAdmin = false ∨
    ∃ g org, Belongs es id g ∧ Named es i org ∧ hasQuote org = false ∧ org ≠ g
  /-- An answer cannot be right that names no owner, or an organization with a quote. -/
  internal_iff : (∃ m, o = .error (.internal m)) ↔
    Ownerless es id ∨ ∃ org, Named es i org ∧ hasQuote org = true
  /-- A caller whose organization has a quote is turned away once the subscription is known. -/
  badRequest_iff : (∃ m, o = .error (.badRequest m)) ↔
    (∃ g, Belongs es id g) ∧ hasQuote i.orgId = true
  /-- The failure of the accounts system is what the caller is told. -/
  remote_iff : ∀ e, o = .error (.remote e) ↔ e ∈ failures es
  /-- There is no other error. -/
  conflict_ne : ∀ m, o ≠ .error (.conflict m)

/-- **A subscription is deleted only for its owner.** Whatever the accounts system answers, a
revocation asks for the deletion of the one subscription it was asked to revoke, exactly when the
accounts system told that this subscription belongs to the caller's organization. -/
theorem revokes (i : Identity) (id : String) {σ : Type}
    (answer : σ → (c : SeatCall) → c.Answer × σ) (s : σ) :
    Revokes i id ((revoke i id).transcript answer s) ((revoke i id).run answer s).1 := by
  have h := revocation_of_course (Dialogue.course_transcript answer (revoke i id) s)
  exact
    { deletions_eq := h.deletions_eq
      deletions_eq_iff := h.deletions_eq_iff
      ok_iff := h.ok_iff
      silent := h.silent
      forbidden_iff := h.forbidden_iff
      internal_iff := h.internal_iff
      badRequest_iff := h.badRequest_iff
      remote_iff := h.remote_iff
      conflict_ne := h.conflict_ne }

end Licensing.Seat
