import Licensing.Proofs.Seat.Course

/-!
# Who may assign a seat, and by which quota

A seat is asked for only when an administrator asks for it, for a user whom the directory knows
in the caller's own organization, and with the version of the quota that was just told for this
organization. The courses of an assignment are listed in `Assignment`; what they have in common is
`Assigns`, and `assigns` says it for whatever the services answer.
-/

namespace Licensing.Seat

open Dialogue (Course)

variable {i : Identity} {username : String} {es : List Exchange}
  {o : Except SeatError AssignedSeat}

/-! ### The courses -/

/-- What an answered authorization leads to. -/
inductive Verdict (i : Identity) (username : String) (a : Authorization) :
    Except SeatError AssignedSeat → Prop where
  /-- It is granted. -/
  | seated (ha : a.allowed = true) {id : String} (hid : a.subscriptionId = some id) :
    Verdict i username a (.ok ⟨id, username⟩)
  /-- It is granted, but there is no telling which subscription was made. -/
  | unidentified (ha : a.allowed = true) (hid : a.subscriptionId = none) :
    Verdict i username a (.error (.internal "quota authorization returned no subscription"))
  /-- There are no seats left. -/
  | exhausted (ha : a.allowed = false) (he : 0 < a.excessResources) :
    Verdict i username a (.error (.conflict ("no seats available for organization " ++ i.orgId)))
  /-- It is not granted, though there may be seats left. -/
  | denied (ha : a.allowed = false) (he : a.excessResources = 0) :
    Verdict i username a (.error (.forbidden
      ("seat assignment for '" ++ username ++ "' was denied")))

/-- What an answered authorization leads to is the verdict on it, and nothing more is asked. -/
theorem verdict_of_course {a : Authorization} (h : Course (granted i username a) es o) :
    es = [] ∧ Verdict i username a o := by
  rw [granted] at h
  split at h
  · rename_i ha
    split at h
    · rename_i id hid
      cases h with
      | done => exact ⟨rfl, .seated ha hid⟩
    · rename_i hid
      cases h with
      | fail => exact ⟨rfl, .unidentified ha hid⟩
  · rename_i ha
    have ha : a.allowed = false := eq_false_of_ne_true ha
    split at h
    · rename_i he
      cases h with
      | fail => exact ⟨rfl, .exhausted ha he⟩
    · rename_i he
      cases h with
      | fail => exact ⟨rfl, .denied ha (Nat.eq_zero_of_not_pos he)⟩

namespace Verdict

variable {a : Authorization}

/-- A seat is assigned exactly if the request is granted and the subscription named. -/
theorem ok_iff (h : Verdict i username a o) {seat : AssignedSeat} :
    o = .ok seat ↔ a.allowed = true ∧ a.subscriptionId = some seat.subscriptionId ∧
      seat.accountUsername = username := by
  obtain ⟨id, name⟩ := seat
  cases h with
  | seated ha hid =>
    simp only [Except.ok.injEq, AssignedSeat.mk.injEq, ha, hid, Option.some.injEq, true_and]
    exact and_congr_right' eq_comm
  | _ => simp_all

/-- A grant without a subscription is an internal error, and there is no other. -/
theorem internal_iff (h : Verdict i username a o) :
    (∃ m, o = .error (.internal m)) ↔ a.allowed = true ∧ a.subscriptionId = none := by
  cases h <;> simp_all

/-- A denial because of excess resources is a conflict, and there is no other. -/
theorem conflict_iff (h : Verdict i username a o) :
    (∃ m, o = .error (.conflict m)) ↔ a.allowed = false ∧ 0 < a.excessResources := by
  cases h <;> simp_all

/-- A denial for no such reason is a refusal, and there is no other. -/
theorem forbidden_iff (h : Verdict i username a o) :
    (∃ m, o = .error (.forbidden m)) ↔ a.allowed = false ∧ a.excessResources = 0 := by
  cases h <;> simp_all [Nat.pos_iff_ne_zero]

end Verdict

/-- How the assignment of a seat to a user can go. -/
inductive Assignment (i : Identity) (username : String) :
    List Exchange → Except SeatError AssignedSeat → Prop where
  /-- The caller administers nothing. -/
  | refused (ha : i.orgAdmin = false) :
    Assignment i username [] (.error (.forbidden "caller is not an organization administrator"))
  /-- Nobody is named. -/
  | blank (ha : i.orgAdmin = true) (hu : username = "") :
    Assignment i username [] (.error (.badRequest "account_username is required"))
  /-- The directory does not tell who that is. -/
  | unknown (ha : i.orgAdmin = true) (hu : username ≠ "") (e : RemoteError) :
    Assignment i username [⟨.user username, .error e⟩] (.error (.remote e))
  /-- It is a user of another organization. -/
  | foreign (ha : i.orgAdmin = true) (hu : username ≠ "") {user : DirectoryUser}
    (hne : user.orgId ≠ i.orgId) :
    Assignment i username [⟨.user username, .ok user⟩] (.error (.forbidden
      ("user '" ++ username ++ "' does not belong to organization " ++ i.orgId)))
  /-- There is no telling which organization the caller's is. -/
  | unnamed (ha : i.orgAdmin = true) (hu : username ≠ "") {user : DirectoryUser}
    (huser : user.orgId = i.orgId) {es : List Exchange} {e : SeatError}
    (hc : Conversion i es (.error e)) :
    Assignment i username (⟨.user username, .ok user⟩ :: es) (.error e)
  /-- There is no telling what its quota is. -/
  | uncounted (ha : i.orgAdmin = true) (hu : username ≠ "") {user : DirectoryUser}
    (huser : user.orgId = i.orgId) {org : String}
    (hc : Conversion i [⟨.convertOrg i.orgId, .ok org⟩] (.ok org)) (e : RemoteError) :
    Assignment i username [⟨.user username, .ok user⟩, ⟨.convertOrg i.orgId, .ok org⟩,
      ⟨.quotaCost org quotaSearch, .error e⟩] (.error (.remote e))
  /-- The authorization is asked for and not answered. -/
  | unanswered (ha : i.orgAdmin = true) (hu : username ≠ "") {user : DirectoryUser}
    (huser : user.orgId = i.orgId) {org : String}
    (hc : Conversion i [⟨.convertOrg i.orgId, .ok org⟩] (.ok org)) (quota : Option Quota)
    (e : RemoteError) :
    Assignment i username [⟨.user username, .ok user⟩, ⟨.convertOrg i.orgId, .ok org⟩,
      ⟨.quotaCost org quotaSearch, .ok quota⟩,
      ⟨.authorize (seatRequest username (quota.bind Quota.version)), .error e⟩]
      (.error (.remote e))
  /-- The authorization is asked for and answered. -/
  | answered (ha : i.orgAdmin = true) (hu : username ≠ "") {user : DirectoryUser}
    (huser : user.orgId = i.orgId) {org : String}
    (hc : Conversion i [⟨.convertOrg i.orgId, .ok org⟩] (.ok org)) (quota : Option Quota)
    {a : Authorization} {o : Except SeatError AssignedSeat} (hv : Verdict i username a o) :
    Assignment i username [⟨.user username, .ok user⟩, ⟨.convertOrg i.orgId, .ok org⟩,
      ⟨.quotaCost org quotaSearch, .ok quota⟩,
      ⟨.authorize (seatRequest username (quota.bind Quota.version)), .ok a⟩] o

/-- **The courses of an assignment** are those that are listed, for the name without the blanks
around it. -/
theorem assignment_of_course {account : String} (h : Course (assign i account) es o) :
    Assignment i (Text.trim account) es o := by
  rcases Dialogue.course_require_bind h with ⟨ha, rfl, rfl⟩ | ⟨ha, hnamed⟩
  · exact .refused ha
  rcases Dialogue.course_require_bind hnamed with ⟨hu, rfl, rfl⟩ | ⟨hu, hcall⟩
  · exact .blank ha (by simpa using hu)
  have hu : Text.trim account ≠ "" := of_decide_eq_true hu
  rcases Dialogue.course_call_bind hcall with ⟨e, rfl, rfl⟩ | ⟨user, es, rfl, hcheck⟩
  · exact .unknown ha hu e
  rcases Dialogue.course_require_bind hcheck with ⟨hne, rfl, rfl⟩ | ⟨huser, hconvert⟩
  · exact .foreign ha hu (of_decide_eq_false hne)
  have huser : user.orgId = i.orgId := of_decide_eq_true huser
  rcases course_convertOrg_bind hconvert with ⟨e, hc, rfl⟩ | ⟨org, es, hc, rfl, hquota⟩
  · exact .unnamed ha hu huser hc
  rcases Dialogue.course_call_bind hquota with ⟨e, rfl, rfl⟩ | ⟨quota, es, rfl, hauthorize⟩
  · exact .uncounted ha hu huser hc e
  rcases Dialogue.course_call_bind hauthorize with ⟨e, rfl, rfl⟩ | ⟨a, es, rfl, hverdict⟩
  · exact .unanswered ha hu huser hc quota e
  · obtain ⟨rfl, hv⟩ := verdict_of_course hverdict
    exact .answered ha hu huser hc quota hv

/-! ### What was told -/

/-- The directory told that a user belongs to the caller's organization. -/
def Member (es : List Exchange) (i : Identity) (username : String) : Prop :=
  ∃ user, ⟨.user username, .ok user⟩ ∈ es ∧ user.orgId = i.orgId

/-- The accounts system told the quota of an organization, or that it has none. -/
def Counted (es : List Exchange) (org : String) (quota : Option Quota) : Prop :=
  ⟨.quotaCost org quotaSearch, .ok quota⟩ ∈ es

/-- The accounts system answered a request for an authorization. -/
def Answered (es : List Exchange) (a : Authorization) : Prop :=
  ∃ request, ⟨.authorize request, .ok a⟩ ∈ es

/-! ### What all courses have in common

As long as the authorization is not answered, a course tells the outcome. When it is, the verdict
does. -/

namespace Assignment

/-- An assignment asks for one authorization at most. -/
theorem length_authorizations_le (h : Assignment i username es o) :
    (authorizations es).length ≤ 1 := by
  cases h with
  | unnamed ha hu huser hc => cases hc <;> exact Nat.zero_le 1
  | unanswered | answered => exact Nat.le_refl 1
  | _ => exact Nat.zero_le 1

/-- It asks for one exactly after every check was passed: by an administrator, for a member of the
organization, and with the quota told for the name of this organization. -/
theorem authorizations_ne_nil_iff (h : Assignment i username es o) :
    authorizations es ≠ [] ↔ i.orgAdmin = true ∧ username ≠ "" ∧ Member es i username ∧
      hasQuote i.orgId = false ∧ ∃ org, Named es i org ∧ hasQuote org = false ∧
        ∃ quota, Counted es org quota := by
  cases h with
  | unnamed ha hu huser hc => cases hc <;> simp_all [Named, Counted]
  | uncounted ha hu huser hc | unanswered ha hu huser hc | answered ha hu huser hc =>
    cases hc
    simp_all [Member, Named, Counted]
  | _ => simp_all [Named]

/-- The version in the request is the one of the quota that was told, so it cannot be that of
another organization. -/
theorem authorizations_of_counted (h : Assignment i username es o) {org : String}
    {quota : Option Quota} (hq : Counted es org quota) :
    authorizations es = [seatRequest username (quota.bind Quota.version)] := by
  cases h with
  | unnamed ha hu huser hc => cases hc <;> simp [Counted] at hq
  | unanswered | answered =>
    obtain ⟨-, rfl⟩ : _ ∧ quota = _ := by simpa [Counted] using hq
    rfl
  | _ => simp [Counted] at hq

/-- An assignment deletes nothing. -/
theorem deletions_eq (h : Assignment i username es o) : deletions es = [] := by
  cases h with
  | unnamed ha hu huser hc => cases hc <;> rfl
  | _ => rfl

/-- An answered authorization decides. -/
theorem verdict (h : Assignment i username es o) {a : Authorization} (ha : Answered es a) :
    Verdict i username a o := by
  cases h with
  | unnamed hadmin hu huser hc => cases hc <;> simp [Answered] at ha
  | answered hadmin hu huser hc quota hv =>
    obtain rfl : a = _ := by simpa [Answered] using ha
    exact hv
  | _ => simp [Answered] at ha

/-- Nothing is assigned without an answered authorization. -/
theorem exists_answered_of_ok {seat : AssignedSeat} (h : Assignment i username es (.ok seat)) :
    ∃ a, Answered es a := by
  cases h with
  | answered => exact ⟨_, _, .tail _ (.tail _ (.tail _ (.head _)))⟩

/-- Only an answered authorization tells that there are no seats left. -/
theorem exists_answered_of_conflict {m : String}
    (h : Assignment i username es (.error (.conflict m))) : ∃ a, Answered es a := by
  cases h with
  | unnamed ha hu huser hc => cases hc
  | answered => exact ⟨_, _, .tail _ (.tail _ (.tail _ (.head _)))⟩

/-- All went well exactly if the authorization was granted, and the seat is the one that it names.
-/
theorem ok_iff (h : Assignment i username es o) (seat : AssignedSeat) :
    o = .ok seat ↔ ∃ a, Answered es a ∧ a.allowed = true ∧
      a.subscriptionId = some seat.subscriptionId ∧ seat.accountUsername = username := by
  constructor
  · rintro rfl
    obtain ⟨a, ha⟩ := h.exists_answered_of_ok
    exact ⟨a, ha, (h.verdict ha).ok_iff.1 rfl⟩
  · rintro ⟨a, ha, hseat⟩
    exact (h.verdict ha).ok_iff.2 hseat

/-- There are no seats left exactly if the authorization was denied because of excess resources. -/
theorem conflict_iff (h : Assignment i username es o) :
    (∃ m, o = .error (.conflict m)) ↔
      ∃ a, Answered es a ∧ a.allowed = false ∧ 0 < a.excessResources := by
  constructor
  · rintro ⟨m, rfl⟩
    obtain ⟨a, ha⟩ := h.exists_answered_of_conflict
    exact ⟨a, ha, (h.verdict ha).conflict_iff.1 ⟨m, rfl⟩⟩
  · rintro ⟨a, ha, hdenied⟩
    exact (h.verdict ha).conflict_iff.2 hdenied

/-- An assignment fails with the failure of a service exactly if it met this failure. -/
theorem remote_iff (h : Assignment i username es o) (e : RemoteError) :
    o = .error (.remote e) ↔ e ∈ failures es := by
  cases h with
  | unnamed ha hu huser hc => cases hc <;> simp [eq_comm]
  | answered ha hu huser hc quota hv => cases hv <;> simp
  | _ => simp [eq_comm]

end Assignment

/-- What is true of an assignment, by what was asked and answered in it. -/
structure Assigns (i : Identity) (username : String) (es : List Exchange)
    (o : Except SeatError AssignedSeat) : Prop where
  /-- At most one authorization is asked for. -/
  length_authorizations_le : (authorizations es).length ≤ 1
  /-- It is asked for exactly when an administrator asks for a seat for a user whom the directory
  knows in the same organization, and the accounts system told the quota of this organization. -/
  authorizations_ne_nil_iff : authorizations es ≠ [] ↔ i.orgAdmin = true ∧ username ≠ "" ∧
    Member es i username ∧ hasQuote i.orgId = false ∧ ∃ org, Named es i org ∧
      hasQuote org = false ∧ ∃ quota, Counted es org quota
  /-- It names the user and the version of the quota that was told, and asks for one seat. -/
  authorizations_of_counted : ∀ org quota, Counted es org quota → authorizations es =
    [{ accountUsername := username
       productId := productId
       quotaVersion := quota.bind Quota.version
       reserve := true
       resources := [⟨"ansible.wisdom", "seat", "standard", productId, 1⟩] }]
  /-- No deletion is asked for. -/
  deletions_eq : deletions es = []
  /-- The seat is the subscription that was made for the user. -/
  ok_iff : ∀ seat, o = .ok seat ↔ ∃ a, Answered es a ∧ a.allowed = true ∧
    a.subscriptionId = some seat.subscriptionId ∧ seat.accountUsername = username
  /-- There are no seats left when the authorization was denied as it exceeds the quota. -/
  conflict_iff : (∃ m, o = .error (.conflict m)) ↔
    ∃ a, Answered es a ∧ a.allowed = false ∧ 0 < a.excessResources
  /-- An authorization that names no subscription cannot be right. -/
  internal_iff : ∀ a, Answered es a →
    ((∃ m, o = .error (.internal m)) ↔ a.allowed = true ∧ a.subscriptionId = none)
  /-- An authorization that was denied for another reason is a refusal. -/
  forbidden_iff : ∀ a, Answered es a →
    ((∃ m, o = .error (.forbidden m)) ↔ a.allowed = false ∧ a.excessResources = 0)
  /-- The failure of a service is what the caller is told. -/
  remote_iff : ∀ e, o = .error (.remote e) ↔ e ∈ failures es

/-- **A seat is assigned only by an administrator, to a user of the same organization, and by
the quota that was just told.** Whatever the services answer, an assignment asks for one
authorization and only after every check has passed, for the trimmed name that was checked and
with the version of the quota that was told, and what the authorization says is the outcome. -/
theorem assigns (i : Identity) (account : String) {σ : Type}
    (answer : σ → (c : SeatCall) → c.Answer × σ) (s : σ) :
    Assigns i (Text.trim account) ((assign i account).transcript answer s)
      ((assign i account).run answer s).1 := by
  have h := assignment_of_course (Dialogue.course_transcript answer (assign i account) s)
  exact
    { length_authorizations_le := h.length_authorizations_le
      authorizations_ne_nil_iff := h.authorizations_ne_nil_iff
      authorizations_of_counted := fun _ _ hq ↦ h.authorizations_of_counted hq
      deletions_eq := h.deletions_eq
      ok_iff := h.ok_iff
      conflict_iff := h.conflict_iff
      internal_iff := fun _ ha ↦ (h.verdict ha).internal_iff
      forbidden_iff := fun _ ha ↦ (h.verdict ha).forbidden_iff
      remote_iff := h.remote_iff }

end Licensing.Seat
