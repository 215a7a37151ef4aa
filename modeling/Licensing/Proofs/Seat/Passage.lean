import Licensing.Proofs.Seat.Assignment
import Licensing.Proofs.Seat.Revocation
import Licensing.Seat.Office

/-!
# What an operation changes, and what it was told before

An operation asks for at most one change, and with the answer to that question it ends. `Passage`
sorts the courses of an operation by this change, together with what the operation was told
beforehand. An operation that still goes on has been through a part of one of its courses
(`Dialogue.Reached`), so the same is known of it (`passage_of_effective`).
-/

namespace Licensing

namespace Dialogue

variable {α : Type} {d d' : Dialogue α} {xs : List Exchange}

/-- A conversation can go through this, and go on as another. -/
def Reached (d : Dialogue α) (xs : List Exchange) (d' : Dialogue α) : Prop :=
  ∀ ys o, Course d' ys o → Course d (xs ++ ys) o

theorem reached_nil (d : Dialogue α) : Reached d [] d :=
  fun _ _ h ↦ h

/-- A conversation goes through its next question, whatever the answer is. -/
theorem Reached.ask {c : SeatCall} {next : c.Answer → Dialogue α} (h : Reached d xs d')
    (hd : d'.next? = some ⟨c, next⟩) (r : c.Answer) : Reached d (xs ++ [⟨c, r⟩]) (next r) := by
  intro ys o hys
  rw [List.append_assoc]
  exact h _ _ (hys.of_next? hd)

/-- Every conversation has a course, such as the one on which every service fails. -/
theorem exists_course (d : Dialogue α) : ∃ ys o, Course d ys o :=
  ⟨_, _, course_transcript (fun s _ ↦ (.error (.timeout ""), s)) d ()⟩

end Dialogue

namespace Seat

open Dialogue (Course Reached)

variable {i : Identity} {operation : Operation} {xs : List Exchange} {d : Dialogue Outcome}

/-- How an operation can go, by what it changes. -/
inductive Passage (i : Identity) : Operation → List Exchange → Except SeatError Outcome → Prop where
  /-- Nothing is changed, and the operation does not claim that anything was. -/
  | idle {operation : Operation} {xs : List Exchange} {o : Except SeatError Outcome}
    (hxs : ∀ x ∈ xs, x.effective = false) (ha : ∀ seat, o ≠ .ok (.assigned seat))
    (hr : o ≠ .ok .revoked) : Passage i operation xs o
  /-- A seat is granted by the version of the quota that was told for the caller's
  organization. -/
  | assigned {account org id : String} {quota : Option Quota} {xs : List Exchange}
    {answer : Authorization} (hxs : ∀ x ∈ xs, x.effective = false) (horg : Named xs i org)
    (hq : Counted xs org quota) (ha : answer.allowed = true)
    (hid : answer.subscriptionId = some id) :
    Passage i (.assign account) (xs ++ [⟨.authorize (seatRequest (Text.trim account)
      (quota.bind Quota.version)), .ok answer⟩]) (.ok (.assigned ⟨id, Text.trim account⟩))
  /-- A seat is granted, but there is no telling which subscription was made. -/
  | unidentified {account : String} {r : AuthorizationRequest} {xs : List Exchange}
    {answer : Authorization} {e : SeatError} (hxs : ∀ x ∈ xs, x.effective = false)
    (ha : answer.allowed = true) (hid : answer.subscriptionId = none) :
    Passage i (.assign account) (xs ++ [⟨.authorize r, .ok answer⟩]) (.error e)
  /-- The subscription is deleted that was told to belong to the caller's organization. -/
  | revoked {id org : String} {s : Subscription} {xs : List Exchange}
    (hxs : ∀ x ∈ xs, x.effective = false) (hs : ⟨.subscription id, .ok s⟩ ∈ xs)
    (hg : s.organizationId = some org) (horg : Named xs i org) :
    Passage i (.revoke id) (xs ++ [⟨.deleteSubscription id, .ok ()⟩]) (.ok .revoked)

/-- What is claimed to have been changed was changed. -/
theorem Passage.exists_effective {o : Except SeatError Outcome} (h : Passage i operation xs o)
    (ho : (∃ seat, o = .ok (.assigned seat)) ∨ o = .ok .revoked) :
    ∃ x ∈ xs, x.effective = true := by
  have hlast : ∀ (ys : List Exchange) (x : Exchange), x ∈ ys ++ [x] :=
    fun ys x ↦ List.mem_append_right _ (List.mem_singleton_self x)
  cases h with
  | idle _ hassigned hrevoked =>
    rcases ho with ⟨seat, ho⟩ | ho
    · exact absurd ho (hassigned seat)
    · exact absurd ho hrevoked
  | assigned _ _ _ ha => exact ⟨_, hlast _ _, ha⟩
  | unidentified _ ha => exact ⟨_, hlast _ _, ha⟩
  | revoked => exact ⟨_, hlast _ _, rfl⟩

/-! ### The courses of an operation -/

theorem effective_of_conversion {o : Except SeatError String} (h : Conversion i xs o) :
    ∀ x ∈ xs, x.effective = false := by
  cases h <;> simp [Exchange.effective]

/-- Searches change nothing. -/
theorem effective_of_searches {query : SubscriptionQuery} {org search : String}
    {r : Except RemoteError (List Subscription × Option Quota)}
    (h : Dialogue.Both (SeatCall.subscriptions query) (SeatCall.quotaCost org search) xs r) :
    ∀ x ∈ xs, x.effective = false := by
  rintro ⟨c, a⟩ hx
  rcases h.call_eq _ hx with rfl | rfl <;> rfl

theorem effective_of_list {q : SeatQuery} {o : Except SeatError SeatPage}
    (h : Course (Seat.list i q) xs o) : ∀ x ∈ xs, x.effective = false := by
  rw [Seat.list] at h
  split at h
  · cases h with
    | fail => simp
  rcases Dialogue.course_require_bind h with ⟨-, rfl, -⟩ | ⟨-, hconvert⟩
  · simp
  rcases course_convertOrg_bind hconvert with ⟨e, hc, -⟩ | ⟨org, ys, -, rfl, hboth⟩
  · exact effective_of_conversion hc
  refine List.forall_mem_cons.2 ⟨rfl, ?_⟩
  rcases Dialogue.course_both_bind hboth with ⟨e, hxs, -⟩ | ⟨_, _, xs, ys, hxs, rfl, hdone⟩
  · exact effective_of_searches hxs
  · cases hdone with
    | done =>
      rw [List.append_nil]
      exact effective_of_searches hxs

theorem passage_of_assignment {account : String} {o : Except SeatError AssignedSeat}
    (h : Assignment i (Text.trim account) xs o) :
    Passage i (.assign account) xs (o.map Outcome.assigned) := by
  cases h with
  | unnamed ha hu huser hc =>
    refine .idle ?_ (by simp [Except.map]) (by simp [Except.map])
    simpa [Exchange.effective] using effective_of_conversion hc
  | @answered ha hu user huser org hc quota answer o hv =>
    -- What the operation had been told when it asked for the authorization.
    let told : List Exchange := [⟨.user (Text.trim account), .ok user⟩,
      ⟨.convertOrg i.orgId, .ok org⟩, ⟨.quotaCost org quotaSearch, .ok quota⟩]
    have htold : ∀ x ∈ told, x.effective = false := by simp [told, Exchange.effective]
    have horg : Named told i org := by simp [told, Named]
    have hquota : Counted told org quota := by simp [told, Counted]
    cases hv with
    | seated ha hid => exact .assigned htold horg hquota ha hid
    | unidentified ha hid => exact .unidentified htold ha hid
    | exhausted ha | denied ha =>
      exact .idle (by simp [Exchange.effective, ha]) (by simp [Except.map]) (by simp [Except.map])
  | _ => exact .idle (by simp [Exchange.effective]) (by simp [Except.map]) (by simp [Except.map])

theorem passage_of_revocation {id : String} {o : Except SeatError Unit}
    (h : Revocation i id xs o) :
    Passage i (.revoke id) xs (o.map fun _ ↦ Outcome.revoked) := by
  cases h with
  | unnamed ha hs hg hc =>
    refine .idle ?_ (by simp [Except.map]) (by simp [Except.map])
    simpa [Exchange.effective] using effective_of_conversion hc
  | @revoked ha s g hs hg hc =>
    let told : List Exchange := [⟨.subscription id, .ok s⟩, ⟨.convertOrg i.orgId, .ok g⟩]
    have htold : ∀ x ∈ told, x.effective = false := by simp [told, Exchange.effective]
    exact .revoked htold (by simp [told]) hs (by simp [told, Named])
  | _ => exact .idle (by simp [Exchange.effective]) (by simp [Except.map]) (by simp [Except.map])

/-- The courses of a conversation whose result is turned into another one. -/
theorem course_map {α β : Type} {d : Dialogue α} {f : α → β} {o : Except SeatError β}
    (h : Course (d >>= fun a ↦ pure (f a)) xs o) : ∃ o', Course d xs o' ∧ o = o'.map f := by
  rcases Dialogue.course_bind h with ⟨e, he, rfl⟩ | ⟨a, es₁, es₂, h₁, h₂, rfl⟩
  · exact ⟨_, he, rfl⟩
  · cases h₂ with
    | done => exact ⟨.ok a, by rwa [List.append_nil], rfl⟩

/-- **What an operation changes.** Every course of an operation is a passage: it changes nothing, or
it ends with its one change. -/
theorem passage_of_course {o : Except SeatError Outcome}
    (h : Course (operation.dialogue i) xs o) : Passage i operation xs o := by
  cases operation with
  | list q =>
    obtain ⟨o', h', rfl⟩ := course_map h
    exact .idle (effective_of_list h') (by cases o' <;> simp [Except.map])
      (by cases o' <;> simp [Except.map])
  | assign account =>
    obtain ⟨o', h', rfl⟩ := course_map h
    exact passage_of_assignment (assignment_of_course h')
  | revoke id =>
    obtain ⟨o', h', rfl⟩ := course_map h
    exact passage_of_revocation (revocation_of_course h')

/-! ### Operations that go on -/

/-- Nothing comes after the last change. -/
theorem eq_nil_of_effective {pre ys : List Exchange} {x y : Exchange} (h : xs ++ ys = pre ++ [y])
    (hpre : ∀ x ∈ pre, x.effective = false) (hx : x ∈ xs) (he : x.effective = true) : ys = [] := by
  rcases List.eq_nil_or_concat ys with rfl | ⟨zs, z, rfl⟩
  · rfl
  · rw [List.concat_eq_append, ← List.append_assoc] at h
    obtain ⟨rfl, -⟩ := List.append_inj' h rfl
    exact absurd (he.symm.trans (hpre x (List.mem_append_left _ hx))) (by simp)

/-- An operation that changed something has ended. -/
theorem passage_of_effective (h : Reached (operation.dialogue i) xs d) {x : Exchange}
    (hx : x ∈ xs) (he : x.effective = true) : ∃ o, Passage i operation xs o ∧ Course d [] o := by
  obtain ⟨ys, o, hys⟩ := Dialogue.exists_course d
  have hpassage := passage_of_course (h ys o hys)
  have hnil : ys = [] := by
    generalize hzs : xs ++ ys = zs at hpassage
    cases hpassage with
    | idle hidle =>
      have hsame := hidle x (hzs ▸ List.mem_append_left _ hx)
      exact absurd (he.symm.trans hsame) (by simp)
    | assigned hpre | unidentified hpre | revoked hpre =>
      exact eq_nil_of_effective hzs hpre hx he
  subst hnil
  rw [List.append_nil] at hpassage
  exact ⟨o, hpassage, hys⟩

end Seat

end Licensing
