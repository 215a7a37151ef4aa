import Licensing.Proofs.Seat.Accounts
import Licensing.Proofs.Text.Decimal
import Licensing.Seat.Transcript
import Mathlib.Data.List.Induction

/-!
# What becomes of the subscriptions

Whatever the accounts system is asked, it makes one subscription, or deletes one, or leaves all of
them as they are. `Reaction` lists these ways together with the answers that tell them apart, and
`reaction_answer` says that there are no others as long as the answers to authorizations are not
fixed in advance.

The identifiers of the subscriptions that are made are numbered, and no number is used twice until
the numbers, of 64 bits, have wrapped around. So a subscription that is made has a name that none
had that was made before, even if that one was deleted since. Nothing keeps those that were there at
the start from having such a name, and then they are lost (`subscription_replaced`). Each is held
under its own identifier all the time (`Filed`).
-/

namespace Licensing

/-- What has no effect makes no subscription. -/
theorem Exchange.issued?_eq_none {x : Exchange} (h : x.effective = false) : x.issued? = none := by
  obtain ⟨c, r⟩ := x
  cases c <;> cases r <;> simp_all [effective, issued?]

namespace Accounts

/-- Identifiers tell the numbers apart until these have wrapped around. -/
theorem madeId_inj {m n : Nat} (hm : m < numbers) (hn : n < numbers) :
    madeId m = madeId n ↔ m = n := by
  rw [madeId, madeId, String.append_right_inj, Decimal.toString_inj, Nat.mod_eq_of_lt hm,
    Nat.mod_eq_of_lt hn]

/-- The subscription that is made next, for an organization and a user of it. -/
def next (a : Accounts) (org username : String) : Subscription where
  id := madeId (a.made + 1)
  organizationId := some org
  status := "Active"
  creator := some ⟨some username, none, none, none⟩

/-- The accounts system after a list of questions. -/
def after (a : Accounts) (cs : List SeatCall) : Accounts :=
  cs.foldl (fun a c ↦ (a.answer c).2) a

/-- The subscriptions that were made in the course of a list of questions. -/
def issued (a : Accounts) : List SeatCall → List String
  | [] => []
  | c :: cs => (Exchange.issued? ⟨c, (a.answer c).1⟩).toList ++ (a.answer c).2.issued cs

/-! ### Where the subscriptions are held -/

variable {a a' : Accounts}

/-- Every subscription is held under its identifier. -/
def Filed (a : Accounts) : Prop :=
  ∀ id s, a.subscriptions.get? id = some s → s.id = id

/-- The subscriptions tell by their identifiers under which keys they are. -/
theorem Filed.ids_eq (h : a.Filed) :
    a.subscriptions.values.map Subscription.id = a.subscriptions.keys := by
  rw [OrderedMap.values, OrderedMap.keys, List.map_map]
  exact List.map_congr_left fun e he ↦ h e.1 e.2 ((OrderedMap.get?_eq_some_iff _).2 he)

/-- So it is when this is how they were put in. -/
theorem filed_of_ofList {ss : List Subscription}
    (h : a.subscriptions = .ofList (ss.map fun s ↦ (s.id, s))) : a.Filed := by
  intro id s hs
  rw [h] at hs
  rcases OrderedMap.get?_foldl_insert _ _ hs with hmem | hnone
  · obtain ⟨s', -, heq⟩ := List.mem_map.1 hmem
    obtain ⟨hid, rfl⟩ := Prod.mk.inj heq
    exact hid
  · exact absurd hnone (by simp)

/-- So it stays when one is put in under its identifier. -/
theorem Filed.insert {id : String} {s : Subscription} (h : a.Filed) (hs : s.id = id)
    (ha : a'.subscriptions = a.subscriptions.insert id s) : a'.Filed := by
  intro key v hv
  rw [ha, OrderedMap.get?_insert] at hv
  split at hv
  · rename_i hkey
    obtain rfl := Option.some.inj hv
    exact hs.trans hkey
  · exact h key v hv

/-- So it stays when one is deleted. -/
theorem Filed.delete (h : a.Filed) (id : String) (s : Subscription) : (a.delete id s).Filed := by
  intro key v hv
  rw [Accounts.delete, OrderedMap.get?_erase] at hv
  split at hv
  · cases hv
  · exact h key v hv

/-- So it stays when one is made for a request. -/
theorem Filed.authorize (h : a.Filed) (r : AuthorizationRequest) : (a.authorize r).2.Filed := by
  rw [Accounts.authorize]
  split
  · exact h
  · split
    · exact h
    · split
      · exact h
      · exact h.insert (by rfl) rfl

/-- No question changes this. -/
theorem Filed.answer (h : a.Filed) (c : SeatCall) : (a.answer c).2.Filed := by
  rcases Seat.answer_eq a c with hc | ⟨e, -, hc⟩
  · rw [hc]
    cases c with
    | authorize r =>
      obtain ⟨l, hl⟩ := Seat.exists_serve_authorize a r
      rw [hl]
      exact Filed.authorize (a := { a with log := l }) h r
    | deleteSubscription id =>
      rw [serve]
      split
      · exact h.delete id _
      · exact h
    | subscription | user =>
      rw [serve]
      split <;> exact h
    | quotaCost | subscriptions | convertOrg => exact h
  · rw [hc]
    exact h

/-- So it is after any number of questions. -/
theorem Filed.after (h : a.Filed) (cs : List SeatCall) : (a.after cs).Filed := by
  induction cs generalizing a with
  | nil => exact h
  | cons c cs ih => exact ih (h.answer c)

end Accounts

namespace Seat

open Accounts (madeId madeId_inj numbers)

variable {a a₀ a' : Accounts} {c : SeatCall} {cs : List SeatCall} {x : Exchange}

/-! ### One question -/

/-- How the accounts system can answer a question, and what becomes of it. -/
inductive Reaction (a : Accounts) : Exchange → Accounts → Prop where
  /-- Nothing but the log changes. -/
  | noted {x : Exchange} (hx : x.effective = false) (l : AccountsLog) :
    Reaction a x { a with log := l }
  /-- A seat is granted against the quota that has the version, as it is not used up. -/
  | granted {r : AuthorizationRequest} {org : String} {q : Quota}
    (hv : a.versionHolder r = some (org, q)) (hroom : q.consumed < q.allowed) (l : AccountsLog) :
    Reaction a ⟨.authorize r, .ok ⟨true, 0, some (madeId (a.made + 1))⟩⟩
      { a with
        quotas := a.quotas.insert org { q with consumed := q.consumed + 1 }
        subscriptions :=
          a.subscriptions.insert (madeId (a.made + 1)) (a.next org r.accountUsername)
        made := a.made + 1
        log := l }
  /-- A subscription is deleted. -/
  | deleted {id : String} {s : Subscription} (hs : a.subscriptions.get? id = some s) :
    Reaction a ⟨.deleteSubscription id, .ok ()⟩ (a.delete id s)

/-- A failure changes nothing. -/
theorem reaction_error (c : SeatCall) (e : RemoteError) : Reaction a ⟨c, .error e⟩ a :=
  .noted (by cases c <;> rfl) a.log

/-- An accounts system that does not fail reacts in one of these ways. -/
theorem reaction_serve (hs : a.scripted = none) (c : SeatCall) :
    Reaction a ⟨c, (a.serve c).1⟩ (a.serve c).2 := by
  cases c with
  | authorize r =>
    obtain ⟨l, hl⟩ := exists_serve_authorize a r
    rw [hl]
    cases hv : a.versionHolder r with
    | none =>
      rw [authorize_of_none (a := { a with log := l }) hs hv]
      exact .noted rfl l
    | some holder =>
      obtain ⟨org, q⟩ := holder
      rcases lt_or_ge q.consumed q.allowed with hq | hq
      · rw [authorize_of_lt (a := { a with log := l }) hs hv hq]
        exact .granted hv hq l
      · rw [authorize_of_le (a := { a with log := l }) hs hv hq]
        exact .noted rfl l
  | deleteSubscription id =>
    rw [Accounts.serve]
    cases hs : a.subscriptions.get? id with
    | none => exact reaction_error _ _
    | some s => exact .deleted hs
  | quotaCost | subscriptions => exact .noted rfl _
  | convertOrg org => exact .noted rfl a.log
  | subscription | user =>
    rw [Accounts.serve]
    split <;> exact .noted rfl a.log

/-- **How the accounts system reacts.** Whatever it is asked, it grants a seat, deletes a
subscription, or does no more than note the question. -/
theorem reaction_answer (hs : a.scripted = none) (c : SeatCall) :
    Reaction a ⟨c, (a.answer c).1⟩ (a.answer c).2 := by
  rcases answer_eq a c with h | ⟨e, -, h⟩
  · rw [h]
    exact reaction_serve hs c
  · rw [h]
    exact reaction_error c e

/-- Under the names that are still to come, until the numbers wrap around, there is only what was
there at the start. -/
def Ahead (a₀ a : Accounts) : Prop :=
  ∀ n, a.made < n → n < numbers → ∀ s, a.subscriptions.get? (madeId n) = some s →
    a₀.subscriptions.get? (madeId n) = some s

namespace Reaction

/-- A subscription is made under the next name. -/
theorem issued?_eq (h : Reaction a x a') {id : String} (hid : x.issued? = some id) :
    id = madeId (a.made + 1) ∧ a'.made = a.made + 1 := by
  cases h with
  | noted hx =>
    rw [Exchange.issued?_eq_none hx] at hid
    cases hid
  | granted => exact ⟨(Option.some.inj hid).symm, rfl⟩
  | deleted => cases hid

/-- A granted request names the subscription that was made. -/
theorem subscriptionId_eq {r : AuthorizationRequest} {answer : Authorization}
    (h : Reaction a ⟨.authorize r, .ok answer⟩ a') (ha : answer.allowed = true) :
    answer.subscriptionId = some (madeId (a.made + 1)) := by
  cases h with
  | noted hx => exact absurd (ha.symm.trans hx) (by simp)
  | granted => rfl

/-- Numbers are given out one after another. -/
theorem made_le (h : Reaction a x a') : a.made ≤ a'.made := by
  cases h with
  | granted => exact Nat.le_succ a.made
  | noted | deleted => exact Nat.le_refl a.made

/-- A subscription that was not made just now was there before. -/
theorem get?_of_get? (h : Reaction a x a') {id : String} {s : Subscription}
    (hid : x.issued? ≠ some id) (hs : a'.subscriptions.get? id = some s) :
    a.subscriptions.get? id = some s := by
  cases h with
  | noted => exact hs
  | granted =>
    have hne : madeId (a.made + 1) ≠ id := fun heq ↦ hid (congrArg some heq)
    rwa [OrderedMap.get?_insert_of_ne _ _ hne] at hs
  | deleted =>
    rw [Accounts.delete, OrderedMap.get?_erase] at hs
    split at hs
    · cases hs
    · exact hs

/-- What was ahead stays ahead: a new subscription has none of the names that come after its own. -/
theorem ahead (h : Reaction a x a') (ha : Ahead a₀ a) : Ahead a₀ a' := by
  intro n hn hbound s hs
  refine ha n (h.made_le.trans_lt hn) hbound s (h.get?_of_get? (fun hid ↦ ?_) hs)
  obtain ⟨hname, hmade⟩ := h.issued?_eq hid
  exact absurd ((madeId_inj hbound (by omega)).1 hname) (by omega)

end Reaction

/-! ### Any number of questions -/

/-- The last question is asked of what the others made of the accounts system. -/
theorem after_concat (a : Accounts) (cs : List SeatCall) (c : SeatCall) :
    a.after (cs ++ [c]) = ((a.after cs).answer c).2 := by
  simp [Accounts.after]

/-- Its subscription, if it makes one, is the last of those that were made. -/
theorem issued_concat (a : Accounts) (cs : List SeatCall) (c : SeatCall) :
    a.issued (cs ++ [c]) =
      a.issued cs ++ (Exchange.issued? ⟨c, ((a.after cs).answer c).1⟩).toList := by
  induction cs generalizing a with
  | nil => simp [Accounts.issued, Accounts.after]
  | cons c₁ cs ih =>
    simp only [List.cons_append, Accounts.issued, ih, List.append_assoc]
    rfl

/-- What is true of the names of subscriptions after any number of questions. -/
structure Numbered (a₀ : Accounts) (ids : List String) (a : Accounts) : Prop where
  /-- Authorizations are decided. -/
  scripted : a.scripted = none
  /-- Every name that was given out has a number. -/
  number : ∀ id ∈ ids, ∃ n ≤ a.made, id = madeId n
  /-- The names that are still to come are not used. -/
  ahead : Ahead a₀ a

/-- **The names are in order after any number of questions**: those that were given out have a
number that was reached, and those that come later are free but for what was there at the start. -/
theorem numbered_after (hs : a₀.scripted = none) (cs : List SeatCall) :
    Numbered a₀ (a₀.issued cs) (a₀.after cs) := by
  induction cs using List.reverseRecOn with
  | nil => exact ⟨hs, by simp [Accounts.issued], fun n _ _ s h ↦ h⟩
  | append_singleton cs c ih =>
    obtain ⟨hs, hnumber, hahead⟩ := ih
    have h := reaction_answer hs c
    rw [after_concat, issued_concat]
    refine ⟨by rw [scripted_answer, hs], fun id hid ↦ ?_, h.ahead hahead⟩
    rcases List.mem_append.1 hid with hid | hid
    · obtain ⟨n, hn, rfl⟩ := hnumber id hid
      exact ⟨n, hn.trans h.made_le, rfl⟩
    · obtain ⟨rfl, hmade⟩ := h.issued?_eq (Option.mem_toList.1 hid)
      exact ⟨_, hmade.ge, rfl⟩

/-! ### What is made -/

/-- What becomes of the subscriptions when a request is granted, by those that were there at the
start and the names that were given out since. -/
structure Afresh (a₀ : Accounts) (ids : List String) (a : Accounts) (r : AuthorizationRequest)
    (id : String) (a' : Accounts) : Prop where
  /-- The name was not given out before, unless the numbers have wrapped around. -/
  notMem : a.made + 1 < numbers → id ∉ ids
  /-- Then only a subscription that was there at the start can have it. -/
  seeded : a.made + 1 < numbers → ∀ s, a.subscriptions.get? id = some s →
    a₀.subscriptions.get? id = some s
  /-- The organization whose quota has the version gets a subscription of that name. -/
  made : ∃ org q, a.versionHolder r = some (org, q) ∧ a'.subscriptions.get? id =
    some ⟨id, some org, "Active", some ⟨some r.accountUsername, none, none, none⟩⟩
  /-- All others stay as they are. -/
  same : ∀ other, other ≠ id → a'.subscriptions.get? other = a.subscriptions.get? other

/-- **No subscription that was made is lost by making another one.** Whatever the accounts system
was asked before, a granted request makes a subscription of a name that was never given out, and
leaves all others as they are; if any is replaced, it was there at the start. Of the name this is
true until the numbers, of 64 bits, have wrapped around. -/
theorem afresh_of_allowed (a₀ : Accounts) (cs : List SeatCall) (r : AuthorizationRequest)
    (answer : Authorization) (hs : a₀.scripted = none)
    (h : ((a₀.after cs).answer (.authorize r)).1 = .ok answer) (ha : answer.allowed = true) :
    ∃ id, answer.subscriptionId = some id ∧ Afresh a₀ (a₀.issued cs) (a₀.after cs) r id
      ((a₀.after cs).answer (.authorize r)).2 := by
  obtain ⟨hs, hnumber, hahead⟩ := numbered_after hs cs
  have hreaction := reaction_answer hs (.authorize r)
  rw [h] at hreaction
  generalize ((a₀.after cs).answer (.authorize r)).2 = a' at hreaction
  cases hreaction with
  | noted hx => exact absurd (ha.symm.trans hx) (by simp)
  | granted hv hroom l =>
    refine ⟨_, rfl, ?_, hahead _ (Nat.lt_succ_self _), ⟨_, _, hv, ?_⟩, fun other hne ↦ ?_⟩
    · intro hbound hmem
      obtain ⟨n, hn, hname⟩ := hnumber _ hmem
      exact absurd ((madeId_inj hbound (by omega)).1 hname) (by omega)
    · exact OrderedMap.get?_insert_self _ _ _
    · exact OrderedMap.get?_insert_of_ne _ _ hne.symm

/-- An accounts system in which a subscription of another organization has the name of the first
one that is made. -/
def takenName : Accounts where
  orgNames := ∅
  quotas := .ofList [("AMSORG7", ⟨"seat|ansible.wisdom", 2, 0, some "v1"⟩)]
  subscriptions :=
    .ofList [("sub-1", ⟨"sub-1", some "AMSORGX", "Active", some ⟨some "zoe", none, none, none⟩⟩)]
  scripted := none
  failure := none
  users := ∅
  made := 0
  log := default

/-- The request of a seat by the version of its one quota. -/
def takenRequest (username : String) : AuthorizationRequest :=
  seatRequest username (some "v1")

/-- The first request is granted under the name of the subscription that was there at the start,
the second under a name of its own. -/
theorem afresh_takenName : takenName.issued [.authorize (takenRequest "ann")] = ["sub-1"] ∧
    ∃ id, some "sub-2" = some id ∧
      Afresh takenName (takenName.issued [.authorize (takenRequest "ann")])
        (takenName.after [.authorize (takenRequest "ann")]) (takenRequest "bob") id
        (takenName.after [.authorize (takenRequest "ann"), .authorize (takenRequest "bob")]) :=
  ⟨by decide, afresh_of_allowed takenName [.authorize (takenRequest "ann")] (takenRequest "bob")
    ⟨true, 0, some "sub-2"⟩ rfl (by decide) rfl⟩

/-- **A subscription that was there at the start can be lost**: it is replaced by one of another
organization when this is the first one that is made. -/
theorem subscription_replaced : takenName.scripted = none ∧
    takenName.subscriptions.get? "sub-1" =
      some ⟨"sub-1", some "AMSORGX", "Active", some ⟨some "zoe", none, none, none⟩⟩ ∧
    (takenName.answer (.authorize (takenRequest "ann"))).1 = .ok ⟨true, 0, some "sub-1"⟩ ∧
    (takenName.answer (.authorize (takenRequest "ann"))).2.subscriptions.get? "sub-1" =
      some ⟨"sub-1", some "AMSORG7", "Active", some ⟨some "ann", none, none, none⟩⟩ := by
  decide

end Seat

end Licensing
