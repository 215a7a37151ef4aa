import Licensing.Proofs.OrderedMap
import Licensing.Seat.Office

/-!
# What a question does to the quotas

The accounts system has few ways to answer that change a quota: it grants a seat, and it deletes a
subscription. `Effect` lists them, and `effect_answer` says that there are no others as long as
the answers to authorizations are not fixed in advance. What this comes to for the quota of a
single organization is `Change`.
-/

namespace Licensing.Seat

variable {a a' : Accounts} {org : String} {d : Option Deed} {q q' : Quota}

/-! ### What a deed does to the quotas -/

/-- How the quotas may change with a deed. -/
inductive Effect (a : Accounts) : Option Deed → Accounts → Prop where
  /-- Nothing is done, or nothing that concerns a quota. -/
  | idle {a' : Accounts} (hq : a'.quotas = a.quotas) : Effect a none a'
  /-- A seat is granted, as the quota is not used up. -/
  | granted {a' : Accounts} {org : String} {q : Quota} (hq : a.quotas.get? org = some q)
    (hroom : q.consumed < q.allowed)
    (hq' : a'.quotas = a.quotas.insert org { q with consumed := q.consumed + 1 }) :
    Effect a (some (.granted org)) a'
  /-- A subscription of an organization with a quota is deleted. -/
  | deleted {a' : Accounts} {org : String} {q : Quota} (hq : a.quotas.get? org = some q)
    (hq' : a'.quotas = a.quotas.insert org (Accounts.release q)) :
    Effect a (some (.deleted org)) a'
  /-- A subscription of an organization without a quota is deleted. -/
  | dropped {a' : Accounts} {org : String} (hq : a.quotas.get? org = none)
    (hq' : a'.quotas = a.quotas) : Effect a (some (.deleted org)) a'

/-- How the quota of an organization may change with a deed. -/
inductive Change (org : String) : Option Deed → Quota → Quota → Prop where
  /-- The deed concerns others. -/
  | same {d : Option Deed} {q : Quota} (hg : d ≠ some (.granted org))
    (hd : d ≠ some (.deleted org)) : Change org d q q
  /-- A seat is granted, as the quota is not used up. -/
  | granted {q : Quota} (hroom : q.consumed < q.allowed) :
    Change org (some (.granted org)) q { q with consumed := q.consumed + 1 }
  /-- A subscription is deleted. -/
  | deleted {q : Quota} : Change org (some (.deleted org)) q (Accounts.release q)

/-! ### Answers -/

/-- The accounts system answers unless it fails, and then nothing changes. -/
theorem answer_eq (a : Accounts) (c : SeatCall) :
    a.answer c = a.serve c ∨ ∃ e, a.failure = some e ∧ a.answer c = (.error e, a) := by
  cases hf : a.failure with
  | none => cases c <;> exact .inl (by simp [Accounts.answer, hf])
  | some e =>
    cases c with
    | user username => exact .inl rfl
    | _ => exact .inr ⟨e, rfl, by simp [Accounts.answer, hf]⟩

/-- The holder of a version has a quota. -/
theorem get?_of_versionHolder {r : AuthorizationRequest}
    (h : a.versionHolder r = some (org, q)) : a.quotas.get? org = some q :=
  (OrderedMap.get?_eq_some_iff _).2 (List.mem_of_find?_eq_some h)

section Authorize

variable {r : AuthorizationRequest}

theorem authorize_of_lt (hs : a.scripted = none) (hv : a.versionHolder r = some (org, q))
    (hq : q.consumed < q.allowed) : a.authorize r = a.grant r org q := by
  simp [Accounts.authorize, hs, hv, hq]

theorem authorize_of_le (hs : a.scripted = none) (hv : a.versionHolder r = some (org, q))
    (hq : q.allowed ≤ q.consumed) :
    a.authorize r = (⟨false, max r.resources.length 1, none⟩, a) := by
  simp [Accounts.authorize, hs, hv, hq]

theorem authorize_of_none (hs : a.scripted = none) (hv : a.versionHolder r = none) :
    a.authorize r = (⟨false, 0, none⟩, a) := by
  simp [Accounts.authorize, hs, hv]

/-- A request is noted before it is answered. -/
theorem exists_serve_authorize (a : Accounts) (r : AuthorizationRequest) :
    ∃ l, a.serve (.authorize r) =
      (.ok ({ a with log := l }.authorize r).1, ({ a with log := l }.authorize r).2) :=
  ⟨_, rfl⟩

theorem effect_authorize (hs : a.scripted = none) (r : AuthorizationRequest) :
    Effect a (deed? a (.authorize r)) (a.answer (.authorize r)).2 := by
  rcases answer_eq a (.authorize r) with h | ⟨e, -, h⟩
  · obtain ⟨l, hl⟩ := exists_serve_authorize a r
    rw [deed?, h, hl]
    cases hv : a.versionHolder r with
    | none =>
      rw [authorize_of_none (a := { a with log := l }) hs hv]
      exact .idle rfl
    | some holder =>
      obtain ⟨org, q⟩ := holder
      rcases lt_or_ge q.consumed q.allowed with hq | hq
      · rw [authorize_of_lt (a := { a with log := l }) hs hv hq]
        exact .granted (get?_of_versionHolder hv) hq rfl
      · rw [authorize_of_le (a := { a with log := l }) hs hv hq]
        exact .idle rfl
  · rw [deed?, h]
    exact .idle rfl

end Authorize

theorem effect_deleteSubscription (a : Accounts) (id : String) :
    Effect a (deed? a (.deleteSubscription id)) (a.answer (.deleteSubscription id)).2 := by
  rcases answer_eq a (.deleteSubscription id) with h | ⟨e, -, h⟩
  · rw [deed?, h, Accounts.serve]
    cases hs : a.subscriptions.get? id with
    | none => exact .idle rfl
    | some s =>
      simp only [Option.bind_some]
      cases ho : s.organizationId with
      | none => exact .idle (by simp [Accounts.delete, ho])
      | some org =>
        cases hq : a.quotas.get? org with
        | none => exact .dropped hq (by simp [Accounts.delete, ho, hq])
        | some q => exact .deleted hq (by simp [Accounts.delete, ho, hq])
  · rw [deed?, h]
    exact .idle rfl

/-- **What a question does to the quotas.** Whatever the accounts system is asked, it does nothing
to them but grant a seat or take one back. -/
theorem effect_answer (hs : a.scripted = none) (c : SeatCall) :
    Effect a (deed? a c) (a.answer c).2 := by
  cases c with
  | authorize r => exact effect_authorize hs r
  | deleteSubscription id => exact effect_deleteSubscription a id
  | quotaCost | subscriptions | convertOrg =>
    rcases answer_eq a _ with h | ⟨e, -, h⟩ <;> rw [h] <;> exact .idle rfl
  | subscription | user =>
    rcases answer_eq a _ with h | ⟨e, -, h⟩
    · rw [h, Accounts.serve]
      split <;> exact .idle rfl
    · rw [h]
      exact .idle rfl

/-- What is set up from outside is not changed by questions. -/
structure SameSetup (a a' : Accounts) : Prop where
  /-- The names of organizations. -/
  orgNames : a'.orgNames = a.orgNames
  /-- The answer that is fixed in advance. -/
  scripted : a'.scripted = a.scripted
  /-- The failure. -/
  failure : a'.failure = a.failure
  /-- The users. -/
  users : a'.users = a.users

theorem sameSetup_answer (a : Accounts) (c : SeatCall) : SameSetup a (a.answer c).2 := by
  rcases answer_eq a c with h | ⟨e, -, h⟩
  · rw [h]
    cases c with
    | authorize r =>
      simp only [Accounts.serve, Accounts.authorize]
      split
      · exact ⟨rfl, rfl, rfl, rfl⟩
      · split
        · exact ⟨rfl, rfl, rfl, rfl⟩
        · split <;> exact ⟨rfl, rfl, rfl, rfl⟩
    | deleteSubscription | subscription | user =>
      rw [Accounts.serve]
      split <;> exact ⟨rfl, rfl, rfl, rfl⟩
    | _ => exact ⟨rfl, rfl, rfl, rfl⟩
  · rw [h]
    exact ⟨rfl, rfl, rfl, rfl⟩

theorem scripted_answer (a : Accounts) (c : SeatCall) :
    (a.answer c).2.scripted = a.scripted :=
  (sameSetup_answer a c).scripted

/-- **A request that names a used up quota is denied**, and no quota and no subscription
changes. -/
theorem answer_authorize_of_le {r : AuthorizationRequest} (hs : a.scripted = none)
    (hf : a.failure = none) (hv : a.versionHolder r = some (org, q))
    (hq : q.allowed ≤ q.consumed) :
    (a.answer (.authorize r)).1 = .ok ⟨false, max r.resources.length 1, none⟩ ∧
      (a.answer (.authorize r)).2.quotas = a.quotas ∧
      (a.answer (.authorize r)).2.subscriptions = a.subscriptions := by
  rcases answer_eq a (.authorize r) with h | ⟨e, he, -⟩
  · obtain ⟨l, hl⟩ := exists_serve_authorize a r
    rw [h, hl, authorize_of_le (a := { a with log := l }) hs hv hq]
    exact ⟨rfl, rfl, rfl⟩
  · exact absurd (hf.symm.trans he) (by simp)

/-! ### The quota of an organization -/

theorem rel_change_self {x : Option Quota} (hg : d ≠ some (.granted org))
    (hd : d ≠ some (.deleted org)) : Option.Rel (Change org d) x x := by
  cases x with
  | none => exact .none
  | some q => exact .some (.same hg hd)

/-- What a deed comes to for the quota of one organization. -/
theorem Effect.change (h : Effect a d a') (org : String) :
    Option.Rel (Change org d) (a.quotas.get? org) (a'.quotas.get? org) := by
  cases h with
  | idle hq =>
    rw [hq]
    exact rel_change_self (by simp) (by simp)
  | @granted _ holder q hq hroom hq' =>
    rw [hq']
    by_cases horg : holder = org
    · subst horg
      rw [hq, OrderedMap.get?_insert_self]
      exact .some (.granted hroom)
    · rw [OrderedMap.get?_insert_of_ne _ _ horg]
      exact rel_change_self (by simpa using horg) (by simp)
  | @deleted _ owner q hq hq' =>
    rw [hq']
    by_cases horg : owner = org
    · subst horg
      rw [hq, OrderedMap.get?_insert_self]
      exact .some .deleted
    · rw [OrderedMap.get?_insert_of_ne _ _ horg]
      exact rel_change_self (by simp) (by simpa using horg)
  | @dropped _ owner hq hq' =>
    rw [hq']
    by_cases horg : owner = org
    · subst horg
      rw [hq]
      exact .none
    · exact rel_change_self (by simp) (by simpa using horg)

end Licensing.Seat
