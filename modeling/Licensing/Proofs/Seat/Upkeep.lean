import Licensing.Proofs.Seat.Subscriptions

/-!
# What stays true whatever is asked

A request for an authorization names no organization but the version of a quota, and a deletion
names nothing but a subscription. Whose they are can only be told before, and by then anything can
have been asked by others. It still holds then: neither the names of organizations nor the
versions of quotas ever change (`Upkeep`), and a subscription that was told is the one that was
told for as long as it is there, because no name is used twice (`Told`). For this the numbers in the
names must not have wrapped around.
-/

namespace Licensing.Seat

open Accounts (madeId numbers)

variable {a a₀ a' : Accounts} {x y : Exchange}

/-! ### What stays as it was at the start -/

/-- What stays of the accounts system. -/
structure Upkeep (a₀ a : Accounts) : Prop where
  /-- Authorizations are decided. -/
  scripted : a.scripted = none
  /-- Organizations keep their names. -/
  orgNames : a.orgNames = a₀.orgNames
  /-- Quotas keep their versions. -/
  version : ∀ org, (a.quotas.get? org).bind Quota.version =
    (a₀.quotas.get? org).bind Quota.version
  /-- The names are free that subscriptions are still to get. -/
  unused : ∀ n, a.made < n → n < numbers → a.subscriptions.get? (madeId n) = none

theorem get?_quotas_delete (a : Accounts) (id : String) (s : Subscription) (org : String) :
    (a.delete id s).quotas.get? org =
      if s.organizationId = some org then (a.quotas.get? org).map Accounts.release
      else a.quotas.get? org := by
  cases hs : s.organizationId with
  | none => simp [Accounts.delete, hs]
  | some owner =>
    cases hq : a.quotas.get? owner with
    | none =>
      by_cases h : owner = org <;> simp_all [Accounts.delete]
    | some q =>
      by_cases h : owner = org <;> simp_all [Accounts.delete, OrderedMap.get?_insert]

namespace Reaction

theorem scripted_eq (h : Reaction a x a') : a'.scripted = a.scripted := by
  cases h <;> rfl

theorem orgNames_eq (h : Reaction a x a') : a'.orgNames = a.orgNames := by
  cases h <;> rfl

/-- Whether a seat is granted or taken back, only the seats in use are counted anew. -/
theorem version_eq (h : Reaction a x a') (org : String) :
    (a'.quotas.get? org).bind Quota.version = (a.quotas.get? org).bind Quota.version := by
  cases h with
  | noted => rfl
  | granted hv =>
    rw [OrderedMap.get?_insert]
    split
    · rename_i heq
      rw [← heq, get?_of_versionHolder hv]
      rfl
    · rfl
  | deleted =>
    rw [get?_quotas_delete]
    split
    · cases a.quotas.get? org <;> rfl
    · rfl

theorem upkeep (h : Reaction a x a') (hu : Upkeep a₀ a) : Upkeep a₀ a' where
  scripted := h.scripted_eq.trans hu.scripted
  orgNames := h.orgNames_eq.trans hu.orgNames
  version org := (h.version_eq org).trans (hu.version org)
  unused n hn hbound := by
    refine Option.eq_none_iff_forall_ne_some.2 fun s hs ↦ ?_
    have hahead : Ahead a a' := h.ahead fun _ _ _ _ hs ↦ hs
    have hget := hahead n hn hbound s hs
    rw [hu.unused n (h.made_le.trans_lt hn) hbound] at hget
    cases hget

end Reaction

/-! ### What was told -/

/-- What was told still holds. -/
def Told (a₀ a : Accounts) : Exchange → Prop
  | ⟨.convertOrg org, .ok name⟩ => a₀.convertOrg org = .ok name
  | ⟨.quotaCost org _, .ok quota⟩ =>
    (a₀.quotas.get? org).bind Quota.version = quota.bind Quota.version
  -- If the subscription is no more, then its name is not used again before the numbers wrap around.
  | ⟨.subscription id, .ok s⟩ =>
    (∀ n, a.made < n → n < numbers → id ≠ madeId n) ∧
      (a.made < numbers → ∀ s', a.subscriptions.get? id = some s' → s' = s)
  | _ => True

/-- What was told holds whatever is asked afterwards. -/
theorem Reaction.told (h : Reaction a x a') (hy : Told a₀ a y) : Told a₀ a' y := by
  obtain ⟨c, r⟩ := y
  cases c with
  | subscription id =>
    cases r with
    | error e => exact hy
    | ok s =>
      obtain ⟨hname, hs⟩ := hy
      refine ⟨fun n hn ↦ hname n (h.made_le.trans_lt hn), fun hbound s' hs' ↦ ?_⟩
      refine hs (h.made_le.trans_lt hbound) s' (h.get?_of_get? (fun hid ↦ ?_) hs')
      obtain ⟨hid, hmade⟩ := h.issued?_eq hid
      exact hname (a.made + 1) (Nat.lt_succ_self _) (hmade ▸ hbound) hid
  | _ => cases r <;> exact hy

theorem convertOrg_eq (hu : Upkeep a₀ a) (org : String) :
    a.convertOrg org = a₀.convertOrg org := by
  rw [Accounts.convertOrg, Accounts.convertOrg, hu.orgNames]

/-- What is told holds. -/
theorem told_answer (hu : Upkeep a₀ a) (c : SeatCall) :
    Told a₀ (a.answer c).2 ⟨c, (a.answer c).1⟩ := by
  rcases answer_eq a c with h | ⟨e, -, h⟩
  · rw [h]
    cases c with
    | convertOrg org =>
      rw [Accounts.serve, convertOrg_eq hu]
      cases ho : a₀.convertOrg org with
      | ok name => exact ho
      | error e => exact trivial
    | quotaCost org search => exact (hu.version org).symm
    | subscription id =>
      rw [Accounts.serve]
      cases hs : a.subscriptions.get? id with
      | none => exact trivial
      | some s =>
        refine ⟨fun n hn hbound hid ↦ ?_, fun _ s' hs' ↦ Option.some.inj (hs'.symm.trans hs)⟩
        rw [hid, hu.unused n hn hbound] at hs
        cases hs
    | _ => simp [Told]
  · rw [h]
    cases c <;> exact trivial

/-- No two organizations have quotas of the same version. -/
def Distinct (a : Accounts) : Prop :=
  ∀ version org org', (a.quotas.get? org).bind Quota.version = some version →
    (a.quotas.get? org').bind Quota.version = some version → org = org'

/-- A version tells whose quota it is. -/
theorem eq_of_versionHolder (hu : Upkeep a₀ a) (hd : Distinct a₀) {r : AuthorizationRequest}
    {org holder : String} {q : Quota} (hv : a.versionHolder r = some (holder, q))
    (hr : (a₀.quotas.get? org).bind Quota.version = r.quotaVersion) : holder = org := by
  obtain ⟨hsome, hversion⟩ : q.version.isSome = true ∧ q.version = r.quotaVersion := by
    simpa using List.find?_some hv
  obtain ⟨version, hq⟩ := Option.isSome_iff_exists.1 hsome
  have hholder : (a₀.quotas.get? holder).bind Quota.version = some version := by
    rw [← hu.version, get?_of_versionHolder hv]
    exact hq
  exact hd version holder org hholder (by rw [hr, ← hversion, hq])

end Licensing.Seat
