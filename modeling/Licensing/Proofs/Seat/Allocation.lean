import Licensing.Proofs.Run
import Licensing.Proofs.Seat.Accounts
import Licensing.Text.Decimal

/-!
# Seats are never over-allocated

Several operations can have read the same version of a quota before one of them asks for an
authorization, and a version never changes. What keeps the seats within the quota is that the
accounts system looks at it again when it answers. So what a deed does to a quota (`Change`)
bounds what a run does to it (`Kept`), whoever asks and in whatever order.
-/

namespace Licensing.Seat

variable {org : String} {d : Option Deed} {ds : List Deed} {q₀ q q' : Quota}

/-! ### A quota and the deeds that concern it -/

/-- What a list of deeds makes of the quota of an organization. -/
structure Kept (org : String) (ds : List Deed) (q₀ q : Quota) : Prop where
  /-- Nothing but the seats in use changes. -/
  fixed : q = { q₀ with consumed := q.consumed }
  /-- What was granted and not deleted is in use. -/
  balance : q₀.consumed + ds.count (.granted org) ≤ q.consumed + ds.count (.deleted org)
  /-- Grants do not go beyond the seats that may be assigned, and deletions not below none. -/
  le_max : q.consumed ≤ max q₀.allowed (max q₀.consumed 0)
  /-- Deletions go no lower than to none. -/
  min_le : min q₀.consumed 0 ≤ q.consumed

/-- Without deeds a quota is as it was. -/
theorem kept_nil (org : String) (q : Quota) : Kept org [] q q where
  fixed := rfl
  balance := by simp
  le_max := by omega
  min_le := by omega

/-- A deed of one kind does not count for another. -/
theorem count_concat_of_ne {x : Deed} (h : d ≠ some x) :
    (ds ++ d.toList).count x = ds.count x := by
  cases d with
  | none => rw [Option.toList_none, List.append_nil]
  | some y =>
    have hne : y ≠ x := by simpa using h
    rw [Option.toList_some, List.count_append, List.count_singleton, if_neg (by simpa using hne),
      Nat.add_zero]

/-- A deed counts once for its own kind. -/
theorem count_concat_self (ds : List Deed) (x : Deed) :
    (ds ++ (some x).toList).count x = ds.count x + 1 := by
  rw [Option.toList_some, List.count_append, List.count_singleton_self]

/-- One more deed. -/
theorem Kept.concat (h : Kept org ds q₀ q) (hc : Change org d q q') :
    Kept org (ds ++ d.toList) q₀ q' := by
  have hallowed : q.allowed = q₀.allowed := by simpa using congrArg Quota.allowed h.fixed
  obtain ⟨hfixed, hbalance, hmax, hmin⟩ := h
  cases hc with
  | same hg hd =>
    refine ⟨hfixed, ?_, hmax, hmin⟩
    rwa [count_concat_of_ne hg, count_concat_of_ne hd]
  | granted hroom =>
    -- The check at the time of the grant is what keeps the seats within the quota.
    refine ⟨by rw [hfixed], ?_, by dsimp only; omega, by dsimp only; omega⟩
    rw [count_concat_self, count_concat_of_ne (by simp)]
    push_cast
    omega
  | deleted =>
    have hrelease : (Accounts.release q).consumed = max (q.consumed - 1) 0 := rfl
    refine ⟨by rw [hfixed, Accounts.release], ?_, by omega, by omega⟩
    rw [count_concat_self, count_concat_of_ne (by simp)]
    push_cast
    omega

/-- One more deed, of an organization that need not have a quota. -/
theorem rel_kept_concat {x y z : Option Quota} (h : Option.Rel (Kept org ds) x y)
    (hc : Option.Rel (Change org d) y z) : Option.Rel (Kept org (ds ++ d.toList)) x z := by
  cases h with
  | none =>
    cases hc with
    | none => exact .none
  | some h =>
    cases hc with
    | some hc => exact .some (h.concat hc)

/-- What is true of a quota after as many grants and deletions. -/
structure Upheld (grants deletions : Nat) (q₀ q : Quota) : Prop where
  /-- Neither the seats that may be assigned change nor the version. -/
  fixed : q = { q₀ with consumed := q.consumed }
  /-- A quota that was not exceeded is not exceeded. -/
  consumed_le : 0 ≤ q₀.allowed → q₀.consumed ≤ q₀.allowed → q.consumed ≤ q.allowed
  /-- No more seats were granted and kept than were free. -/
  grants_le : 0 ≤ q₀.allowed → q₀.consumed ≤ q₀.allowed →
    (grants : Int) - deletions ≤ q₀.allowed - q₀.consumed
  /-- Numbers of 64 bits do not overflow. -/
  range : q₀.allowed ≤ Decimal.maxI64 → Decimal.minI64 ≤ q₀.consumed →
    q₀.consumed ≤ Decimal.maxI64 → Decimal.minI64 ≤ q.consumed ∧ q.consumed ≤ Decimal.maxI64
  /-- There are never less than no seats in use. -/
  nonneg : 0 ≤ q₀.consumed → 0 ≤ q.consumed

/-- What is kept of a quota upholds it: the seats in use stay within what may be assigned, and
account for every grant and deletion. -/
theorem Kept.upheld (h : Kept org ds q₀ q) :
    Upheld (ds.count (.granted org)) (ds.count (.deleted org)) q₀ q := by
  have hallowed : q.allowed = q₀.allowed := by simpa using congrArg Quota.allowed h.fixed
  obtain ⟨hfixed, hbalance, hmax, hmin⟩ := h
  exact
    { fixed := hfixed
      consumed_le := by omega
      grants_le := by omega
      range := by
        simp only [Decimal.minI64, Decimal.maxI64]
        omega
      nonneg := by omega }

/-- So it is for an organization that has no quota, where there is nothing to uphold. -/
theorem rel_upheld {x y : Option Quota} (h : Option.Rel (Kept org ds) x y) :
    Option.Rel (Upheld (ds.count (.granted org)) (ds.count (.deleted org))) x y := by
  cases h with
  | none => exact .none
  | some h => exact .some h.upheld

namespace Office

variable {o₀ o o' : Office} {es : List Event} {e : Event}

/-! ### Runs -/

/-- A run begins with its first event. -/
theorem run_cons : o.run (e :: es) = (o.step e).bind fun next ↦ next.run es := rfl

/-- The last event of a run is a step from where the others lead. -/
theorem run_concat_iff :
    o₀.run (es ++ [e]) = some o' ↔ ∃ o, o₀.run es = some o ∧ o.step e = some o' :=
  Run.concat_iff

/-- The deed of the last event is the last deed. -/
theorem deeds_concat (h : o₀.run es = some o) (hs : o.step e = some o') :
    o₀.deeds (es ++ [e]) = o₀.deeds es ++ (o.deed? e).toList := by
  induction es generalizing o₀ with
  | nil =>
    obtain rfl := Option.some.inj h
    simp [deeds, hs]
  | cons e₁ es ih =>
    rw [run_cons] at h
    obtain ⟨next, hstep, hrun⟩ := Option.bind_eq_some_iff.1 h
    simp only [List.cons_append, deeds, hstep, ih hrun, List.append_assoc]

/-! ### Steps -/

/-- An event asks the accounts system one question, or none. -/
theorem accounts_of_step (h : o.step e = some o') :
    (o.question? e = none ∧ o'.accounts = o.accounts) ∨
      ∃ c, o.question? e = some c ∧ o'.accounts = (o.accounts.answer c).2 := by
  cases e with
  | start i operation =>
    obtain rfl := Option.some.inj h
    exact .inl ⟨rfl, rfl⟩
  | other c =>
    obtain rfl := Option.some.inj h
    exact .inr ⟨c, rfl, rfl⟩
  | ask n user =>
    rw [step] at h
    split at h
    · rename_i c next hn
      obtain rfl := Option.some.inj h
      cases c <;> simp [question?, hn]
    · cases h

/-- What a step makes of the accounts system is the effect of its deed. -/
theorem effect_of_step (hs : o.accounts.scripted = none) (h : o.step e = some o') :
    Effect o.accounts (o.deed? e) o'.accounts := by
  rcases accounts_of_step h with ⟨hc, ha⟩ | ⟨c, hc, ha⟩
  · rw [deed?, hc, ha]
    exact .idle rfl
  · rw [deed?, hc, ha]
    exact effect_answer hs c

/-- Whether authorizations are decided does not change in a step. -/
theorem scripted_of_step (h : o.step e = some o') :
    o'.accounts.scripted = o.accounts.scripted := by
  rcases accounts_of_step h with ⟨-, ha⟩ | ⟨c, -, ha⟩
  · rw [ha]
  · rw [ha, scripted_answer]

/-- **Every quota is kept by every run**, by induction on the events: the last deed changes it as a
deed can. -/
theorem kept_of_run (hs : o₀.accounts.scripted = none) (h : o₀.run es = some o) :
    o.accounts.scripted = none ∧ ∀ org, Option.Rel (Kept org (o₀.deeds es))
      (o₀.accounts.quotas.get? org) (o.accounts.quotas.get? org) := by
  induction es using List.reverseRecOn generalizing o with
  | nil =>
    obtain rfl := Option.some.inj h
    refine ⟨hs, fun org ↦ ?_⟩
    cases o₀.accounts.quotas.get? org with
    | none => exact .none
    | some q => exact .some (kept_nil org q)
  | append_singleton es e ih =>
    obtain ⟨o₁, h₁, hstep⟩ := run_concat_iff.1 h
    obtain ⟨hs₁, hkept⟩ := ih h₁
    refine ⟨(scripted_of_step hstep).trans hs₁, fun org ↦ ?_⟩
    have hchange := (effect_of_step hs₁ hstep).change org
    rw [deeds_concat h₁ hstep]
    exact rel_kept_concat (hkept org) hchange

/-! ### What all runs have in common -/

/-- What is true of the accounts system after a run, whoever asked what in it. -/
structure Allocated (o₀ : Office) (es : List Event) (o : Office) : Prop where
  /-- Every quota is upheld, and no quota comes or goes. -/
  upheld : ∀ org, Option.Rel (Upheld (o₀.grants es org) (o₀.deletions es org))
    (o₀.accounts.quotas.get? org) (o.accounts.quotas.get? org)
  /-- A request that names a used up quota is denied, and changes no quota and no subscription. -/
  denied : ∀ r org q, o.accounts.failure = none → o.accounts.versionHolder r = some (org, q) →
    q.allowed ≤ q.consumed → ∃ a, (o.accounts.answer (.authorize r)).1 = .ok a ∧
      a.allowed = false ∧ 0 < a.excessResources ∧
      (o.accounts.answer (.authorize r)).2.quotas = o.accounts.quotas ∧
      (o.accounts.answer (.authorize r)).2.subscriptions = o.accounts.subscriptions

/-- **Seats are never over-allocated.** Whatever operations go on at the same time and whatever
else the accounts system is asked, seats are only granted within the quota as it is at that
time. -/
theorem allocated_of_run (o₀ : Office) (es : List Event) (o : Office)
    (hs : o₀.accounts.scripted = none) (h : o₀.run es = some o) : Allocated o₀ es o := by
  obtain ⟨hs, hkept⟩ := kept_of_run hs h
  refine { upheld := fun org ↦ rel_upheld (hkept org), denied := ?_ }
  intro r org q hf hv hq
  obtain ⟨hanswer, hquotas, hsubscriptions⟩ := answer_authorize_of_le hs hf hv hq
  exact ⟨_, hanswer, rfl, by simp, hquotas, hsubscriptions⟩

/-- An accounts system in which an organization may have one seat. -/
def oneSeat : Office where
  accounts :=
    { orgNames := ∅
      quotas := .ofList [("AMSORG7", ⟨"seat|ansible.wisdom", 1, 0, some "v1"⟩)]
      subscriptions := ∅
      scripted := none
      failure := none
      users := ∅
      made := 0
      log := default }
  operations := []

/-- Two seats are asked for at the same time: both operations read the quota, and then both ask
for an authorization. -/
def sharedVersion : List Event :=
  let boss : Identity := { (default : Identity) with orgId := "7", orgAdmin := true }
  let turn (n : Nat) : Event := .ask n (.ok ⟨"ann", "7", "ann@example.com", false⟩)
  [.start boss (.assign "ann"), .start boss (.assign "ann"), turn 0, turn 1, turn 0, turn 1,
    turn 0, turn 1, turn 1, turn 0]

/-- One of them gets it. -/
theorem allocated_sharedVersion : ∃ o, oneSeat.run sharedVersion = some o ∧
    o.accounts.log.authorizationRequests.length = 2 ∧ oneSeat.grants sharedVersion "AMSORG7" = 1 ∧
    Allocated oneSeat sharedVersion o := by
  have hrun : (oneSeat.run sharedVersion).any
      (fun o ↦ o.accounts.log.authorizationRequests.length = 2) = true := by decide
  obtain ⟨o, ho, hq⟩ := (Option.any_eq_true _ _).1 hrun
  exact ⟨o, ho, of_decide_eq_true hq, by decide, allocated_of_run _ _ _ rfl ho⟩

end Office

end Licensing.Seat
