import Licensing.Proofs.Seat.Accounts
import Licensing.Proofs.Seat.Assignment
import Licensing.Proofs.Seat.Revocation

/-!
# Callers without an organization

An identity may name no organization: the empty identifier and the mark for an unknown one are not
valid (`Identity.hasValidOrg`). The seat operations do not look at that. They compare what they are
told, so that such a caller changes a seat as soon as the services behind keep something under the
identifier that stands for nothing: a user of the directory without an organization, and a name in
the accounts system (`Unaffiliated`). Nothing is changed where the accounts system has no name for
it, which is what the accounts system in memory says unless it was given one
(`refusesOrg_answer`). That it may have one, and what comes of that, is shown by
`changes_unaffiliated`.
-/

namespace Licensing

/-! ### What holds of every exchange -/

/-- What the services keep up, and what is true of their answers while they do, is true of every
exchange of a conversation. -/
theorem Dialogue.forall_mem_transcript {α σ : Type} {answer : σ → (c : SeatCall) → c.Answer × σ}
    {Inv : σ → Prop} {P : Exchange → Prop} (hkeep : ∀ s c, Inv s → Inv (answer s c).2)
    (htell : ∀ s c, Inv s → P ⟨c, (answer s c).1⟩) (d : Dialogue α) {s : σ} (hs : Inv s) :
    ∀ x ∈ d.transcript answer s, P x := by
  induction d generalizing s with
  | done a => simp [transcript]
  | fail e => simp [transcript]
  | ask c next ih =>
    rw [transcript]
    exact List.forall_mem_cons.2 ⟨htell s c hs, ih _ (hkeep s c hs)⟩
  | join c c' next ih =>
    rw [transcript]
    have hfirst := htell s c hs
    have hs₁ := hkeep s c hs
    generalize answer s c = first at hfirst hs₁ ⊢
    obtain ⟨e | a, s₁⟩ := first
    · exact List.forall_mem_singleton.2 hfirst
    have hsecond := htell s₁ c' hs₁
    have hs₂ := hkeep s₁ c' hs₁
    dsimp only
    generalize answer s₁ c' = second at hsecond hs₂ ⊢
    obtain ⟨e | b, s₂⟩ := second
    · exact List.forall_mem_cons.2 ⟨hfirst, List.forall_mem_singleton.2 hsecond⟩
    · exact List.forall_mem_cons.2 ⟨hfirst, List.forall_mem_cons.2 ⟨hsecond, ih a b hs₂⟩⟩

namespace Seat

variable {i : Identity} {org : String} {a : Accounts} {es : List Exchange}

/-! ### Accounts systems that have no name for an organization -/

/-- The accounts system tells no name of an organization. -/
def RefusesOrg (org : String) (x : Exchange) : Prop :=
  ∀ name, x ≠ ⟨.convertOrg org, .ok name⟩

/-- The accounts system in memory has no name for an invalid organization unless it was given
one. -/
theorem refusesOrg_answer (horg : isValidId org = false) (ha : a.orgNames.get? org = none)
    (c : SeatCall) : RefusesOrg org ⟨c, (a.answer c).1⟩ := by
  intro name heq
  obtain ⟨rfl, hanswer⟩ := Exchange.mk.inj heq
  have hname : (a.answer (.convertOrg org)).1 = .ok name := eq_of_heq hanswer
  rcases answer_eq a (.convertOrg org) with h | ⟨e, -, h⟩
  · rw [h, Accounts.serve, Accounts.convertOrg, ha] at hname
    simp [horg] at hname
  · rw [h] at hname
    cases hname

theorem not_named_of_refusesOrg (h : ∀ x ∈ es, RefusesOrg i.orgId x) (name : String) :
    ¬ Named es i name :=
  fun hname ↦ h _ hname name rfl

/-! ### Changes -/

/-- What it takes for a caller with an invalid organization to change a seat. -/
structure Unaffiliated {σ : Type} (i : Identity) (answer : σ → (c : SeatCall) → c.Answer × σ)
    (s : σ) : Prop where
  /-- A seat is asked for only for a user whom the directory keeps under that very identifier,
  which is not valid, and when the accounts system has a name for it. -/
  authorizations : ∀ account, authorizations ((assign i account).transcript answer s) ≠ [] →
    (∃ user, ⟨.user (Text.trim account), .ok user⟩ ∈ (assign i account).transcript answer s ∧
      user.orgId = i.orgId ∧ isValidId user.orgId = false) ∧
    ∃ name, Named ((assign i account).transcript answer s) i name ∧ hasQuote name = false
  /-- A subscription is deleted only when the accounts system has a name for that identifier and
  says that the subscription belongs to what has this name. -/
  deletions : ∀ id, deletions ((revoke i id).transcript answer s) ≠ [] →
    ∃ name, Belongs ((revoke i id).transcript answer s) id name ∧
      Named ((revoke i id).transcript answer s) i name
  /-- Nothing is changed where the accounts system has no name for it, and gets none while it is
  asked. -/
  unnamed : ∀ Inv : σ → Prop, Inv s →
    (∀ s c, Inv s → Inv (answer s c).2 ∧ RefusesOrg i.orgId ⟨c, (answer s c).1⟩) →
    (∀ account, Licensing.authorizations ((assign i account).transcript answer s) = []) ∧
      ∀ id, Licensing.deletions ((revoke i id).transcript answer s) = []

theorem unaffiliated_of_hasValidOrg {σ : Type} (hi : i.hasValidOrg = false)
    (answer : σ → (c : SeatCall) → c.Answer × σ) (s : σ) : Unaffiliated i answer s := by
  have hassign : ∀ account, authorizations ((assign i account).transcript answer s) ≠ [] →
      Member ((assign i account).transcript answer s) i (Text.trim account) ∧
        ∃ name, Named ((assign i account).transcript answer s) i name ∧
          hasQuote name = false := by
    intro account hne
    have h := assignment_of_course (Dialogue.course_transcript answer (assign i account) s)
    obtain ⟨-, -, hmember, -, name, hname, hclean, -⟩ := h.authorizations_ne_nil_iff.1 hne
    exact ⟨hmember, name, hname, hclean⟩
  have hrevoke : ∀ id, deletions ((revoke i id).transcript answer s) ≠ [] →
      ∃ name, Belongs ((revoke i id).transcript answer s) id name ∧
        Named ((revoke i id).transcript answer s) i name := by
    intro id hne
    have h := revocation_of_course (Dialogue.course_transcript answer (revoke i id) s)
    obtain ⟨-, name, hbelongs, -, hname, -⟩ :=
      h.deletions_eq_iff.1 (h.deletions_eq.resolve_left hne)
    exact ⟨name, hbelongs, hname⟩
  refine ⟨fun account hne ↦ ?_, hrevoke, fun Inv hs hanswer ↦ ?_⟩
  · obtain ⟨⟨user, huser, horg⟩, hname⟩ := hassign account hne
    exact ⟨⟨user, huser, horg, horg ▸ hi⟩, hname⟩
  · have hrefuses : ∀ {α : Type} (d : Dialogue α), ∀ x ∈ d.transcript answer s,
        RefusesOrg i.orgId x := fun d ↦
      Dialogue.forall_mem_transcript (fun s c h ↦ (hanswer s c h).1)
        (fun s c h ↦ (hanswer s c h).2) d hs
    refine ⟨fun account ↦ ?_, fun id ↦ ?_⟩
    · by_contra hne
      obtain ⟨-, name, hname, -⟩ := hassign account hne
      exact not_named_of_refusesOrg (hrefuses _) name hname
    · by_contra hne
      obtain ⟨name, -, hname⟩ := hrevoke id hne
      exact not_named_of_refusesOrg (hrefuses _) name hname

/-- **A caller without an organization changes nothing on its own account.** Whatever the services
answer, they have to keep a user, or the owner of a subscription, under the identifier that stands
for no organization. The accounts system in memory does not, unless it was given a name for it. -/
theorem unaffiliated (i : Identity) (hi : i.hasValidOrg = false) :
    (∀ {σ : Type} (answer : σ → (c : SeatCall) → c.Answer × σ) (s : σ),
      Unaffiliated i answer s) ∧
    ∀ a : Accounts, a.orgNames.get? i.orgId = none →
      (∀ account, authorizations ((assign i account).transcript Accounts.answer a) = []) ∧
        ∀ id, deletions ((revoke i id).transcript Accounts.answer a) = [] := by
  refine ⟨unaffiliated_of_hasValidOrg hi, fun a ha ↦ ?_⟩
  refine (unaffiliated_of_hasValidOrg hi Accounts.answer a).unnamed
    (fun a ↦ a.orgNames.get? i.orgId = none) ha fun b c hb ↦ ⟨?_, refusesOrg_answer hi hb c⟩
  show (b.answer c).2.orgNames.get? i.orgId = none
  rw [(sameSetup_answer b c).orgNames, hb]

/-! ### A name for nothing -/

/-- An administrator of no organization. -/
def stray : Identity where
  accountNumber := ""
  orgId := ""
  isInternal := false
  email := ""
  username := "ann"
  principal := .user
  orgAdmin := true

/-- An accounts system with a name for no organization, next to a directory with a user of none. -/
def lenient : Accounts where
  orgNames := .ofList [("", "AMS1")]
  quotas := .ofList [("AMS1", ⟨"seat|ansible.wisdom", 2, 0, some "v1"⟩)]
  subscriptions := .ofList [("sub-0", ⟨"sub-0", some "AMS1", "Active", none⟩)]
  scripted := none
  failure := none
  users := .ofList [("bob", ⟨"bob", "", "", false⟩)]
  made := 0
  log := default

/-- **With a name for no organization its administrator changes seats.** A seat is asked for, for a
user who is in no organization either, and a subscription is deleted. -/
theorem changes_unaffiliated : stray.hasValidOrg = false ∧
    authorizations ((assign stray "bob").transcript Accounts.answer lenient) =
      [seatRequest "bob" (some "v1")] ∧
    deletions ((revoke stray "sub-0").transcript Accounts.answer lenient) = ["sub-0"] := by
  decide +kernel

/-- Without the name nothing is changed. -/
theorem unaffiliated_unnamed : stray.hasValidOrg = false ∧
    { lenient with orgNames := ∅ }.orgNames.get? stray.orgId = none ∧
    ∀ account, authorizations ((assign stray account).transcript Accounts.answer
      { lenient with orgNames := ∅ }) = [] :=
  ⟨by decide, by decide, ((unaffiliated stray (by decide)).2 _ (by decide)).1⟩

end Seat

end Licensing
