import Licensing.Proofs.Seat.Watch

/-!
# Organizations are kept apart

An operation changes nothing but what belongs to the organization of its caller. Its course tells
what it was told before it asked for a change (`Passage`), this still held when it asked
(`Recorded`), and so the one change that the accounts system can make of it (`Reaction`) is one for
that organization (`Dealing`).
-/

namespace Licensing.Seat

open Accounts (madeId numbers)
open Dialogue (Course)

variable {a a₀ a' : Accounts} {x : Exchange} {i : Identity} {operation : Operation}
  {vs : List Visit} {d : Dialogue Outcome}

/-! ### What an operation changed -/

/-- No quota and no subscription is changed. -/
def Untouched (a a' : Accounts) : Prop :=
  a'.quotas = a.quotas ∧ a'.subscriptions = a.subscriptions

/-- A question that changes nothing leaves both the quotas and the subscriptions as they are. -/
theorem Visit.changes_eq_false_iff {v : Visit} :
    v.changes = false ↔ Untouched v.before v.after := by
  simp [changes, Untouched]

/-- A seat is assigned to a user of an organization. -/
structure Addition (org username id : String) (a a' : Accounts) : Prop where
  /-- There is no subscription of that name. -/
  unused : a.subscriptions.get? id = none
  /-- Then there is one, of the organization and created by the user. -/
  subscriptions : a'.subscriptions =
    a.subscriptions.insert id ⟨id, some org, "Active", some ⟨some username, none, none, none⟩⟩
  /-- The organization has one more seat in use. -/
  quotas : ∃ q, a.quotas.get? org = some q ∧
    a'.quotas = a.quotas.insert org { q with consumed := q.consumed + 1 }

/-- The seat behind a subscription of an organization is revoked. -/
structure Removal (org id : String) (a a' : Accounts) : Prop where
  /-- It is a subscription of the organization. -/
  owned : ∃ s, a.subscriptions.get? id = some s ∧ s.organizationId = some org
  /-- Then it is no more. -/
  subscriptions : a'.subscriptions = a.subscriptions.erase id
  /-- The organization has one seat fewer in use. -/
  quotas : ∀ g, a'.quotas.get? g =
    if org = g then (a.quotas.get? g).map Accounts.release else a.quotas.get? g

/-- What is answered without an effect leaves everything untouched. -/
theorem Reaction.untouched (h : Reaction a x a') (hx : x.effective = false) : Untouched a a' := by
  cases h with
  | noted => exact ⟨rfl, rfl⟩
  | granted | deleted => cases hx

/-- A grant is an addition for the organization whose quota has the version in the request: versions
tell the organizations apart, and the name of the subscription is new. -/
theorem Reaction.addition {r : AuthorizationRequest} {answer : Authorization} {org : String}
    (h : Reaction a ⟨.authorize r, .ok answer⟩ a') (hu : Upkeep a₀ a) (hd : Distinct a₀)
    (hbound : a'.made < numbers) (ha : answer.allowed = true)
    (hr : (a₀.quotas.get? org).bind Quota.version = r.quotaVersion) :
    ∃ id, answer.subscriptionId = some id ∧ Addition org r.accountUsername id a a' := by
  cases h with
  | noted hx => exact absurd (ha.symm.trans hx) (by simp)
  | granted hv hroom l =>
    obtain rfl := eq_of_versionHolder hu hd hv hr
    exact ⟨_, rfl, hu.unused _ (Nat.lt_succ_self _) hbound, rfl, _, get?_of_versionHolder hv, rfl⟩

/-- A deletion is a removal for the organization that the subscription was told to belong to: it is
still the same subscription. -/
theorem Reaction.removal {id org : String} {s : Subscription}
    (h : Reaction a ⟨.deleteSubscription id, .ok ()⟩ a')
    (ht : Told a₀ a ⟨.subscription id, .ok s⟩) (hbound : a.made < numbers)
    (hg : s.organizationId = some org) :
    Removal org id a a' := by
  cases h with
  | noted hx => cases hx
  | @deleted _ s' hs =>
    obtain rfl := ht.2 hbound s' hs
    refine ⟨⟨s', hs, hg⟩, rfl, fun g ↦ ?_⟩
    rw [get?_quotas_delete, hg]
    simp only [Option.some.injEq]

/-- What an operation changed, by what is left of it. -/
inductive Dealing (a₀ : Accounts) (i : Identity) :
    Operation → List Visit → Dialogue Outcome → Prop where
  /-- It changed nothing, and does not claim to have changed anything. -/
  | idle {operation : Operation} {vs : List Visit} {d : Dialogue Outcome}
    (hvs : ∀ v ∈ vs, Untouched v.before v.after) (ha : ∀ seat, d ≠ .done (.assigned seat))
    (hr : d ≠ .done .revoked) : Dealing a₀ i operation vs d
  /-- It has assigned a seat. -/
  | assigned {account org id : String} {vs : List Visit} {v : Visit}
    (hvs : ∀ v ∈ vs, Untouched v.before v.after) (horg : a₀.convertOrg i.orgId = .ok org)
    (hv : Addition org (Text.trim account) id v.before v.after) :
    Dealing a₀ i (.assign account) (vs ++ [v]) (.done (.assigned ⟨id, Text.trim account⟩))
  /-- It has revoked a seat. -/
  | revoked {id org : String} {vs : List Visit} {v : Visit}
    (hvs : ∀ v ∈ vs, Untouched v.before v.after) (horg : a₀.convertOrg i.orgId = .ok org)
    (hv : Removal org id v.before v.after) :
    Dealing a₀ i (.revoke id) (vs ++ [v]) (.done .revoked)

/-- What was asked last is the last of the visits. -/
theorem exists_concat_of_map {xs : List Exchange} (h : vs.map Visit.exchange = xs ++ [x]) :
    ∃ us v, vs = us ++ [v] ∧ us.map Visit.exchange = xs ∧ v.exchange = x := by
  obtain ⟨us, ws, rfl, hus, hws⟩ := List.map_eq_append_iff.1 h
  obtain ⟨v, rfl, hv⟩ := List.map_eq_singleton_iff.1 hws
  exact ⟨us, v, rfl, hus, hv⟩

namespace Recorded

variable {us : List Visit} {v : Visit}

/-- Questions that were answered by no change changed nothing. -/
theorem untouched (h : Recorded a₀ i operation vs d a) (hus : us ⊆ vs)
    (hxs : ∀ x ∈ us.map Visit.exchange, x.effective = false) :
    ∀ u ∈ us, Untouched u.before u.after :=
  fun u hu ↦ (h.reaction u (hus hu)).untouched (hxs _ (List.mem_map_of_mem hu))

/-- An operation that ended has gone through a passage. -/
theorem passage (h : Recorded a₀ i operation vs d a) {o : Except SeatError Outcome}
    (hd : Course d [] o) : Passage i operation (vs.map Visit.exchange) o := by
  have hcourse := h.reached [] o hd
  rw [List.append_nil] at hcourse
  exact passage_of_course hcourse

/-- An operation that changed nothing does not claim to have changed anything. -/
theorem idle (h : Recorded a₀ i operation vs d a)
    (hxs : ∀ x ∈ vs.map Visit.exchange, x.effective = false) : Dealing a₀ i operation vs d := by
  have hfalse : ¬∃ x ∈ vs.map Visit.exchange, x.effective = true := by
    rintro ⟨x, hx, he⟩
    exact absurd (he.symm.trans (hxs x hx)) (by simp)
  refine .idle (h.untouched (List.Subset.refl vs) hxs) (fun seat hd ↦ ?_) (fun hd ↦ ?_)
  · subst hd
    exact hfalse ((h.passage (.done _)).exists_effective (.inl ⟨seat, rfl⟩))
  · subst hd
    exact hfalse ((h.passage (.done _)).exists_effective (.inr rfl))

/-- What was told before the last question still held when it was asked. -/
theorem told_last (h : Recorded a₀ i operation (us ++ [v]) d a) :
    ∀ x ∈ us.map Visit.exchange, Told a₀ v.before x := by
  intro x hx
  obtain ⟨u, hu, rfl⟩ := List.mem_map.1 hx
  exact (List.pairwise_append.1 h.told).2.2 u hu v (List.mem_singleton_self v)

/-- The accounts system answered the last question as it can. -/
theorem reaction_last (h : Recorded a₀ i operation (us ++ [v]) d a) :
    Reaction v.before v.exchange v.after :=
  h.reaction v (List.mem_append_right _ (List.mem_singleton_self v))

/-- The last question came before the numbers wrapped around. -/
theorem made_lt_last (h : Recorded a₀ i operation (us ++ [v]) d a) (hbound : a.made < numbers) :
    v.after.made < numbers :=
  (h.made_le v (List.mem_append_right _ (List.mem_singleton_self v))).trans_lt hbound

/-- It was kept until then. -/
theorem upkeep_last (h : Recorded a₀ i operation (us ++ [v]) d a) : Upkeep a₀ v.before :=
  h.upkeep v (List.mem_append_right _ (List.mem_singleton_self v))

/-- **What an operation changed.** It changed nothing, or it asked for one change last, and this
one concerns the organization of its caller. -/
theorem dealing (h : Recorded a₀ i operation vs d a) (hd : Distinct a₀)
    (hbound : a.made < numbers) : Dealing a₀ i operation vs d := by
  by_cases he : ∀ x ∈ vs.map Visit.exchange, x.effective = false
  · exact h.idle he
  · obtain ⟨x, hx, he⟩ : ∃ x ∈ vs.map Visit.exchange, x.effective = true := by simpa using he
    obtain ⟨o, hpassage, hdone⟩ := passage_of_effective h.reached hx he
    generalize hmap : vs.map Visit.exchange = xs at hpassage
    cases hpassage with
    | idle hxs => exact absurd (he.symm.trans (hxs x (hmap ▸ hx))) (by simp)
    | @assigned account org id quota xs answer hxs horg hq ha hid =>
      obtain ⟨us, v, rfl, rfl, hv⟩ := exists_concat_of_map hmap
      obtain ⟨id', hid', haddition⟩ :=
        (hv ▸ h.reaction_last).addition h.upkeep_last hd (h.made_lt_last hbound) ha
          (h.told_last _ hq)
      obtain rfl : id' = id := Option.some.inj (hid'.symm.trans hid)
      obtain rfl := hdone.eq_done_of_nil
      exact .assigned (h.untouched (List.subset_append_left us [v]) hxs) (h.told_last _ horg)
        haddition
    | @unidentified account r xs answer e hxs ha hid =>
      -- The accounts system tells which subscription it made.
      obtain ⟨us, v, rfl, rfl, hv⟩ := exists_concat_of_map hmap
      have hmade := (hv ▸ h.reaction_last).subscriptionId_eq ha
      rw [hid] at hmade
      cases hmade
    | @revoked id org s xs hxs hs hg horg =>
      obtain ⟨us, v, rfl, rfl, hv⟩ := exists_concat_of_map hmap
      have hbefore : v.before.made < numbers :=
        h.reaction_last.made_le.trans_lt (h.made_lt_last hbound)
      have hremoval := (hv ▸ h.reaction_last).removal (h.told_last _ hs) hbefore hg
      obtain rfl := hdone.eq_done_of_nil
      exact .revoked (h.untouched (List.subset_append_left us [v]) hxs) (h.told_last _ horg)
        hremoval

end Recorded

/-! ### What all operations have in common -/

/-- Nothing is changed but what belongs to one organization, if there is one. -/
structure Confined (name : Except RemoteError String) (a a' : Accounts) : Prop where
  /-- The quotas of others stay as they are. -/
  quotas : ∀ org, a'.quotas.get? org ≠ a.quotas.get? org → name = .ok org
  /-- No subscription of others is added, changed or removed. -/
  subscriptions : ∀ id, a'.subscriptions.get? id ≠ a.subscriptions.get? id →
    ∃ org, name = .ok org ∧ ∀ s, a.subscriptions.get? id = some s ∨
      a'.subscriptions.get? id = some s → s.organizationId = some org

section Confined

variable {name : Except RemoteError String} {org username id : String}

/-- Where nothing is changed, nothing of others is. -/
theorem Untouched.confined (h : Untouched a a') : Confined name a a' where
  quotas org hne := absurd (by rw [h.1]) hne
  subscriptions id hne := absurd (by rw [h.2]) hne

/-- What is added belongs to the organization. -/
theorem Addition.confined (h : Addition org username id a a') : Confined (.ok org) a a' where
  quotas g hne := by
    obtain ⟨q, -, hq⟩ := h.quotas
    rw [hq] at hne
    by_contra hg
    exact hne (OrderedMap.get?_insert_of_ne _ _ fun heq ↦ hg (congrArg Except.ok heq))
  subscriptions key hne := by
    refine ⟨org, rfl, fun s hs ↦ ?_⟩
    rw [h.subscriptions] at hne hs
    by_cases hkey : id = key
    · subst hkey
      rw [h.unused, OrderedMap.get?_insert_self] at hs
      rcases hs with hs | hs
      · cases hs
      · rw [← Option.some.inj hs]
    · exact absurd (OrderedMap.get?_insert_of_ne _ _ hkey) hne

/-- What is removed belonged to the organization. -/
theorem Removal.confined (h : Removal org id a a') : Confined (.ok org) a a' where
  quotas g hne := by
    rw [h.quotas] at hne
    by_contra hg
    exact hne (if_neg fun heq ↦ hg (congrArg Except.ok heq))
  subscriptions key hne := by
    obtain ⟨s, hs, horg⟩ := h.owned
    refine ⟨org, rfl, fun s' hs' ↦ ?_⟩
    rw [h.subscriptions, OrderedMap.get?_erase] at hne hs'
    split at hne
    · rename_i hkey
      subst hkey
      rw [if_pos rfl, hs] at hs'
      rcases hs' with hs' | hs'
      · rwa [← Option.some.inj hs']
      · cases hs'
    · exact absurd rfl hne

/-- An addition changes something: there was no such subscription before. -/
theorem Addition.not_untouched (h : Addition org username id a a') : ¬Untouched a a' := by
  intro hidle
  have hget := congrArg (OrderedMap.get? · id) (hidle.2.symm.trans h.subscriptions)
  simp [h.unused] at hget

/-- So does a removal, as there is no such subscription afterwards. -/
theorem Removal.not_untouched (h : Removal org id a a') : ¬Untouched a a' := by
  intro hidle
  obtain ⟨s, hs, -⟩ := h.owned
  have hget := congrArg (OrderedMap.get? · id) (hidle.2.symm.trans h.subscriptions)
  simp [hs] at hget

end Confined

/-- Where nothing is changed, there are no changes to list. -/
theorem filter_changes_eq_nil (hvs : ∀ v ∈ vs, Untouched v.before v.after) :
    vs.filter Visit.changes = [] :=
  List.filter_eq_nil_iff.2 fun v hv ↦
    Bool.eq_false_iff.1 (Visit.changes_eq_false_iff.2 (hvs v hv))

/-- A change that comes last is the only one in the list. -/
theorem filter_changes_concat {v : Visit} (hvs : ∀ v ∈ vs, Untouched v.before v.after)
    (hv : ¬Untouched v.before v.after) : (vs ++ [v]).filter Visit.changes = [v] := by
  have hchanges : v.changes = true := by
    rw [← Bool.not_eq_false, Visit.changes_eq_false_iff]
    exact hv
  rw [List.filter_append, filter_changes_eq_nil hvs, List.filter_singleton, hchanges]
  rfl

/-- What is true of an operation, by what it asked and what is left of it. -/
structure Isolated (a₀ : Accounts) (i : Identity) (operation : Operation) (vs : List Visit)
    (d : Dialogue Outcome) : Prop where
  /-- No question of the operation changes anything but what belongs to the organization of its
  caller. -/
  confined : ∀ v ∈ vs, Confined (a₀.convertOrg i.orgId) v.before v.after
  /-- A seat that was assigned is one change: one subscription more for the user, and one more seat
  in use. -/
  assigned : ∀ account seat, operation = .assign account → d = .done (.assigned seat) →
    seat.accountUsername = Text.trim account ∧ ∃ org v, a₀.convertOrg i.orgId = .ok org ∧
      vs.filter Visit.changes = [v] ∧
      Addition org seat.accountUsername seat.subscriptionId v.before v.after
  /-- A seat that was revoked is one change: the one subscription that was named is no more. -/
  revoked : ∀ id, operation = .revoke id → d = .done .revoked →
    ∃ org v, a₀.convertOrg i.orgId = .ok org ∧ vs.filter Visit.changes = [v] ∧
      Removal org id v.before v.after
  /-- An operation that did neither changed nothing: if it lists, fails or has not ended. -/
  idle : (∀ seat, d ≠ .done (.assigned seat)) → d ≠ .done .revoked →
    vs.filter Visit.changes = []

/-- What an operation changed is all that it was asked for, and nothing of others. -/
theorem Dealing.isolated (h : Dealing a₀ i operation vs d) : Isolated a₀ i operation vs d := by
  cases h with
  | idle hvs ha hr =>
    exact
      { confined := fun v hv ↦ (hvs v hv).confined
        assigned := fun _ seat _ hd ↦ absurd hd (ha seat)
        revoked := fun _ _ hd ↦ absurd hd hr
        idle := fun _ _ ↦ filter_changes_eq_nil hvs }
  | @assigned account org id vs v hvs horg hv =>
    have hconfined : Confined (a₀.convertOrg i.orgId) v.before v.after := horg ▸ hv.confined
    refine ⟨?_, ?_, by simp, fun ha ↦ absurd rfl (ha _)⟩
    · exact List.forall_mem_append.2
        ⟨fun w hw ↦ (hvs w hw).confined, List.forall_mem_singleton.2 hconfined⟩
    · rintro _ seat ⟨⟩ ⟨⟩
      exact ⟨rfl, org, v, horg, filter_changes_concat hvs hv.not_untouched, hv⟩
  | @revoked id org vs v hvs horg hv =>
    have hconfined : Confined (a₀.convertOrg i.orgId) v.before v.after := horg ▸ hv.confined
    refine ⟨?_, by simp, ?_, fun _ hr ↦ absurd rfl hr⟩
    · exact List.forall_mem_append.2
        ⟨fun w hw ↦ (hvs w hw).confined, List.forall_mem_singleton.2 hconfined⟩
    · rintro _ ⟨⟩ -
      exact ⟨org, v, horg, filter_changes_concat hvs hv.not_untouched, hv⟩

namespace Office

/-! ### Tenants -/

/-- Nothing has started yet, and what belongs to one organization can be told from what belongs
to others. -/
structure Opening (o : Office) : Prop where
  /-- No operation has started. -/
  operations : o.operations = []
  /-- Authorizations are decided. -/
  scripted : o.accounts.scripted = none
  /-- No two organizations have quotas of the same version. -/
  distinct : Distinct o.accounts
  /-- The names are free that subscriptions are to get. -/
  unused : ∀ n, o.accounts.made < n → n < numbers →
    o.accounts.subscriptions.get? (madeId n) = none

/-- **Organizations are kept apart.** Whatever operations go on at the same time, whatever the user
directory answers and whatever else the accounts system is asked, an operation changes nothing but
what belongs to the organization of its caller, and no more than what it was asked for. So it is
until the numbers of subscriptions, of 64 bits, have wrapped around. -/
theorem isolated_of_run (o₀ : Office) (es : List Event) (o : Office) (ho : Opening o₀)
    (h : o₀.run es = some o) (hbound : o.accounts.made < numbers) (n : Nat) (i : Identity)
    (operation : Operation) (hn : (started es)[n]? = some (i, operation)) :
    ∃ d, o.operations[n]? = some d ∧
      Isolated o₀.accounts i operation (o₀.visits n es) d := by
  have hu : Upkeep o₀.accounts o₀.accounts := ⟨ho.scripted, rfl, fun _ ↦ rfl, ho.unused⟩
  obtain ⟨d, hd, hrecorded⟩ := (watched_of_run ho.operations hu h).recorded n i operation hn
  exact ⟨d, hd, (hrecorded.dealing ho.distinct hbound).isolated⟩

/-- Two organizations with a quota each; one of them has a seat in use. -/
def twoTenants : Office where
  accounts :=
    { orgNames := ∅
      quotas := .ofList [("AMSORG7", ⟨"seat|ansible.wisdom", 2, 0, some "v7"⟩),
        ("AMSORG8", ⟨"seat|ansible.wisdom", 1, 1, some "v8"⟩)]
      subscriptions := .ofList [("seat-8", ⟨"seat-8", some "AMSORG8", "Active", none⟩)]
      scripted := none
      failure := none
      users := ∅
      made := 0
      log := default }
  operations := []

/-- The two organizations can be told apart at the start. -/
theorem opening_twoTenants : Opening twoTenants where
  operations := rfl
  scripted := rfl
  distinct version org org' h h' := by
    have hget : ∀ org, twoTenants.accounts.quotas.get? org =
        if "AMSORG8" = org then some ⟨"seat|ansible.wisdom", 1, 1, some "v8"⟩
        else if "AMSORG7" = org then some ⟨"seat|ansible.wisdom", 2, 0, some "v7"⟩ else none := by
      intro org
      simp [twoTenants, OrderedMap.ofList, OrderedMap.get?_insert]
    rw [hget] at h h'
    split_ifs at h h' <;> simp_all
    all_goals exact absurd (h.trans h'.symm) (by decide)
  unused n _ _ := by
    have hne : "seat-8" ≠ madeId n := by
      intro h
      have hlist := congrArg (fun s ↦ s.toList.take 2) h
      simp [madeId] at hlist
    simp [twoTenants, OrderedMap.ofList, OrderedMap.get?_insert, hne]

/-- The administrator of an organization. -/
def boss (org : String) : Identity :=
  { (default : Identity) with orgId := org, orgAdmin := true }

/-- One organization assigns a seat while the other revokes one. -/
def crossing : List Event :=
  let turn (n : Nat) : Event := .ask n (.ok ⟨"ann", "7", "ann@example.com", false⟩)
  [.start (boss "7") (.assign " ann"), .start (boss "8") (.revoke "seat-8"), turn 0, turn 1,
    turn 0, turn 1, turn 0, turn 1, turn 0]

/-- Each gets what it asked for. -/
theorem isolated_crossing : ∃ o, twoTenants.run crossing = some o ∧
    o.accounts.subscriptions.keys = ["sub-1"] ∧ o.accounts.made < numbers ∧
      ∃ d, o.operations[0]? = some d ∧ Isolated twoTenants.accounts (boss "7") (.assign " ann")
        (twoTenants.visits 0 crossing) d := by
  have hrun : (twoTenants.run crossing).any (fun o ↦
      o.accounts.subscriptions.keys = ["sub-1"] ∧ o.accounts.made < numbers) = true := by decide
  obtain ⟨o, ho, hend⟩ := (Option.any_eq_true _ _).1 hrun
  obtain ⟨hkeys, hbound⟩ := of_decide_eq_true hend
  exact ⟨o, ho, hkeys, hbound, isolated_of_run twoTenants crossing o opening_twoTenants ho hbound 0
    (boss "7") (.assign " ann") rfl⟩

end Office

end Licensing.Seat
