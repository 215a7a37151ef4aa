import Licensing.Proofs.Client.Noting
import Licensing.Proofs.Seat.Assignment
import Licensing.Proofs.Seat.Revocation
import Licensing.Proofs.Seat.Search
import Licensing.Proofs.Url.Path

/-!
# What gets into a search expression

Search expressions are built from values as they are, so what gets into one has to be screened
before. The courses of a listing are given in `Listing`. What the seat operations have in common is
`Screened`: every search that is sent is read as the comparisons it is meant to be, of values
without quotes, by what was answered before it was sent. It does not matter for this whether the
search is answered: a listing sends two searches at once, and may be done with one of them, or be
given up, while the other one is in flight. `screens` says this for whatever the services answer in
whichever order, together with how each operation turns a quote away.
-/

namespace Licensing

/-- The search expression in a question. -/
@[simp] def SeatCall.search? : SeatCall → Option String
  | .quotaCost _ search => some search
  | .subscriptions query => some query.search
  | _ => none

namespace Seat

open Dialogue (Both Course)
open Client (AccountsClient Network)

/-! ### The courses of a listing -/

section Courses

variable {i : Identity} {q : SeatQuery} {es : List Exchange} {o : Except SeatError SeatPage}

/-- The question for the subscriptions behind a page of seats. -/
def pageQuery (org : String) (statuses : List String) (limit offset : Nat) : SubscriptionQuery :=
  ⟨subscriptionSearch org statuses, Paging.pageForOffset offset limit, limit⟩

/-- How the listing of seats can go. -/
inductive Listing (i : Identity) (q : SeatQuery) :
    List Exchange → Except SeatError SeatPage → Prop where
  /-- There is no such page. -/
  | unpaged {m : String} (hp : validatePaging q = .error (.badRequest m)) :
    Listing i q [] (.error (.badRequest m))
  /-- A status has a quote. -/
  | quoted {limit offset : Nat} (hp : validatePaging q = .ok (limit, offset))
    (hs : q.statuses.any hasQuote = true) :
    Listing i q [] (.error (.badRequest "status filter must not contain quotes"))
  /-- There is no telling which organization the caller's is. -/
  | unnamed (hs : q.statuses.any hasQuote = false) {es : List Exchange} {e : SeatError}
    (hc : Conversion i es (.error e)) : Listing i q es (.error e)
  /-- There is no telling what its subscriptions are, or what its quota is. -/
  | unknown (hs : q.statuses.any hasQuote = false) {limit offset : Nat} {org : String}
    (hc : Conversion i [⟨.convertOrg i.orgId, .ok org⟩] (.ok org)) {xs : List Exchange}
    {e : RemoteError} (hxs : Both (.subscriptions (pageQuery org q.statuses limit offset))
      (.quotaCost org quotaSearch) xs (.error e)) :
    Listing i q (⟨.convertOrg i.orgId, .ok org⟩ :: xs) (.error (.remote e))
  /-- The page is made. -/
  | listed (hs : q.statuses.any hasQuote = false) {limit offset : Nat} {org : String}
    (hc : Conversion i [⟨.convertOrg i.orgId, .ok org⟩] (.ok org)) {xs : List Exchange}
    {subscriptions : List Subscription} {quota : Option Quota}
    (hxs : Both (.subscriptions (pageQuery org q.statuses limit offset))
      (.quotaCost org quotaSearch) xs (.ok (subscriptions, quota))) :
    Listing i q (⟨.convertOrg i.orgId, .ok org⟩ :: xs)
      (.ok (page limit offset q.statuses subscriptions quota))

theorem exists_badRequest_of_validatePaging {e : SeatError} (h : validatePaging q = .error e) :
    ∃ m, e = .badRequest m := by
  rw [validatePaging] at h
  split at h
  · exact ⟨_, (Except.error.inj h).symm⟩
  split at h
  · exact ⟨_, (Except.error.inj h).symm⟩
  · cases h

/-- **The courses of a listing** are those that are listed, whichever search is answered first. -/
theorem listing_of_course (h : Course (list i q) es o) : Listing i q es o := by
  rw [list] at h
  split at h
  · rename_i e hp
    obtain ⟨m, rfl⟩ := exists_badRequest_of_validatePaging hp
    cases h with
    | fail => exact .unpaged hp
  rename_i limit offset hp
  rcases Dialogue.course_require_bind h with ⟨hs, rfl, rfl⟩ | ⟨hs, hconvert⟩
  · exact .quoted hp (by simpa using hs)
  have hs : q.statuses.any hasQuote = false := by simpa using hs
  rcases course_convertOrg_bind hconvert with ⟨e, hc, rfl⟩ | ⟨org, es, hc, rfl, hboth⟩
  · exact .unnamed hs hc
  rcases Dialogue.course_both_bind hboth with
    ⟨e, hxs, rfl⟩ | ⟨subscriptions, quota, xs, es, hxs, rfl, hdone⟩
  · exact .unknown hs hc hxs
  · cases hdone with
    | done =>
      rw [List.append_nil]
      exact .listed hs hc hxs

theorem Listing.remote_iff (h : Listing i q es o) (e : RemoteError) :
    o = .error (.remote e) ↔ e ∈ failures es := by
  cases h with
  | unnamed hs hc => cases hc <;> simp [eq_comm]
  | unknown hs hc hxs | listed hs hc hxs => simp [hxs.failures_eq, eq_comm]
  | _ => simp

end Courses

/-! ### What is sent -/

section Sent

variable {i : Identity} {statuses : List String} {es : List Exchange} {x : SeatCall}

/-- The accounts system told one name for the caller's organization, and it can be used. -/
def Usable (es : List Exchange) (i : Identity) (org : String) : Prop :=
  hasQuote org = false ∧ ∀ org', Named es i org' ↔ org' = org

/-- Once it has these answers, a caller may send this question. -/
inductive Clean (i : Identity) (statuses : List String) (es : List Exchange) : SeatCall → Prop where
  /-- A question that asks neither for a name nor with a search. -/
  | plain {x : SeatCall} (hsearch : x.search? = none) (hname : ∀ org, x ≠ .convertOrg org) :
    Clean i statuses es x
  /-- The question for the name of the caller's organization. -/
  | name (hq : hasQuote i.orgId = false) : Clean i statuses es (.convertOrg i.orgId)
  /-- A search for the subscriptions of the organization of this name. -/
  | subscriptions (hq : hasQuote i.orgId = false) {org : String} (ho : Usable es i org)
    (hs : statuses.any hasQuote = false) (limit offset : Nat) :
    Clean i statuses es (.subscriptions (pageQuery org statuses limit offset))
  /-- A search for its quota. -/
  | quota (hq : hasQuote i.orgId = false) {org : String} (ho : Usable es i org) :
    Clean i statuses es (.quotaCost org quotaSearch)

/-- A name that was told as the only one, among answers that are no names. -/
theorem Conversion.usable {org : String}
    (hc : Conversion i [⟨.convertOrg i.orgId, .ok org⟩] (.ok org))
    (hnamed : ∀ org', Named es i org' ↔ org' = org) :
    hasQuote i.orgId = false ∧ Usable es i org := by
  cases hc with
  | converted hq ho => exact ⟨hq, ho, hnamed⟩

/-- It is so when nothing else is told. -/
theorem Conversion.usable_self {org : String}
    (hc : Conversion i [⟨.convertOrg i.orgId, .ok org⟩] (.ok org)) :
    hasQuote i.orgId = false ∧ Usable [⟨.convertOrg i.orgId, .ok org⟩] i org :=
  hc.usable (by simp [Named])

/-- Nothing is sent before the page is known to be one, the organization has a name, and the
statuses have no quote; then both searches are. -/
theorem clean_of_list {q : SeatQuery} (h : (list i q).Sends es x) : Clean i q.statuses es x := by
  rw [list] at h
  split at h
  · cases h
  obtain ⟨hs, hconvert⟩ := Dialogue.sends_require_bind h
  have hs : q.statuses.any hasQuote = false := by simpa using hs
  rcases sends_convertOrg_bind hconvert with ⟨hq, rfl, rfl⟩ | ⟨org, es, hc, rfl, hboth⟩
  · exact .name hq
  rcases Dialogue.sends_both_bind hboth with ⟨rfl, hx⟩ | ⟨_, _, xs, es, hxs, rfl, hdone⟩
  · obtain ⟨hq, ho⟩ := hc.usable_self
    rcases hx with rfl | rfl
    · exact .subscriptions hq ho hs _ _
    · exact .quota hq ho
  · cases hdone

theorem not_sends_granted (username : String) (a : Authorization) :
    ¬(granted i username a).Sends es x := by
  intro h
  rw [granted] at h
  split at h
  · split at h <;> cases h
  · split at h <;> cases h

/-- An assignment searches for a quota only, behind the question for the user. -/
theorem clean_of_assign {account : String} (h : (assign i account).Sends es x) :
    Clean i [] es x := by
  obtain ⟨-, hnamed⟩ := Dialogue.sends_require_bind h
  obtain ⟨-, hcall⟩ := Dialogue.sends_require_bind hnamed
  rcases Dialogue.sends_call_bind hcall with ⟨rfl, rfl⟩ | ⟨user, es, rfl, hcheck⟩
  · exact .plain rfl (by simp)
  obtain ⟨-, hconvert⟩ := Dialogue.sends_require_bind hcheck
  rcases sends_convertOrg_bind hconvert with ⟨hq, rfl, rfl⟩ | ⟨org, es, hc, rfl, hquota⟩
  · exact .name hq
  rcases Dialogue.sends_call_bind hquota with ⟨rfl, rfl⟩ | ⟨quota, es, rfl, hauthorize⟩
  · have hnamed : ∀ org', Named
        [⟨.user (Text.trim account), .ok user⟩, ⟨.convertOrg i.orgId, .ok org⟩] i org' ↔
          org' = org := by simp [Named]
    obtain ⟨hq, ho⟩ := hc.usable hnamed
    exact .quota hq ho
  rcases Dialogue.sends_call_bind hauthorize with ⟨rfl, rfl⟩ | ⟨answer, es, rfl, hgranted⟩
  · exact .plain rfl (by simp)
  · exact absurd hgranted (not_sends_granted _ _)

/-- A revocation searches for nothing. -/
theorem clean_of_revoke {id : String} (h : (revoke i id).Sends es x) : Clean i [] es x := by
  obtain ⟨-, hcall⟩ := Dialogue.sends_require_bind h
  rcases Dialogue.sends_call_bind hcall with ⟨rfl, rfl⟩ | ⟨subscription, es, rfl, hrest⟩
  · exact .plain rfl (by simp)
  split at hrest
  · cases hrest
  rcases sends_convertOrg_bind hrest with ⟨hq, rfl, rfl⟩ | ⟨org, es, hc, rfl, hcheck⟩
  · exact .name hq
  obtain ⟨-, hdelete⟩ := Dialogue.sends_require_bind hcheck
  obtain ⟨rfl, rfl⟩ := Dialogue.sends_call hdelete
  exact .plain rfl (by simp)

end Sent

/-! ### What is true of it -/

section Screened

variable {α β : Type} {i i' : Identity} {statuses statuses' : List String} {es es' : List Exchange}
  {d : Dialogue α} {d' : Dialogue β}

/-- What is true of the questions that an operation sends, by what was answered before. -/
structure Screened (i : Identity) (statuses : List String) (d : Dialogue α) : Prop where
  /-- A search for subscriptions is read as the comparisons with the plan, the organization and
  the statuses. -/
  subscriptions : ∀ es query, d.Sends es (.subscriptions query) → ∃ org, Usable es i org ∧
    statuses.any hasQuote = false ∧ query.search = subscriptionSearch org statuses ∧
    Search.read query.search =
      (subscriptionOperators statuses.length, productId :: org :: statuses)
  /-- A search for a quota is read as the comparison with the pattern. -/
  quotas : ∀ es org search, d.Sends es (.quotaCost org search) → Usable es i org ∧
    Search.read search = (["quota_id LIKE ", ""], [quotaPattern])
  /-- The name of no organization is asked for but that of the caller's, if it has no quote. -/
  names : ∀ es org, d.Sends es (.convertOrg org) → org = i.orgId ∧ hasQuote org = false
  /-- Once the caller's organization was told to have a name with a quote, no search is sent. -/
  unusable : ∀ es x org, d.Sends es x → Named es i org → hasQuote org = true → x.search? = none
  /-- Nor was one sent before, and it is the accounts system that is to blame. -/
  blamed : ∀ es o org, Course d es o → Named es i org → hasQuote org = true →
    o = .error (.internal ("accounts system returned an unusable org id for " ++ i.orgId)) ∧
    ∀ es' x, es' <+: es → d.Sends es' x → x.search? = none
  /-- If the caller's organization has a quote, neither a search is sent nor its name asked for. -/
  quoted : hasQuote i.orgId = true → ∀ es x, d.Sends es x →
    x.search? = none ∧ ∀ org, x ≠ .convertOrg org
  /-- Nor does the operation end well. -/
  unended : hasQuote i.orgId = true → ∀ es a, ¬Course d es (.ok a)

/-- Who has only a name that can be used has none with a quote. -/
theorem Usable.not_named {org org' : String} (h : Usable es i org) (hquote : hasQuote org' = true) :
    ¬Named es i org' := by
  intro hnamed
  obtain rfl := (h.2 org').1 hnamed
  exact absurd (hquote.symm.trans h.1) (by decide)

/-- Without a name that can be used, no search is sent. -/
theorem Clean.search?_eq_none {x : SeatCall} (h : Clean i statuses es x)
    (hunusable : ∀ org, ¬Usable es i org) : x.search? = none := by
  cases h with
  | plain hsearch => exact hsearch
  | name => rfl
  | subscriptions _ ho | quota _ ho => exact absurd ho (hunusable _)

/-- The outcome when the caller's organization was told to have a name with a quote, which is the
only name that was told. -/
def Blamed (i : Identity) (org : String) (es : List Exchange) (o : Except SeatError α) : Prop :=
  o = .error (.internal ("accounts system returned an unusable org id for " ++ i.orgId)) ∧
    ∀ org', Named es i org' → org' = org

/-- What is sent as it may be, in an operation that tells who is to blame, is screened. -/
theorem screened_of_clean (hclean : ∀ es x, d.Sends es x → Clean i statuses es x)
    (hblamed : ∀ es o org, Course d es o → Named es i org → hasQuote org = true →
      Blamed i org es o)
    (hended : hasQuote i.orgId = true → ∀ es a, ¬Course d es (.ok a)) : Screened i statuses d where
  subscriptions es query h := by
    cases hclean es _ h with
    | plain hsearch => cases hsearch
    | @subscriptions _ org ho hs limit offset =>
      exact ⟨org, ho, hs, rfl, read_subscriptionSearch ho.1 hs⟩
  quotas es org search h := by
    cases hclean es _ h with
    | plain hsearch => cases hsearch
    | quota _ ho => exact ⟨ho, read_quotaSearch⟩
  names es org h := by
    cases hclean es _ h with
    | plain _ hname => exact absurd rfl (hname org)
    | name hq => exact ⟨rfl, hq⟩
  unusable es x org h hnamed hquote :=
    (hclean es x h).search?_eq_none fun _ ho ↦ ho.not_named hquote hnamed
  blamed es o org h hnamed hquote := by
    obtain ⟨rfl, honly⟩ := hblamed es o org h hnamed hquote
    refine ⟨rfl, fun es' x hearlier hx ↦ (hclean es' x hx).search?_eq_none fun org' ho ↦ ?_⟩
    -- A name that was told before is the one that is told in the end.
    obtain rfl := honly org' (hearlier.subset ((ho.2 org').2 rfl))
    exact absurd (hquote.symm.trans ho.1) (by decide)
  quoted hquote es x h := by
    cases hclean es x h with
    | plain hsearch hname => exact ⟨hsearch, hname⟩
    | name hq | subscriptions hq | quota hq => exact absurd (hquote.symm.trans hq) (by decide)
  unended := hended

/-- A name with a quote ends the question for it, by an error of the accounts system. -/
theorem Conversion.blamed {e : SeatError} {org : String} (h : Conversion i es (.error e))
    (hnamed : Named es i org) : Blamed i org es (.error e : Except SeatError α) := by
  cases h with
  | quoted | failed => simp [Named] at hnamed
  | unusable hq ho =>
    obtain rfl : org = _ := by simpa [Named] using hnamed
    exact ⟨rfl, by simp [Named]⟩

/-- So it does behind a question for something else, which tells no name. -/
theorem Conversion.blamed_cons {x : Exchange} {e : SeatError} {org : String}
    (h : Conversion i es (.error e)) (hx : x.call ≠ .convertOrg i.orgId)
    (hnamed : Named (x :: es) i org) :
    Blamed i org (x :: es) (.error e : Except SeatError α) := by
  have htold : ∀ org', Named (x :: es) i org' → Named es i org' := by
    intro org' hmem
    refine (List.mem_cons.1 hmem).resolve_left ?_
    rintro rfl
    exact hx rfl
  obtain ⟨heq, honly⟩ := h.blamed (α := α) (htold org hnamed)
  exact ⟨heq, fun org' hmem ↦ honly org' (htold org' hmem)⟩

/-- Who was told a name that can be used, and no other, was told none with a quote. -/
theorem Conversion.not_named {org org' : String}
    (hc : Conversion i [⟨.convertOrg i.orgId, .ok org⟩] (.ok org))
    (hnamed : ∀ org', Named es i org' ↔ org' = org) (hquote : hasQuote org' = true) :
    ¬Named es i org' :=
  (hc.usable hnamed).2.not_named hquote

/-- No name is told with the answers to two searches. -/
theorem named_append_of_both {c c' : SeatCall} {xs : List Exchange}
    {r : Except RemoteError (c.Reply × c'.Reply)} (h : Both c c' xs r)
    (hc : c ≠ .convertOrg i.orgId) (hc' : c' ≠ .convertOrg i.orgId) (org : String) :
    Named (es ++ xs) i org ↔ Named es i org := by
  refine ⟨fun hmem ↦ ?_, fun hmem ↦ List.mem_append_left xs hmem⟩
  rcases List.mem_append.1 hmem with hmem | hmem
  · exact hmem
  · rcases h.call_eq _ hmem with hcall | hcall
    · exact absurd hcall.symm hc
    · exact absurd hcall.symm hc'

theorem Listing.blamed {q : SeatQuery} {o : Except SeatError SeatPage} {org : String}
    (h : Listing i q es o) (hnamed : Named es i org) (hquote : hasQuote org = true) :
    Blamed i org es o := by
  cases h with
  | unpaged | quoted => simp [Named] at hnamed
  | unnamed hs hc => exact hc.blamed hnamed
  | @unknown hs _ _ org' hc xs _ hxs | @listed hs _ _ org' hc xs _ _ hxs =>
    refine absurd ?_ (hc.usable_self.2.not_named hquote)
    exact (named_append_of_both hxs (by simp) (by simp) org).1 hnamed

theorem Assignment.blamed {username : String} {o : Except SeatError AssignedSeat} {org : String}
    (h : Assignment i username es o) (hnamed : Named es i org) (hquote : hasQuote org = true) :
    Blamed i org es o := by
  cases h with
  | unnamed ha hu huser hc => exact hc.blamed_cons (by simp) hnamed
  | uncounted ha hu huser hc | unanswered ha hu huser hc | answered ha hu huser hc =>
    exact absurd hnamed (hc.not_named (by simp [Named]) hquote)
  | _ => simp [Named] at hnamed

theorem Revocation.blamed {id : String} {o : Except SeatError Unit} {org : String}
    (h : Revocation i id es o) (hnamed : Named es i org) (hquote : hasQuote org = true) :
    Blamed i org es o := by
  cases h with
  | unnamed ha hs hg hc => exact hc.blamed_cons (by simp) hnamed
  | foreign ha hs hg hc | kept ha hs hg hc | revoked ha hs hg hc =>
    exact absurd hnamed (hc.not_named (by simp [Named]) hquote)
  | _ => simp [Named] at hnamed

/-- **Different organizations or statuses are searched for differently.** The search tells the
organization and the statuses, as it is read as the comparisons with them. -/
theorem Screened.eq_of_search_eq (h : Screened i statuses d) (h' : Screened i' statuses' d')
    {query query' : SubscriptionQuery} (hx : d.Sends es (.subscriptions query))
    (hx' : d'.Sends es' (.subscriptions query')) (heq : query.search = query'.search) :
    ∃ org, Usable es i org ∧ Usable es' i' org ∧ statuses = statuses' := by
  obtain ⟨org, husable, hs, hsearch, -⟩ := h.subscriptions es query hx
  obtain ⟨org', husable', hs', hsearch', -⟩ := h'.subscriptions es' query' hx'
  have htexts : subscriptionSearch org statuses = subscriptionSearch org' statuses' := by
    rw [← hsearch, heq, hsearch']
  obtain ⟨rfl, hstatuses⟩ := subscriptionSearch_inj husable.1 hs husable'.1 hs' htexts
  exact ⟨org, husable, husable', hstatuses⟩

end Screened

/-! ### How a quote is turned away -/

section Refusals

variable {i : Identity} {es : List Exchange}

/-- A listing with a quote ends with nothing answered. -/
theorem Listing.refusal {q : SeatQuery} {o : Except SeatError SeatPage} (h : Listing i q es o)
    (hq : q.statuses.any hasQuote = true ∨ hasQuote i.orgId = true) :
    es = [] ∧ ∃ m, o = .error (.badRequest m) := by
  cases h with
  | unpaged | quoted => exact ⟨rfl, _, rfl⟩
  | unnamed hs hc => cases hc <;> simp_all
  | unknown hs hc | listed hs hc => cases hc; simp_all

/-- An assignment by a caller whose organization has a quote does not end well. -/
theorem Assignment.refusal {username : String} {o : Except SeatError AssignedSeat}
    (h : Assignment i username es o) (hq : hasQuote i.orgId = true) :
    (∀ a, o ≠ .ok a) ∧
      (Member es i username → o = .error (.badRequest "org id must not contain quotes")) := by
  cases h with
  | unnamed ha hu huser hc => cases hc <;> simp_all
  | uncounted ha hu huser hc | unanswered ha hu huser hc | answered ha hu huser hc =>
    cases hc; simp_all
  | _ => simp_all [Member]

/-- Neither does a revocation. -/
theorem Revocation.refusal {id : String} {o : Except SeatError Unit}
    (h : Revocation i id es o) (hq : hasQuote i.orgId = true) :
    (∀ a, o ≠ .ok a) ∧ ((∃ g, Belongs es id g) →
      o = .error (.badRequest "org id must not contain quotes")) := by
  cases h with
  | unnamed ha hs hg hc => cases hc <;> simp_all
  | foreign ha hs hg hc | kept ha hs hg hc | revoked ha hs hg hc => cases hc; simp_all
  | _ => simp_all [Belongs]

/-- Behind the question for the name of an organization with a quote nothing is sent. -/
theorem not_sends_convertOrg_bind {β : Type} {f : String → Dialogue β} {x : SeatCall}
    (hq : hasQuote i.orgId = true) : ¬(convertOrg i >>= f).Sends es x := by
  intro h
  rcases sends_convertOrg_bind h with ⟨hclean, -⟩ | ⟨org, es', hc, -⟩
  · exact absurd (hq.symm.trans hclean) (by decide)
  · cases hc with
    | converted hclean => exact absurd (hq.symm.trans hclean) (by decide)

/-- A listing with a quote sends nothing. -/
theorem not_sends_list {q : SeatQuery} {x : SeatCall}
    (hq : q.statuses.any hasQuote = true ∨ hasQuote i.orgId = true) :
    ¬(list i q).Sends es x := by
  intro h
  rw [list] at h
  split at h
  · cases h
  obtain ⟨hs, hconvert⟩ := Dialogue.sends_require_bind h
  rcases hq with hq | hq
  · simp [hq] at hs
  · exact not_sends_convertOrg_bind hq hconvert

/-- An assignment by a caller whose organization has a quote sends only the question for the
user. -/
theorem eq_user_of_sends_assign {account : String} {x : SeatCall} (hq : hasQuote i.orgId = true)
    (h : (assign i account).Sends es x) : x = .user (Text.trim account) := by
  obtain ⟨-, hnamed⟩ := Dialogue.sends_require_bind h
  obtain ⟨-, hcall⟩ := Dialogue.sends_require_bind hnamed
  rcases Dialogue.sends_call_bind hcall with ⟨-, rfl⟩ | ⟨user, es, rfl, hcheck⟩
  · rfl
  · obtain ⟨-, hconvert⟩ := Dialogue.sends_require_bind hcheck
    exact absurd hconvert (not_sends_convertOrg_bind hq)

/-- A revocation by such a caller sends only the question for the subscription. -/
theorem eq_subscription_of_sends_revoke {id : String} {x : SeatCall}
    (hq : hasQuote i.orgId = true) (h : (revoke i id).Sends es x) : x = .subscription id := by
  obtain ⟨-, hcall⟩ := Dialogue.sends_require_bind h
  rcases Dialogue.sends_call_bind hcall with ⟨-, rfl⟩ | ⟨subscription, es, rfl, hrest⟩
  · rfl
  split at hrest
  · cases hrest
  · exact absurd hrest (not_sends_convertOrg_bind hq)

end Refusals

theorem screened_list (i : Identity) (q : SeatQuery) : Screened i q.statuses (list i q) :=
  screened_of_clean (fun _ _ h ↦ clean_of_list h)
    (fun _ _ _ h hnamed hquote ↦ (listing_of_course h).blamed hnamed hquote)
    fun hq _ a h ↦ by
      obtain ⟨-, m, hm⟩ := (listing_of_course h).refusal (.inr hq)
      cases hm

theorem screened_assign (i : Identity) (account : String) : Screened i [] (assign i account) :=
  screened_of_clean (fun _ _ h ↦ clean_of_assign h)
    (fun _ _ _ h hnamed hquote ↦ (assignment_of_course h).blamed hnamed hquote)
    fun hq _ a h ↦ ((assignment_of_course h).refusal hq).1 a rfl

theorem screened_revoke (i : Identity) (id : String) : Screened i [] (revoke i id) :=
  screened_of_clean (fun _ _ h ↦ clean_of_revoke h)
    (fun _ _ _ h hnamed hquote ↦ (revocation_of_course h).blamed hnamed hquote)
    fun hq _ a h ↦ ((revocation_of_course h).refusal hq).1 a rfl

/-! ### What is searched for -/

section Searches

variable {i : Identity} {org : String}

/-- With the name of the organization, both searches of a listing are sent at once. -/
theorem sends_list {q : SeatQuery} {limit offset : Nat}
    (hp : validatePaging q = .ok (limit, offset)) (hs : q.statuses.any hasQuote = false)
    (hq : hasQuote i.orgId = false) (ho : hasQuote org = false) :
    (list i q).Sends [⟨.convertOrg i.orgId, .ok org⟩]
        (.subscriptions (pageQuery org q.statuses limit offset)) ∧
      (list i q).Sends [⟨.convertOrg i.orgId, .ok org⟩] (.quotaCost org quotaSearch) := by
  rw [list, hp]
  have hscreened : Course (Dialogue.require (!q.statuses.any hasQuote)
      (.badRequest "status filter must not contain quotes")) [] (.ok ()) :=
    Dialogue.course_require (by simpa using hs) _
  have hname := course_convertOrg hq ho
  exact ⟨hscreened.sends_bind (hname.sends_bind (Dialogue.Sends.first.bind _)),
    hscreened.sends_bind (hname.sends_bind (Dialogue.Sends.second.bind _))⟩

/-- With the name of the organization, an assignment to one of its users searches for the quota. -/
theorem sends_assign {account : String} {user : DirectoryUser} (ha : i.orgAdmin = true)
    (hu : Text.trim account ≠ "") (huser : user.orgId = i.orgId) (hq : hasQuote i.orgId = false)
    (ho : hasQuote org = false) : (assign i account).Sends
      [⟨.user (Text.trim account), .ok user⟩, ⟨.convertOrg i.orgId, .ok org⟩]
      (.quotaCost org quotaSearch) := by
  have hadmin : Course (requireAdmin i) [] (.ok ()) := Dialogue.course_require ha _
  have hnamed : Course (Dialogue.require (Text.trim account ≠ "")
      (.badRequest "account_username is required")) [] (.ok ()) :=
    Dialogue.course_require (decide_eq_true hu) _
  have hmember : Course (Dialogue.require (user.orgId = i.orgId) (.forbidden
      ("user '" ++ Text.trim account ++ "' does not belong to organization " ++ i.orgId)))
      [] (.ok ()) :=
    Dialogue.course_require (decide_eq_true huser) _
  exact hadmin.sends_bind <| hnamed.sends_bind <|
    (Dialogue.course_call_ok (.user (Text.trim account)) user).sends_bind <|
    hmember.sends_bind <| (course_convertOrg hq ho).sends_bind .ask

end Searches

/-- The name of an organization with a quote is not asked for: nothing is sent, not even for a
token. -/
theorem ask_convertOrg_of_quote {τ : Type} (network : Network τ) (c : AccountsClient) (t : τ)
    {org : String} (h : hasQuote org = true) : c.ask network t (.convertOrg org) =
      (.error (.client AccountsClient.service 400 "org id must not contain quotes"), c, t) := by
  have hrefused : AccountsClient.refused? (.convertOrg org) =
      some (.client AccountsClient.service 400 "org id must not contain quotes") := if_pos h
  rw [AccountsClient.ask, hrefused]

/-- Without a quote in it the name is asked for: the request goes out, behind nothing but requests
for tokens. -/
theorem ask_convertOrg_noting {τ : Type} (network : Network τ) (c : AccountsClient)
    (log : List Client.Request) (t : τ) {org : String} (h : hasQuote org = false) :
    ∃ tokens, (c.ask network.noting (log, t) (.convertOrg org)).2.2.1 =
        log ++ tokens ++ c.outgoing network t (c.request (.convertOrg org)) ∧
      ∀ r ∈ tokens, AccountsClient.IsTokenRequest c r := by
  have hasked : AccountsClient.refused? (.convertOrg org) = none :=
    if_neg (by simpa [hasQuote] using h)
  obtain ⟨tokens, hask, htokens⟩ := AccountsClient.ask_noting hasked network c log t
  exact ⟨tokens, by rw [hask], htokens⟩

/-- Without credentials the request for a name goes out as it is, to a web service. -/
theorem outgoing_convertOrg {τ : Type} {c : AccountsClient} (hc : c.credentials = none)
    (hweb : c.host.scheme = "http" ∨ c.host.scheme = "https") (network : Network τ) (t : τ)
    (org : String) :
    c.outgoing network t (c.request (.convertOrg org)) = [c.request (.convertOrg org)] := by
  have hscheme : (c.request (.convertOrg org)).url.scheme = c.host.scheme := by
    rw [AccountsClient.request, AccountsClient.endpoint, Url.scheme_extendQuery,
      Url.scheme_extendPath]
  have hflaw : (c.request (.convertOrg org)).flaw? = none := by
    rwa [Client.Request.flaw?_eq_none_iff rfl, hscheme]
  rw [AccountsClient.outgoing_of_no_credentials hc, Client.Request.sent, if_pos hflaw]

/-- The request for the name of an organization carries the search behind what the address of the
accounts system carries. -/
theorem exists_search_request (c : AccountsClient) {org : String} (h : hasQuote org = false) :
    ∃ query search, (c.request (.convertOrg org)).url.query = some query ∧
      Form.decode query = (c.host.query.map Form.decode).getD [] ++ [("search", search)] ∧
      Search.read search = (["external_id=", ""], [org]) := by
  obtain ⟨query, hquery, hdecode⟩ := Url.exists_query_extendQuery
    (c.host.extendPath (["api", "accounts_mgmt", "v1"] ++ ["organizations"]))
    (List.cons_ne_nil ("search", AccountsClient.orgSearch org) [])
  have hhost : (c.host.extendPath (["api", "accounts_mgmt", "v1"] ++ ["organizations"])).query
      = c.host.query := Url.query_extendPath _ _
  rw [hhost] at hdecode
  exact ⟨query, _, hquery, hdecode, AccountsClient.read_orgSearch (not_mem_of_hasQuote h)⟩

/-! ### Whatever the services answer -/

/-- What is true of searches. -/
structure Screens (i : Identity) : Prop where
  /-- A listing sends only searches that are read as they are meant. -/
  listing : ∀ q, Screened i q.statuses (list i q)
  /-- So does an assignment. -/
  assignment : ∀ account, Screened i [] (assign i account)
  /-- So does a revocation. -/
  revocation : ∀ id, Screened i [] (revoke i id)
  /-- What is answered was sent before, in whichever order the answers come. -/
  answered : ∀ (α : Type) (d : Dialogue α) es o, Course d es o →
    ∀ x ∈ es, ∃ es', es' <+: es ∧ d.Sends es' x.call
  /-- Whatever the services are, the conversation with them is one that can be. -/
  services : ∀ (α σ : Type) (d : Dialogue α) (answer : σ → (c : SeatCall) → c.Answer × σ) (s : σ),
    Course d (d.transcript answer s) (d.run answer s).1
  /-- A listing without a quote sends both of its searches as soon as it has the name of the
  organization: neither waits for the answer to the other. -/
  listing_searches : ∀ q limit offset org, validatePaging q = .ok (limit, offset) →
    q.statuses.any hasQuote = false → hasQuote i.orgId = false → hasQuote org = false →
    (list i q).Sends [⟨.convertOrg i.orgId, .ok org⟩]
        (.subscriptions (pageQuery org q.statuses limit offset)) ∧
      (list i q).Sends [⟨.convertOrg i.orgId, .ok org⟩] (.quotaCost org quotaSearch)
  /-- An assignment to a user of the organization sends its search for the quota. -/
  assignment_searches : ∀ account (user : DirectoryUser) org, i.orgAdmin = true →
    Text.trim account ≠ "" → user.orgId = i.orgId → hasQuote i.orgId = false →
    hasQuote org = false → (assign i account).Sends
      [⟨.user (Text.trim account), .ok user⟩, ⟨.convertOrg i.orgId, .ok org⟩]
      (.quotaCost org quotaSearch)
  /-- Two listings, by whomever, that send the same search for subscriptions do so for the same
  organization and the same statuses. -/
  distinct : ∀ (i' : Identity) (q q' : SeatQuery) es es' query query',
    (list i q).Sends es (.subscriptions query) → (list i' q').Sends es' (.subscriptions query') →
    query.search = query'.search →
    ∃ org, Usable es i org ∧ Usable es' i' org ∧ q.statuses = q'.statuses
  /-- A listing with a quote in a status or in the caller's organization sends nothing. -/
  listing_refusal : ∀ q, q.statuses.any hasQuote = true ∨ hasQuote i.orgId = true →
    (∀ es x, ¬(list i q).Sends es x) ∧
      ∀ es o, Course (list i q) es o → es = [] ∧ ∃ m, o = .error (.badRequest m)
  /-- An assignment by a caller whose organization has a quote sends only the question for the
  user. -/
  assignment_refusal : hasQuote i.orgId = true → ∀ account,
    (∀ es x, (assign i account).Sends es x → x = .user (Text.trim account)) ∧
      ∀ es o, Course (assign i account) es o → Member es i (Text.trim account) →
        o = .error (.badRequest "org id must not contain quotes")
  /-- A revocation by such a caller sends only the question for the subscription. -/
  revocation_refusal : hasQuote i.orgId = true → ∀ id,
    (∀ es x, (revoke i id).Sends es x → x = .subscription id) ∧
      ∀ es o, Course (revoke i id) es o → (∃ g, Belongs es id g) →
        o = .error (.badRequest "org id must not contain quotes")
  /-- The client does not ask for the name of an organization with a quote. -/
  client_refusal : ∀ (τ : Type) (network : Network τ) (c : AccountsClient) (t : τ) org,
    hasQuote org = true → c.ask network t (.convertOrg org) =
      (.error (.client AccountsClient.service 400 "org id must not contain quotes"), c, t)
  /-- The request by which it asks for the others carries a search that is read as it is meant. -/
  client_request : ∀ (c : AccountsClient) org, hasQuote org = false →
    ∃ query search, (c.request (.convertOrg org)).url.query = some query ∧
      Form.decode query = (c.host.query.map Form.decode).getD [] ++ [("search", search)] ∧
      Search.read search = (["external_id=", ""], [org])
  /-- It sends this request as it goes out, behind nothing but requests for tokens. -/
  client_sends : ∀ (τ : Type) (network : Network τ) (c : AccountsClient) log (t : τ) org,
    hasQuote org = false → ∃ tokens, (c.ask network.noting (log, t) (.convertOrg org)).2.2.1 =
        log ++ tokens ++ c.outgoing network t (c.request (.convertOrg org)) ∧
      ∀ r ∈ tokens, AccountsClient.IsTokenRequest c r
  /-- What goes out carries the same search, and there is no good answer if nothing does. -/
  client_outgoing : ∀ (τ : Type) (network : Network τ) (c : AccountsClient) (t : τ) org,
    (∀ r ∈ c.outgoing network t (c.request (.convertOrg org)),
        r.url = (c.request (.convertOrg org)).url) ∧
      ∀ name, (c.ask network t (.convertOrg org)).1 = .ok name →
        c.outgoing network t (c.request (.convertOrg org)) ≠ []
  /-- Without credentials the request goes out as it is, if the accounts system is a web service. -/
  client_plain : ∀ (τ : Type) (network : Network τ) (c : AccountsClient) (t : τ) org,
    c.credentials = none → c.host.scheme = "http" ∨ c.host.scheme = "https" →
      c.outgoing network t (c.request (.convertOrg org)) = [c.request (.convertOrg org)]

/-- **Nothing can be put into a search but values.** Whoever asks for what, and whatever the
services answer in whichever order, the operators of every search that is sent are fixed by the
number of statuses, and the values in it are the plan, the organization and the statuses as they
are. What has a quote is refused before it is used. -/
theorem screens (i : Identity) : Screens i where
  listing := screened_list i
  assignment := screened_assign i
  revocation := screened_revoke i
  answered _ _ _ _ h := h.exists_sends
  services _ _ d answer s := Dialogue.course_transcript answer d s
  listing_searches _ _ _ _ hp hs hq ho := sends_list hp hs hq ho
  assignment_searches _ _ _ ha hu huser hq ho := sends_assign ha hu huser hq ho
  distinct i' q q' _ _ _ _ hx hx' heq :=
    (screened_list i q).eq_of_search_eq (screened_list i' q') hx hx' heq
  listing_refusal _ hq :=
    ⟨fun _ _ ↦ not_sends_list hq, fun _ _ h ↦ (listing_of_course h).refusal hq⟩
  assignment_refusal hq _ :=
    ⟨fun _ _ ↦ eq_user_of_sends_assign hq, fun _ _ h ↦ ((assignment_of_course h).refusal hq).2⟩
  revocation_refusal hq _ :=
    ⟨fun _ _ ↦ eq_subscription_of_sends_revoke hq,
      fun _ _ h ↦ ((revocation_of_course h).refusal hq).2⟩
  client_refusal _ network c t _ hq := ask_convertOrg_of_quote network c t hq
  client_request c _ hq := exists_search_request c hq
  client_sends _ network c log t _ hq := ask_convertOrg_noting network c log t hq
  client_outgoing _ _ _ _ _ :=
    ⟨fun _ hr ↦ AccountsClient.url_eq_of_mem_outgoing hr,
      fun _ hname ↦ AccountsClient.outgoing_ne_nil_of_ask hname⟩
  client_plain _ network _ t org hc hweb := outgoing_convertOrg hc hweb network t org

end Seat

end Licensing
