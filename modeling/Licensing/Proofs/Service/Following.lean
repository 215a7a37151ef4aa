import Licensing.Proofs.Service.Walk

/-!
# Following the links of a page

A question for seats that was read has numbers that can be written and read again, and no blank
status (`Askable`). So a link that is made of them is read as the question it was made for, and
whoever asks it is shown the page that starts where the link says (`LeadsTo`). This holds of the
links to the first page and to the page before without exception, and of the link to the page behind
unless its offset is greater than any that is read. That link is made all the same, and refused
(`followable_of_list`, `next_refused`).
-/

namespace Licensing.Service

open Dialogue (Course)
open Paging (Links links pageForOffset pageForOffset_of_lt pageLink)

variable {σ : Type} {answer : σ → (c : SeatCall) → c.Answer × σ} {i : Identity} {s s' : σ}
  {q q' : SeatQuery} {es : List Exchange} {limit offset : Nat} {statuses : List String}

/-! ### Questions that were read -/

/-- A question for seats that can be read from a query. -/
structure Askable (q : SeatQuery) : Prop where
  /-- The limit is an integer of 64 bits. -/
  limit_le : q.limit ≤ Decimal.maxI64
  /-- So is the offset. -/
  offset_le : q.offset ≤ Decimal.maxI64
  /-- No status is blank. -/
  statuses : ∀ status ∈ q.statuses, Text.isBlank status = false

theorem le_of_integer {name value : String} {n : Int} (h : integer name value = .ok n) :
    n ≤ Decimal.maxI64 := by
  rw [integer] at h
  split at h
  · rename_i m hm
    obtain rfl := Except.ok.inj h
    exact Decimal.le_of_readInt? hm
  · cases h

/-- What is read of one more pair can be asked. -/
theorem Askable.addSeatPair {p : String × String} (h : Askable q)
    (hp : addSeatPair q p = .ok q') : Askable q' := by
  obtain ⟨name, value⟩ := p
  rw [Service.addSeatPair] at hp
  split at hp
  · cases hn : integer "limit" value with
    | error m => rw [hn] at hp; cases hp
    | ok n =>
      rw [hn] at hp
      obtain rfl := Except.ok.inj hp
      exact { h with limit_le := le_of_integer hn }
  split at hp
  · cases hn : integer "offset" value with
    | error m => rw [hn] at hp; cases hp
    | ok n =>
      rw [hn] at hp
      obtain rfl := Except.ok.inj hp
      exact { h with offset_le := le_of_integer hn }
  split at hp
  · rename_i hstatus
    obtain rfl := Except.ok.inj hp
    rw [Bool.and_eq_true, Bool.not_eq_true'] at hstatus
    exact { h with
      statuses := List.forall_mem_append.2 ⟨h.statuses, List.forall_mem_singleton.2 hstatus.2⟩ }
  · obtain rfl := Except.ok.inj hp
    exact h

theorem askable_firstSeats : Askable firstSeats where
  limit_le := by decide
  offset_le := by decide
  statuses := by simp [firstSeats]

theorem Askable.foldlM {ps : List (String × String)} (h : Askable q)
    (hps : ps.foldlM Service.addSeatPair q = .ok q') : Askable q' := by
  induction ps generalizing q with
  | nil =>
    obtain rfl := Except.ok.inj hps
    exact h
  | cons p ps ih =>
    obtain ⟨next, hp, hrest⟩ := Url.exists_of_bind_eq_ok hps
    exact ih (h.addSeatPair hp) hrest

theorem askable_of_seatQuery {query : Option String} (h : seatQuery query = .ok q) : Askable q :=
  askable_firstSeats.foldlM h

/-! ### The page that is asked for -/

/-- The page of subscriptions in a question. -/
@[simp] def page? : SeatCall → Option Nat
  | .subscriptions query => some query.page
  | _ => none

/-- The pages of subscriptions that were asked for. -/
def pages (es : List Exchange) : List Nat :=
  es.filterMap fun x ↦ page? x.call

theorem pages_of_conversion {o : Except SeatError String} (h : Seat.Conversion i es o) :
    pages es = [] := by
  cases h <;> rfl

/-- The page of the first of two questions at once is asked for, unless the second one fails
before. -/
theorem pages_of_both {c c' : SeatCall} {r : Except RemoteError (c.Reply × c'.Reply)} {page : Nat}
    (h : Dialogue.Both c c' es r) (hc : page? c = some page) (hc' : page? c' = none) :
    (pages es = [] ∧ ∃ e, r = .error e) ∨ pages es = [page] := by
  cases h <;> simp [pages, hc, hc', -page?]

/-- A listing asks for the page that holds the offset, or fails before it is answered. -/
theorem pages_of_course {o : Except SeatError SeatPage}
    (hp : Seat.validatePaging q = .ok (limit, offset)) (h : Course (Seat.list i q) es o) :
    (pages es = [] ∧ ∃ e, o = .error e) ∨
      (pages es = [pageForOffset offset limit] ∧
        ∀ p, o = .ok p → p.links = links limit offset q.statuses) := by
  rw [Seat.list, hp] at h
  rcases Dialogue.course_require_bind h with ⟨-, rfl, rfl⟩ | ⟨-, hconvert⟩
  · exact .inl ⟨rfl, _, rfl⟩
  rcases Seat.course_convertOrg_bind hconvert with ⟨e, hc, rfl⟩ | ⟨org, es, -, rfl, hboth⟩
  · exact .inl ⟨pages_of_conversion hc, _, rfl⟩
  rcases Dialogue.course_both_bind hboth with ⟨e, hxs, rfl⟩ | ⟨_, _, xs, es, hxs, rfl, hdone⟩
  · rcases pages_of_both hxs rfl rfl with ⟨hnone, -⟩ | hpage
    · exact .inl ⟨hnone, _, rfl⟩
    · exact .inr ⟨hpage, by simp⟩
  · cases hdone with
    | done =>
      rw [List.append_nil]
      rcases pages_of_both hxs rfl rfl with ⟨-, e, he⟩ | hpage
      · cases he
      · exact .inr ⟨hpage, fun p hp ↦ by obtain rfl := Except.ok.inj hp; rfl⟩

/-! ### Where links lead -/

/-- A link is read as a question, and whoever asks it, of whatever services, asks for a page. -/
structure LeadsTo (link : String) (q : SeatQuery) (page : Nat) : Prop where
  /-- The query of the link is read. -/
  query : linkQuery link = .ok q
  /-- The limit and the offset are accepted. -/
  paging : Seat.validatePaging q = .ok (q.limit.toNat, q.offset.toNat)
  /-- The accounts system is asked for the page, unless the listing fails before. -/
  pages : ∀ (τ : Type) (answer : τ → (c : SeatCall) → c.Answer × τ) i s,
    pages ((Seat.list i q).transcript answer s) = [page] ∨
      (pages ((Seat.list i q).transcript answer s) = [] ∧
        ∃ e, ((Seat.list i q).run answer s).1 = .error e)

theorem validatePaging_natCast (hpos : 0 < limit) (offset : Nat) (statuses : List String) :
    Seat.validatePaging ⟨limit, offset, statuses⟩ = .ok (limit, offset) := by
  have hlimit : ¬ ((limit : Int) ≤ 0) := by omega
  rw [Seat.validatePaging, if_neg hlimit, if_neg (Int.not_lt.2 (Int.natCast_nonneg offset))]
  rfl

/-- A link leads to the page that holds its offset. -/
theorem leadsTo_pageLink (hpos : 0 < limit) (hlimit : (limit : Int) ≤ Decimal.maxI64)
    (hoffset : (offset : Int) ≤ Decimal.maxI64)
    (hstatuses : ∀ s ∈ statuses, Text.isBlank s = false) :
    LeadsTo (pageLink limit offset statuses) ⟨limit, offset, statuses⟩ (offset / limit + 1) where
  query := linkQuery_pageLink hlimit hoffset hstatuses
  paging := validatePaging_natCast hpos offset statuses
  pages _ answer i s := by
    have hpage : offset < Decimal.maxU64 := by
      rw [Decimal.maxI64] at hoffset
      rw [Decimal.maxU64]
      omega
    rcases pages_of_course (validatePaging_natCast hpos offset statuses)
      (Dialogue.course_transcript answer (Seat.list i _) s) with hfail | ⟨hpages, -⟩
    · exact .inr hfail
    · have hfits := (Nat.div_le_self offset limit).trans_lt hpage
      exact .inl (hpages.trans (by rw [pageForOffset_of_lt hpos hfits]))

/-- Where the links of a page lead that was asked for by a question. -/
structure Followable (q : SeatQuery) (page : Nat) (l : Links) : Prop where
  /-- The first link leads to the first page. -/
  first : LeadsTo l.first { q with offset := 0 } 1
  /-- The link to the page before leads there, or to the first page if there is none. -/
  previous : LeadsTo l.previous { q with offset := max 0 (q.offset - q.limit) }
    (if q.offset < q.limit then 1 else page - 1)
  /-- The link to the page behind leads there if its offset can be asked for. -/
  next : q.offset + q.limit ≤ Decimal.maxI64 →
    LeadsTo l.next { q with offset := q.offset + q.limit } (page + 1)
  /-- If not, the link is refused. -/
  beyond : Decimal.maxI64 < q.offset + q.limit →
    linkQuery l.next = .error "offset must be an integer"

theorem followable_links (hpos : 0 < limit) (h : Askable ⟨limit, offset, statuses⟩) :
    Followable ⟨limit, offset, statuses⟩ (offset / limit + 1) (links limit offset statuses) := by
  obtain ⟨hlimit, hoffset, hstatuses⟩ := h
  have hlimit : (limit : Int) ≤ Decimal.maxI64 := hlimit
  have hoffset : (offset : Int) ≤ Decimal.maxI64 := hoffset
  -- Neither number is so great that their sum would be cut off.
  have hcap : Decimal.capU64 (offset + limit) = offset + limit := by
    rw [Decimal.maxI64] at hlimit hoffset
    rw [Decimal.capU64, Decimal.maxU64]
    omega
  refine ⟨?_, ?_, fun hnext ↦ ?_, fun hbeyond ↦ ?_⟩
  · have hzero : ((0 : Nat) : Int) ≤ Decimal.maxI64 := by decide
    have hfirst := leadsTo_pageLink hpos hlimit hzero hstatuses
    rwa [Nat.zero_div] at hfirst
  · have hle : ((offset - limit : Nat) : Int) ≤ Decimal.maxI64 := by omega
    have hprevious := leadsTo_pageLink hpos hlimit hle hstatuses
    have hcast : max 0 ((offset : Int) - limit) = ((offset - limit : Nat) : Int) := by omega
    have hpage : (if (offset : Int) < limit then 1 else offset / limit + 1 - 1) =
        (offset - limit) / limit + 1 := by
      split
      · rw [Nat.sub_eq_zero_of_le (by omega), Nat.zero_div]
      · rw [Nat.add_sub_cancel]
        exact Nat.div_eq_sub_div hpos (by omega)
    rw [hcast, hpage]
    exact hprevious
  · have hnext : ((offset + limit : Nat) : Int) ≤ Decimal.maxI64 := by
      push_cast
      exact hnext
    have hlink := leadsTo_pageLink hpos hlimit hnext hstatuses
    rw [Nat.add_div_right _ hpos] at hlink
    rw [links, hcap]
    exact hlink
  · rw [links, hcap]
    refine linkQuery_pageLink_of_lt hlimit ?_ statuses
    push_cast
    exact hbeyond

theorem exists_of_validatePaging (h : Seat.validatePaging q = .ok (limit, offset)) :
    q = ⟨limit, offset, q.statuses⟩ ∧ 0 < limit := by
  obtain ⟨l, o, statuses⟩ := q
  rw [Seat.validatePaging] at h
  split at h
  · cases h
  split at h
  · cases h
  · obtain ⟨rfl, rfl⟩ := Prod.mk.inj (Except.ok.inj h)
    refine ⟨?_, by omega⟩
    rw [Int.toNat_of_nonneg (by omega), Int.toNat_of_nonneg (by omega)]

/-- **The links of a page can be followed**, whatever the services are. Only the link to the page
behind cannot if its offset exceeds the integers that are read. -/
theorem followable_of_list (answer : σ → (c : SeatCall) → c.Answer × σ) (i : Identity) (s s' : σ)
    (query : Option String) (q : SeatQuery) (p : SeatPage) (hq : seatQuery query = .ok q)
    (hp : (Seat.list i q).run answer s = (.ok p, s')) :
    ∃ page, pages ((Seat.list i q).transcript answer s) = [page] ∧ Followable q page p.links := by
  have hcourse := Dialogue.course_transcript answer (Seat.list i q) s
  rw [hp] at hcourse
  cases hpaging : Seat.validatePaging q with
  | error e =>
    rw [Seat.list, hpaging] at hcourse
    cases hcourse
  | ok bounds =>
    obtain ⟨limit, offset⟩ := bounds
    obtain ⟨hfields, hpos⟩ := exists_of_validatePaging hpaging
    rcases pages_of_course hpaging hcourse with ⟨-, e, he⟩ | ⟨hpages, hlinks⟩
    · cases he
    refine ⟨_, hpages, ?_⟩
    have hask := askable_of_seatQuery hq
    have hoffset : offset < Decimal.maxU64 := by
      have hle : (offset : Int) ≤ Decimal.maxI64 := by
        have := hask.offset_le
        rwa [hfields] at this
      rw [Decimal.maxI64] at hle
      rw [Decimal.maxU64]
      omega
    have hfits := (Nat.div_le_self offset limit).trans_lt hoffset
    rw [hlinks p rfl, pageForOffset_of_lt hpos hfits]
    rw [hfields] at hask ⊢
    exact followable_links hpos hask

/-- A listing that shows a page. -/
theorem exists_page_of_run {α : Type} {f : SeatPage → α} {x : α}
    (h : ((Seat.list i q).run answer s).1.toOption.map f = some x) :
    ∃ p s', (Seat.list i q).run answer s = (.ok p, s') ∧ f p = x := by
  rcases hrun : (Seat.list i q).run answer s with ⟨_ | p, s'⟩ <;> rw [hrun] at h
  · cases h
  · exact ⟨p, s', rfl, Option.some.inj h⟩

/-- Somebody who asks for two seats of some statuses after the third can go on in both
directions. -/
theorem followable_threeSeats : ∃ q p s',
    seatQuery (some "offset=3&limit=2&status=Past+Due&status=&status=Active") = .ok q ∧
      (Seat.list member q).run Accounts.answer threeSeats = (.ok p, s') ∧
      q = ⟨2, 3, ["Past Due", "Active"]⟩ ∧ Followable q 2 p.links := by
  have hq : seatQuery (some "offset=3&limit=2&status=Past+Due&status=&status=Active") =
      .ok ⟨2, 3, ["Past Due", "Active"]⟩ := by decide
  have hasked : pages ((Seat.list member ⟨2, 3, ["Past Due", "Active"]⟩).transcript Accounts.answer
      threeSeats) = [2] := by decide
  have hcount : ((Seat.list member ⟨2, 3, ["Past Due", "Active"]⟩).run Accounts.answer
      threeSeats).1.toOption.map SeatPage.count = some 1 := by decide
  obtain ⟨p, s', hp, -⟩ := exists_page_of_run hcount
  obtain ⟨page, hpages, hlinks⟩ :=
    followable_of_list Accounts.answer member threeSeats s' _ _ p hq hp
  obtain rfl : page = 2 := by simpa [hasked] using hpages.symm
  exact ⟨_, p, s', hq, hp, rfl, hlinks⟩

/-- **A link that is made and refused.** The greatest offset that is read is answered with a link
to the page behind, and nobody can follow it. -/
theorem next_refused : ∃ q p s',
    seatQuery (some "limit=1&offset=9223372036854775807") = .ok q ∧
      (Seat.list member q).run Accounts.answer threeSeats = (.ok p, s') ∧
      p.links.next = "/api/entitlements/v1/seats?limit=1&offset=9223372036854775808" ∧
      linkQuery p.links.next = .error "offset must be an integer" := by
  have hq : seatQuery (some "limit=1&offset=9223372036854775807") =
      .ok ⟨1, 9223372036854775807, []⟩ := by decide
  have hnext : ((Seat.list member ⟨1, 9223372036854775807, []⟩).run Accounts.answer
      threeSeats).1.toOption.map (fun p ↦ p.links.next) =
        some "/api/entitlements/v1/seats?limit=1&offset=9223372036854775808" := by decide
  have hrefused : linkQuery "/api/entitlements/v1/seats?limit=1&offset=9223372036854775808" =
      .error "offset must be an integer" := by decide
  obtain ⟨p, s', hp, hlink⟩ := exists_page_of_run hnext
  exact ⟨_, p, s', hq, hp, hlink, hlink ▸ hrefused⟩

end Licensing.Service
