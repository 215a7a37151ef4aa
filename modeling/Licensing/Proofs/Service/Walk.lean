import Licensing.Proofs.Seat.Course
import Licensing.Proofs.Seat.Paging
import Licensing.Proofs.Seat.Subscriptions
import Licensing.Proofs.Service.Links
import Mathlib.Algebra.Order.Floor.Div

/-!
# A walk shows every seat once

A caller that follows the links from the first page on comes to the pages in their order, and each
starts where the one before it ends. So the walk ends with the first page behind the last seat, and
shows every subscription once, in ascending order of the identifiers. Nothing on the way exceeds 64
bits unless there are more subscriptions than a machine can hold. The statement is
`complete_of_walk`.
-/

namespace Licensing.Service

open Seat (hasQuote)

variable {σ α : Type} {answer : σ → (c : SeatCall) → c.Answer × σ} {i : Identity} {a : Accounts}
  {q : SeatQuery} {s s' s'' : σ} {ps ps' : List SeatPage} {name : String} {limit k n : Nat}

/-! ### Walks -/

/-- A walk is determined by its start. -/
theorem Walk.unique (h : Walk answer i q s ps s') (h' : Walk answer i q s ps' s'') :
    ps' = ps ∧ s'' = s' := by
  induction h generalizing ps' s'' with
  | last hp hempty =>
    cases h' with
    | last hp' =>
      obtain ⟨⟨⟩, rfl⟩ := Prod.mk.inj (hp'.symm.trans hp)
      exact ⟨rfl, rfl⟩
    | next hp' hseats =>
      obtain ⟨⟨⟩, rfl⟩ := Prod.mk.inj (hp'.symm.trans hp)
      exact absurd hempty hseats
  | next hp hseats hq hwalk ih =>
    cases h' with
    | last hp' hempty =>
      obtain ⟨⟨⟩, rfl⟩ := Prod.mk.inj (hp'.symm.trans hp)
      exact absurd hempty hseats
    | next hp' hseats' hq' hwalk' =>
      obtain ⟨⟨⟩, rfl⟩ := Prod.mk.inj (hp'.symm.trans hp)
      obtain ⟨⟩ := hq'.symm.trans hq
      obtain ⟨rfl, rfl⟩ := ih hwalk'
      exact ⟨rfl, rfl⟩

/-! ### One page -/

/-- The accounts system answers, and the organization of a caller has a name there that can be
searched for. -/
structure CanList (a : Accounts) (i : Identity) (name : String) : Prop where
  /-- The accounts system does not fail. -/
  failure : a.failure = none
  /-- There is no quote in the organization. -/
  quoteless : hasQuote i.orgId = false
  /-- The organization has a name. -/
  named : a.convertOrg i.orgId = .ok name
  /-- There is no quote in the name. -/
  usable : hasQuote name = false

/-- The page of a walk with so many pages before it. -/
def pageAt (a : Accounts) (name : String) (limit k : Nat) : SeatPage :=
  Seat.page limit (k * limit) [] ((a.subscriptions.values.drop (k * limit)).take limit)
    (a.quotas.get? name)

/-- A log does not matter. -/
theorem CanList.withLog (h : CanList a i name) (l : AccountsLog) :
    CanList { a with log := l } i name :=
  ⟨h.failure, h.quoteless, h.named, h.usable⟩

theorem CanList.answer_eq (h : CanList a i name) (c : SeatCall) : a.answer c = a.serve c := by
  rcases Seat.answer_eq a c with hc | ⟨e, he, -⟩
  · exact hc
  · exact absurd (he.symm.trans h.failure) (by simp)

theorem exists_answer_subscriptions (h : CanList a i name) (q : SubscriptionQuery) :
    ∃ l, a.answer (.subscriptions q) = (.ok (a.page q), { a with log := l }) :=
  ⟨_, h.answer_eq _⟩

theorem exists_answer_quotaCost (h : CanList a i name) (org search : String) :
    ∃ l, a.answer (.quotaCost org search) = (.ok (a.quotas.get? org), { a with log := l }) :=
  ⟨_, h.answer_eq _⟩

/-- An offset between two pages is where a page of the accounts system starts. -/
theorem page_of_offset (hpos : 0 < limit) (hk : ((k * limit : Nat) : Int) ≤ Decimal.maxI64)
    (search : String) : a.page ⟨search, Paging.pageForOffset (k * limit) limit, limit⟩ =
      (a.subscriptions.values.drop (k * limit)).take limit := by
  have hle : k ≤ k * limit := Nat.le_mul_of_pos_right k hpos
  have hbound : k * limit + 1 ≤ Decimal.maxU64 := by
    rw [Decimal.maxI64] at hk
    rw [Decimal.maxU64]
    omega
  have hpage : Paging.pageForOffset (k * limit) limit = k + 1 := by
    have hfits : k * limit / limit < Decimal.maxU64 :=
      (Nat.div_le_self _ _).trans_lt (Nat.lt_of_succ_le hbound)
    rw [Paging.pageForOffset_of_lt hpos hfits, Nat.mul_div_cancel _ hpos]
  have hskip : Decimal.capU64 (k * limit) = k * limit := Nat.min_eq_left (by omega)
  rw [Accounts.page, hpage, Nat.add_sub_cancel, hskip]

theorem run_convertOrg (h : CanList a i name) :
    (Seat.convertOrg i).run Accounts.answer a = (.ok name, a) := by
  have hanswer : a.answer (.convertOrg i.orgId) = (.ok name, a) := by
    rw [h.answer_eq, Accounts.serve, h.named]
  rw [Seat.convertOrg, Dialogue.run_bind (Dialogue.run_require (by rw [h.quoteless]; rfl) _),
    Dialogue.run_bind (Dialogue.run_call hanswer),
    Dialogue.run_bind (Dialogue.run_require (by rw [h.usable]; rfl) _)]
  rfl

/-- **A page on the way.** Asking for it leaves notes in the log and nothing else. -/
theorem run_list (h : CanList a i name) (hpos : 0 < limit)
    (hk : ((k * limit : Nat) : Int) ≤ Decimal.maxI64) :
    ∃ l, (Seat.list i ⟨limit, (k * limit : Nat), []⟩).run Accounts.answer a =
      (.ok (pageAt a name limit k), { a with log := l }) := by
  have hpaging : Seat.validatePaging ⟨limit, (k * limit : Nat), []⟩ = .ok (limit, k * limit) := by
    rw [Seat.validatePaging, if_neg (by simp; omega), if_neg (Int.not_lt.2 (Int.natCast_nonneg _))]
    rfl
  obtain ⟨l₁, h₁⟩ := exists_answer_subscriptions h ⟨Seat.subscriptionSearch name [],
    Paging.pageForOffset (k * limit) limit, limit⟩
  obtain ⟨l₂, h₂⟩ := exists_answer_quotaCost (h.withLog l₁) name Seat.quotaSearch
  refine ⟨l₂, ?_⟩
  rw [page_of_offset hpos hk] at h₁
  rw [Seat.list, hpaging]
  refine (Dialogue.run_bind (Dialogue.run_require rfl _) _).trans ?_
  refine (Dialogue.run_bind (run_convertOrg h) _).trans ?_
  exact Dialogue.run_bind (Dialogue.run_both h₁ h₂) _

/-- The link to the next page asks for it. -/
theorem linkQuery_next (hlimit : (limit : Int) ≤ Decimal.maxI64)
    (hnext : (((k + 1) * limit : Nat) : Int) ≤ Decimal.maxI64) :
    linkQuery (pageAt a name limit k).links.next = .ok ⟨limit, ((k + 1) * limit : Nat), []⟩ := by
  have hcap : Decimal.capU64 (k * limit + limit) = (k + 1) * limit := by
    rw [Nat.succ_mul] at hnext ⊢
    rw [Decimal.maxI64] at hnext
    rw [Decimal.capU64, Decimal.maxU64]
    omega
  rw [← linkQuery_pageLink hlimit hnext (by simp), ← hcap]
  rfl

/-! ### All pages -/

/-- A page is empty when all seats are before it. -/
theorem seats_pageAt_eq_nil_iff (hpos : 0 < limit) :
    (pageAt a name limit k).seats = [] ↔ a.subscriptions.size ≤ k * limit := by
  rw [pageAt, Seat.page, List.map_eq_nil_iff, List.take_eq_nil_iff, List.drop_eq_nil_iff,
    OrderedMap.length_values]
  exact or_iff_right hpos.ne'

/-- A page behind which there are more seats is full. -/
theorem length_seats_pageAt (h : (k + 1) * limit ≤ a.subscriptions.size) :
    (pageAt a name limit k).seats.length = limit := by
  rw [Nat.succ_mul] at h
  rw [pageAt, Seat.page, List.length_map, List.length_take, List.length_drop,
    OrderedMap.length_values]
  omega

/-- What follows in pieces of one length is one piece. -/
theorem flatMap_range'_take_drop (l : List α) (limit k n : Nat) :
    (List.range' k n).flatMap (fun j ↦ (l.drop (j * limit)).take limit) =
      (l.drop (k * limit)).take (n * limit) := by
  induction n generalizing k with
  | zero => simp
  | succ n ih =>
    rw [List.range'_succ, List.flatMap_cons, ih, Nat.succ_mul n, Nat.add_comm (n * limit),
      List.take_add, List.drop_drop, Nat.succ_mul]

/-- **The walk.** From the page on behind `k` others it goes through all pages with seats, and ends
with the one behind them. -/
theorem exists_walk (hpos : 0 < limit) (hlimit : (limit : Int) ≤ Decimal.maxI64)
    (hsize : a.subscriptions.size < 0x4000000000000000) (h : CanList a i name)
    (hk : ((k * limit : Nat) : Int) ≤ Decimal.maxI64)
    (hmore : ∀ j < n, (k + j) * limit < a.subscriptions.size)
    (hall : a.subscriptions.size ≤ (k + n) * limit) :
    ∃ l, Walk Accounts.answer i ⟨limit, (k * limit : Nat), []⟩ a
      ((List.range' k (n + 1)).map (pageAt a name limit)) { a with log := l } := by
  induction n generalizing a k with
  | zero =>
    obtain ⟨l, hrun⟩ := run_list h hpos hk
    exact ⟨l, .last hrun ((seats_pageAt_eq_nil_iff hpos).2 hall)⟩
  | succ n ih =>
    obtain ⟨l, hrun⟩ := run_list h hpos hk
    have hseats : k * limit < a.subscriptions.size := hmore 0 (Nat.succ_pos n)
    -- With seats on this page, the next offset is no greater than what can be asked for.
    have hnext : (((k + 1) * limit : Nat) : Int) ≤ Decimal.maxI64 := by
      rw [Nat.succ_mul]
      rw [Decimal.maxI64] at hlimit ⊢
      rcases Nat.eq_zero_or_pos k with rfl | hkpos
      · omega
      · have hle : limit ≤ k * limit := Nat.le_mul_of_pos_left limit hkpos
        omega
    have hshift : ∀ j, k + 1 + j = k + (j + 1) := fun j ↦ by omega
    obtain ⟨l', hwalk⟩ := ih (a := { a with log := l }) (k := k + 1) hsize (h.withLog l) hnext
      (fun j hj ↦ by rw [hshift]; exact hmore (j + 1) (by omega)) (by rw [hshift]; exact hall)
    have hne : (pageAt a name limit k).seats ≠ [] := fun hnil ↦
      absurd ((seats_pageAt_eq_nil_iff hpos).1 hnil) (Nat.not_le.2 hseats)
    exact ⟨l', .next hrun hne (linkQuery_next hlimit hnext) hwalk⟩

/-- The pages of a walk show everything once. -/
structure Complete (a : Accounts) (limit : Nat) (ps : List SeatPage) : Prop where
  /-- Together they hold the seats of all subscriptions. -/
  seats_eq : ps.flatMap SeatPage.seats = a.subscriptions.values.map Seat.ofSubscription
  /-- The identifiers are those under which the subscriptions are held. Every accounts system holds
  them under their own, if it started so (`Accounts.filed_of_ofList`, `Accounts.Filed.after`). -/
  ids_eq : a.Filed → (ps.flatMap SeatPage.seats).map Seat.subscriptionId = a.subscriptions.keys
  /-- They ascend, so none is there twice. -/
  ascending : a.Filed → ((ps.flatMap SeatPage.seats).map Seat.subscriptionId).Pairwise (· < ·)
  /-- A page is full unless it is the last one or the one before. -/
  full : ∀ j p, ps[j]? = some p → j + 2 < ps.length → p.seats.length = limit
  /-- Every page tells how many seats it has. -/
  count_eq : ∀ p ∈ ps, p.count = p.seats.length
  /-- There is one page for every so many seats, and an empty one. -/
  length_eq : ps.length = a.subscriptions.size ⌈/⌉ limit + 1

theorem complete_map_pageAt (hpos : 0 < limit) :
    Complete a limit
      ((List.range' 0 (a.subscriptions.size ⌈/⌉ limit + 1)).map (pageAt a name limit)) := by
  have hpages : a.subscriptions.size ≤ limit * (a.subscriptions.size ⌈/⌉ limit) :=
    (ceilDiv_le_iff_le_mul hpos).1 le_rfl
  have hseats : ((List.range' 0 (a.subscriptions.size ⌈/⌉ limit + 1)).map
      (pageAt a name limit)).flatMap SeatPage.seats =
        a.subscriptions.values.map Seat.ofSubscription := by
    rw [List.flatMap_map]
    have hone : ∀ j, (pageAt a name limit j).seats =
        ((a.subscriptions.values.drop (j * limit)).take limit).map Seat.ofSubscription :=
      fun _ ↦ rfl
    simp only [hone]
    rw [← List.map_flatMap, flatMap_range'_take_drop, Nat.zero_mul, List.drop_zero,
      List.take_of_length_le]
    rw [OrderedMap.length_values, Nat.succ_mul, Nat.mul_comm]
    omega
  have hids : a.Filed → (a.subscriptions.values.map Seat.ofSubscription).map Seat.subscriptionId =
      a.subscriptions.keys := by
    intro hfiled
    rw [List.map_map]
    exact hfiled.ids_eq
  refine
    { seats_eq := hseats
      ids_eq := fun hfiled ↦ by rw [hseats, hids hfiled]
      ascending := fun hfiled ↦ by rw [hseats, hids hfiled]; exact a.subscriptions.keys_pairwise
      full := fun j p hp hj ↦ ?_
      count_eq := fun p hp ↦ ?_
      length_eq := by simp }
  · rw [List.length_map, List.length_range'] at hj
    rw [List.getElem?_map, List.getElem?_range' (by omega), Option.map_some, Nat.zero_add,
      Nat.one_mul] at hp
    obtain rfl := Option.some.inj hp
    have hmore : ¬ a.subscriptions.size ≤ limit * (j + 1) := by
      rw [← ceilDiv_le_iff_le_mul hpos]
      omega
    rw [Nat.mul_comm] at hmore
    exact length_seats_pageAt (Nat.le_of_not_le hmore)
  · obtain ⟨j, -, rfl⟩ := List.mem_map.1 hp
    rfl

/-- **A walk shows every seat once.** For every accounts system in memory that does not fail, with
fewer than 2⁶² subscriptions, every caller whose organization can be searched for, and every limit
that can be asked for, the walk from the first page ends, no question is refused on the way, and its
pages show everything once. -/
theorem complete_of_walk (a : Accounts) (i : Identity) (name : String) (limit : Nat)
    (h : CanList a i name) (hsize : a.subscriptions.size < 0x4000000000000000) (hpos : 1 ≤ limit)
    (hlimit : (limit : Int) ≤ Decimal.maxI64) :
    ∃ ps l, Walk Accounts.answer i ⟨limit, 0, []⟩ a ps { a with log := l } ∧ Complete a limit ps ∧
      ∀ ps' a', Walk Accounts.answer i ⟨limit, 0, []⟩ a ps' a' → ps' = ps := by
  have hall : a.subscriptions.size ≤ (0 + a.subscriptions.size ⌈/⌉ limit) * limit := by
    rw [Nat.zero_add, Nat.mul_comm]
    exact (ceilDiv_le_iff_le_mul hpos).1 le_rfl
  have hmore : ∀ j < a.subscriptions.size ⌈/⌉ limit, (0 + j) * limit < a.subscriptions.size := by
    intro j hj
    rw [Nat.zero_add, Nat.mul_comm]
    exact Nat.lt_of_not_le fun hle ↦ absurd ((ceilDiv_le_iff_le_mul hpos).2 hle) (Nat.not_le.2 hj)
  obtain ⟨l, hwalk⟩ := exists_walk hpos hlimit hsize h (by simp [Decimal.maxI64]) hmore hall
  rw [Nat.zero_mul] at hwalk
  exact ⟨_, l, hwalk, complete_map_pageAt hpos, fun ps' a' hw ↦ (hwalk.unique hw).1⟩

/-- Three seats of one organization. -/
def threeSeats : Accounts :=
  let seat (id : String) : Subscription := ⟨id, some "AMSORG7", "Active", none⟩
  let seats := [seat "sub-2", seat "sub-1", seat "sub-3"]
  { (default : Accounts) with subscriptions := .ofList (seats.map fun s ↦ (s.id, s)) }

/-- Somebody of the organization. -/
def member : Identity :=
  { (default : Identity) with orgId := "7" }

theorem complete_threeSeats : ∃ ps l,
    Walk Accounts.answer member ⟨2, 0, []⟩ threeSeats ps { threeSeats with log := l } ∧
      ps.length = 3 ∧ (ps.flatMap SeatPage.seats).map Seat.subscriptionId =
        ["sub-1", "sub-2", "sub-3"] := by
  have hlist : CanList threeSeats member "AMSORG7" :=
    ⟨by decide, by decide, by decide, by decide⟩
  have hfiled : threeSeats.Filed := Accounts.filed_of_ofList rfl
  obtain ⟨ps, l, hwalk, hcomplete, -⟩ := complete_of_walk threeSeats member "AMSORG7" 2 hlist
    (by decide) (by decide) (by decide)
  refine ⟨ps, l, hwalk, ?_, ?_⟩
  · rw [hcomplete.length_eq]
    decide
  · rw [hcomplete.ids_eq hfiled]
    decide

end Licensing.Service
