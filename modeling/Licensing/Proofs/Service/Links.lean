import Licensing.Proofs.Form
import Licensing.Proofs.Text.Decimal
import Licensing.Proofs.Url.Query
import Licensing.Service.Walk

/-!
# What links to pages ask

The query of a link to a page is the form of its limit, its offset and its statuses, and nothing of
them is lost: who follows the link asks for that page (`linkQuery_pageLink`), as long as the numbers
are not too great for a question and no status is blank.

Statuses come from callers and can be any texts. None of them can say anything in a link but that it
is a status (`unforged`).
-/

namespace Licensing

/-- The links to pages. -/
def Paging.Links.all (l : Paging.Links) : List String :=
  [l.first, l.previous, l.next]

namespace Service

open Paging (pageLink pageQuery seatsPath)

variable {limit offset n : Nat} {statuses : List String}

/-- A link is the path of the seats and a query. -/
theorem splitTarget_pageLink (limit offset : Nat) (statuses : List String) :
    splitTarget (pageLink limit offset statuses) =
      (seatsPath, some (Form.encode (pageQuery limit offset statuses))) := by
  have hpath : '#' ∉ seatsPath.toList ∧ '?' ∉ seatsPath.toList := by decide
  have hchars : (pageLink limit offset statuses).toList =
      seatsPath.toList ++ '?' :: (Form.encode (pageQuery limit offset statuses)).toList := by
    simp [pageLink]
  have hhash : '#' ∉ (pageLink limit offset statuses).toList := by
    rw [hchars, List.mem_append, List.mem_cons]
    rintro (hmem | heq | hmem)
    · exact hpath.1 hmem
    · exact absurd heq (by decide)
    · exact Form.hash_not_mem_encode _ hmem
  rw [splitTarget, Text.cut_of_not_mem hhash, hchars]
  simp only [Text.cut_append hpath.2, Option.map_some, String.ofList_toList]

theorem integer_toString (name : String) (h : (n : Int) ≤ Decimal.maxI64) :
    integer name (toString n) = .ok (n : Int) := by
  rw [integer, Decimal.trim_toString, Decimal.readInt?_toString h]

theorem integer_toString_of_lt (name : String) (h : Decimal.maxI64 < (n : Int)) :
    integer name (toString n) = .error (name ++ " must be an integer") := by
  rw [integer, Decimal.trim_toString, Decimal.readInt?_toString_of_lt h]

theorem foldlM_addSeatPair_cons {p : String × String} {ps : List (String × String)}
    {q q' : SeatQuery} (h : addSeatPair q p = .ok q') :
    (p :: ps).foldlM addSeatPair q = ps.foldlM addSeatPair q' := by
  rw [List.foldlM_cons, h]
  rfl

/-- Statuses that are not blank are all asked for. -/
theorem foldlM_addSeatPair_status (h : ∀ s ∈ statuses, Text.isBlank s = false) (q : SeatQuery) :
    (statuses.map (("status", ·))).foldlM addSeatPair q =
      .ok { q with statuses := q.statuses ++ statuses } := by
  induction statuses generalizing q with
  | nil => simp [pure, Except.pure]
  | cons s statuses ih =>
    have hs : addSeatPair q ("status", s) = .ok { q with statuses := q.statuses ++ [s] } := by
      simp [addSeatPair, h s List.mem_cons_self]
    rw [List.map_cons, foldlM_addSeatPair_cons hs, ih fun s hs ↦ h s (List.mem_cons_of_mem _ hs),
      List.append_assoc, List.singleton_append]

/-- The limit of a link is read first. -/
theorem linkQuery_pageLink_eq (hlimit : (limit : Int) ≤ Decimal.maxI64) (offset : Nat)
    (statuses : List String) : linkQuery (pageLink limit offset statuses) =
      (("offset", toString offset) :: statuses.map (("status", ·))).foldlM addSeatPair
        { firstSeats with limit := limit } := by
  have hfirst : addSeatPair firstSeats ("limit", toString limit) =
      .ok { firstSeats with limit := limit } := by
    rw [addSeatPair, if_pos rfl, integer_toString _ hlimit]
    rfl
  rw [linkQuery, splitTarget_pageLink, seatQuery, queryPairs, Option.map_some, Option.getD_some,
    Form.decode_encode, pageQuery, List.cons_append, List.cons_append, List.nil_append,
    foldlM_addSeatPair_cons hfirst]

theorem addSeatPair_offset (q : SeatQuery) (value : String) : addSeatPair q ("offset", value) =
    (integer "offset" value).map fun n ↦ { q with offset := n } := by
  have hname : ("offset" : String) ≠ "limit" := by decide
  rw [addSeatPair, if_neg hname, if_pos rfl]

/-- **Who follows a link to a page asks for that page.** The escapes of the link are undone by the
reader of the query, so no status can add a parameter or end one. -/
theorem linkQuery_pageLink (hlimit : (limit : Int) ≤ Decimal.maxI64)
    (hoffset : (offset : Int) ≤ Decimal.maxI64)
    (hstatuses : ∀ s ∈ statuses, Text.isBlank s = false) :
    linkQuery (pageLink limit offset statuses) = .ok ⟨limit, offset, statuses⟩ := by
  have hsecond : ∀ q, addSeatPair q ("offset", toString offset) =
      .ok { q with offset := offset } := by
    intro q
    rw [addSeatPair_offset, integer_toString _ hoffset]
    rfl
  rw [linkQuery_pageLink_eq hlimit, foldlM_addSeatPair_cons (hsecond _),
    foldlM_addSeatPair_status hstatuses]
  rfl

/-- An offset that is too great is refused. -/
theorem linkQuery_pageLink_of_lt (hlimit : (limit : Int) ≤ Decimal.maxI64)
    (hoffset : Decimal.maxI64 < (offset : Int)) (statuses : List String) :
    linkQuery (pageLink limit offset statuses) = .error "offset must be an integer" := by
  rw [linkQuery_pageLink_eq hlimit, List.foldlM_cons, addSeatPair_offset,
    integer_toString_of_lt _ hoffset]
  rfl

/-! ### What a link says -/

/-- A link says which page it is to, and its query says nothing else. -/
def Says (link : String) (limit offset : Nat) (statuses : List String) : Prop :=
  ∃ q, link = seatsPath ++ "?" ++ q ∧ (splitTarget link).2 = some q ∧ Url.PlainQuery q ∧
    Form.decode q = ("limit", toString limit) :: ("offset", toString offset) ::
      statuses.map (("status", ·))

theorem says_pageLink (limit offset : Nat) (statuses : List String) :
    Says (pageLink limit offset statuses) limit offset statuses :=
  ⟨_, rfl, by rw [splitTarget_pageLink], Url.plainQuery_encode _, Form.decode_encode _⟩

/-- A link says only one thing. -/
theorem Says.eq {link : String} {limit' offset' : Nat} {statuses' : List String}
    (h : Says link limit offset statuses) (h' : Says link limit' offset' statuses') :
    limit = limit' ∧ offset = offset' ∧ statuses = statuses' := by
  obtain ⟨q, -, hq, -, hpairs⟩ := h
  obtain ⟨q', -, hq', -, hpairs'⟩ := h'
  obtain rfl : q = q' := Option.some.inj (hq.symm.trans hq')
  rw [hpairs] at hpairs'
  obtain ⟨hlimit, hrest⟩ := List.cons.inj hpairs'
  obtain ⟨hoffset, hstatuses⟩ := List.cons.inj hrest
  exact ⟨Decimal.toString_inj.1 (Prod.mk.inj hlimit).2,
    Decimal.toString_inj.1 (Prod.mk.inj hoffset).2,
    (List.map_inj_right fun _ _ heq ↦ (Prod.mk.inj heq).2).1 hstatuses⟩

theorem exists_says_of_mem_links {link : String}
    (h : link ∈ (Paging.links limit offset statuses).all) :
    ∃ offset', Says link limit offset' statuses := by
  simp only [Paging.Links.all, Paging.links, List.mem_cons, List.not_mem_nil, or_false] at h
  rcases h with rfl | rfl | rfl <;> exact ⟨_, says_pageLink _ _ _⟩

/-- What the links of a page say, whatever the statuses are. -/
structure Unforged (limit offset : Nat) (statuses : List String) : Prop where
  /-- The first link says the offset of the first page. -/
  first : Says (Paging.links limit offset statuses).first limit 0 statuses
  /-- The link to the page before says an offset that is less by the limit, or zero. -/
  previous : Says (Paging.links limit offset statuses).previous limit (offset - limit) statuses
  /-- The link to the page behind says an offset that is greater by the limit, or the greatest. -/
  next : Says (Paging.links limit offset statuses).next limit
    (min (offset + limit) Decimal.maxU64) statuses
  /-- No link is shared with a page of another limit or of other statuses. -/
  apart : ∀ limit' offset' statuses', limit ≠ limit' ∨ statuses ≠ statuses' →
    ∀ link ∈ (Paging.links limit offset statuses).all,
      link ∉ (Paging.links limit' offset' statuses').all

/-- **A status says nothing but that it is a status.** Whatever characters are in the statuses, the
query of each link needs no escaping, and it is read as the limit, the offset of the link and the
statuses, in this order and without anything else. -/
theorem unforged (limit offset : Nat) (statuses : List String) :
    Unforged limit offset statuses where
  first := says_pageLink _ _ _
  previous := says_pageLink _ _ _
  next := says_pageLink _ _ _
  apart limit' offset' statuses' hne link hlink hlink' := by
    obtain ⟨at₁, h⟩ := exists_says_of_mem_links hlink
    obtain ⟨at₂, h'⟩ := exists_says_of_mem_links hlink'
    obtain ⟨hlimit, -, hstatuses⟩ := h.eq h'
    rcases hne with hne | hne
    · exact hne hlimit
    · exact hne hstatuses

example : (Paging.links 10 5 ["a b&limit=1", ""]).first =
    "/api/entitlements/v1/seats?limit=10&offset=0&status=a+b%26limit%3D1&status=" := by decide

end Service

end Licensing
