import Licensing.Proofs.Text.Percent
import Licensing.Proofs.Url.Query
import Mathlib.Data.List.Basic

/-!
# Segments of paths

No segment of a URL that was read holds a slash (`slashless_of_parse`). A text that is put
behind a path is one more segment, and is told by it (`decode_segment`), unless it holds tabs or
line breaks, which are dropped, or is one or two dots, which are left out (`Plain`). For any other
text there is no segment that tells it (`pushSegment_ne`).

The slash at the end of a path gives way to what is put behind it (`pathText_of_append`).
-/

namespace Licensing.Url

open Utf8 (Bytes)

variable {special : Bool} {ss : List String} {text : String}

/-! ### Segments that are read -/

/-- The pieces of a path hold no separator. -/
theorem slash_not_mem_of_splitPath {cs s : List Char} (h : s ∈ splitPath special cs) :
    '/' ∉ s := by
  induction cs generalizing s with
  | nil =>
    rw [splitPath, List.mem_singleton] at h
    rw [h]
    exact List.not_mem_nil
  | cons c cs ih =>
    rw [splitPath] at h
    split at h
    · rcases List.mem_cons.1 h with rfl | h
      · exact List.not_mem_nil
      · exact ih h
    · rename_i hc
      have hne : '/' ≠ c := by
        rintro rfl
        exact hc (by simp)
      split at h
      · rw [List.mem_singleton.1 h]
        exact fun hmem ↦ hne (List.mem_singleton.1 hmem)
      · rename_i s' ss hsplit
        rcases List.mem_cons.1 h with rfl | h
        · exact List.not_mem_cons_of_ne_of_not_mem hne (ih (hsplit ▸ List.mem_cons_self))
        · exact ih (hsplit ▸ List.mem_cons_of_mem _ h)

/-- What stands in a path as it is, is plain ASCII. -/
theorem ascii_of_escapedInPath {b : UInt8} (h : escapedInPath b = false) : b.toNat < 128 := by
  simp only [escapedInPath, escapedInFragment, Host.isControl, Bool.or_eq_false_iff,
    decide_eq_false_iff_not] at h
  omega

/-- The digits of an escape are no separator. -/
theorem hexDigit_ne_slash : ∀ n < 16, Percent.hexDigit n ≠ '/' := by
  decide

/-- Dots are resolved among the pieces of a path, which puts no separator into any of them. -/
theorem slash_not_mem_of_resolve {acc : List String} {pieces : List (List Char)}
    (hacc : ∀ s ∈ acc, '/' ∉ s.toList) (hpieces : ∀ p ∈ pieces, '/' ∉ p) :
    ∀ s ∈ resolve acc pieces, '/' ∉ s.toList := by
  induction pieces generalizing acc with
  | nil =>
    intro s hs
    rw [resolve] at hs
    exact hacc s (List.mem_reverse.1 hs)
  | cons p pieces ih =>
    obtain ⟨hp, hpieces⟩ := List.forall_mem_cons.1 hpieces
    have hempty : ∀ {acc : List String}, (∀ s ∈ acc, '/' ∉ s.toList) →
        ∀ s ∈ if pieces = [] then "" :: acc else acc, '/' ∉ s.toList := by
      intro acc hacc
      split
      · exact List.forall_mem_cons.2 ⟨by simp, hacc⟩
      · exact hacc
    simp only [resolve]
    split
    · exact ih (hempty fun s hs ↦ hacc s (List.mem_of_mem_drop hs)) hpieces
    split
    · exact ih (hempty hacc) hpieces
    · refine ih (List.forall_mem_cons.2 ⟨?_, hacc⟩) hpieces
      rw [String.toList_ofList]
      intro hslash
      exact hp (Percent.mem_of_mem_encode (fun _ ↦ ascii_of_escapedInPath) (by decide)
        hexDigit_ne_slash hslash).2

/-- The segments of a path hold no slash. -/
def Slashless (path : UrlPath) : Prop :=
  ∀ ss, path = .segments ss → ∀ s ∈ ss, '/' ∉ s.toList

/-- The segments of a path that is read hold no separator, whatever was written. -/
theorem slashless_readPath (special : Bool) (cs : List Char) : Slashless (readPath special cs) := by
  rintro ss hss
  cases cs with
  | nil =>
    obtain rfl := UrlPath.segments.inj hss
    split <;> simp
  | cons c cs =>
    obtain rfl := UrlPath.segments.inj hss
    exact slash_not_mem_of_resolve (by simp) fun p hp ↦ slash_not_mem_of_splitPath hp

/-- The segments of a URL with a host hold no separator. -/
theorem slashless_of_readWithAuthority {scheme : String} {cs : List Char} {u : Url}
    (h : readWithAuthority scheme cs = .ok u) : Slashless u.path := by
  obtain ⟨authority, -, h⟩ := exists_of_bind_eq_ok h
  obtain rfl := Except.ok.inj h
  exact slashless_readPath _ _

/-- Neither do those of a URL without a host. -/
theorem slashless_readWithoutAuthority (scheme : String) (cs : List Char) :
    Slashless (readWithoutAuthority scheme cs).path := by
  simp only [readWithoutAuthority]
  split
  · exact slashless_readPath _ _
  · exact fun _ hss ↦ nomatch hss

/-- Neither do those of the path of a file. -/
theorem slashless_of_readFile {cs : List Char} {u : Url} (h : readFile cs = .ok u) :
    Slashless u.path := by
  have hpath : ∀ tail, Slashless (readPath true (upTo (fun c ↦ c = '?' || c = '#') tail).1) :=
    fun _ ↦ slashless_readPath _ _
  match cs with
  | [] =>
    obtain rfl := Except.ok.inj h
    exact hpath []
  | [a] =>
    obtain rfl := Except.ok.inj h
    exact hpath [a]
  | a :: b :: cs =>
    simp only [readFile] at h
    split at h
    · split at h <;>
      · obtain ⟨host, -, h⟩ := exists_of_bind_eq_ok h
        obtain rfl := Except.ok.inj h
        exact hpath (upTo (endsAuthority true) cs).2
    · obtain rfl := Except.ok.inj h
      exact hpath (a :: b :: cs)

/-- **No segment of a URL that was read holds a slash.** -/
theorem slashless_of_parse {s : String} {u : Url} (h : parse s = .ok u) : Slashless u.path := by
  rw [parse] at h
  split at h
  · exact absurd h (by simp)
  split at h
  · exact slashless_of_readFile h
  split at h
  · exact slashless_of_readWithAuthority h
  split at h
  · exact slashless_of_readWithAuthority h
  · obtain rfl := Except.ok.inj h
    exact slashless_readWithoutAuthority _ _

/-! ### Segments that are put behind -/

/-- The segment that a text is written as. -/
def segment (special : Bool) (text : String) : String :=
  String.ofList (Percent.encode (escapedInSegment special) text.toList)

/-- A text that neither is one or two dots, nor holds tabs or line breaks. -/
def Plain (text : String) : Prop :=
  (∀ c ∈ text.toList, isDropped c = false) ∧ text.toList ≠ oneDot ∧ text.toList ≠ twoDots

-- The first part is decided along the text, and not over all characters.
instance (text : String) : Decidable (Plain text) :=
  @instDecidableAnd _ _ (List.decidableBAll _ _) inferInstance

/-- What stands in a segment as it is, is plain ASCII. -/
theorem ascii_of_escapedInSegment {b : UInt8} (h : escapedInSegment special b = false) :
    b.toNat < 128 := by
  simp only [escapedInSegment, Bool.or_eq_false_iff] at h
  exact ascii_of_escapedInPath h.1.1.1

/-- **A segment tells the text it was written from.** All that could be taken for something else in
a path is escaped, the percent sign included. -/
theorem decode_segment (special : Bool) (text : String) :
    Percent.decode (Utf8.encodeText (segment special text)) = Utf8.encodeText text := by
  rw [segment, Utf8.encodeText, String.toList_ofList]
  refine Percent.decode_encode (fun _ ↦ ascii_of_escapedInSegment) ?_ text.toList
  cases special <;> decide

/-- The separator is escaped in a segment. -/
theorem slash_not_mem_segment (special : Bool) (text : String) :
    '/' ∉ (segment special text).toList := by
  rw [segment, String.toList_ofList]
  intro hslash
  have hplain : escapedInSegment special (UInt8.ofNat '/'.toNat) = false :=
    (Percent.mem_of_mem_encode (fun _ ↦ ascii_of_escapedInSegment) (by decide) hexDigit_ne_slash
      hslash).1
  cases special <;> exact absurd hplain (by decide)

/-- A segment is put behind the others, unless there is only an empty one. -/
theorem putBehind_of_ne (h : ss ≠ [""]) (s : String) : putBehind ss s = ss ++ [s] :=
  if_neg h

/-- A text without dots or line breaks of its own is one segment more. -/
theorem pushSegment_of_plain (h : Plain text) :
    pushSegment special ss text = putBehind ss (segment special text) := by
  obtain ⟨hkept, hone, htwo⟩ := h
  have hall : text.toList.filter (!isDropped ·) = text.toList :=
    List.filter_eq_self.2 fun c hc ↦ by rw [hkept c hc]; rfl
  simp only [pushSegment, hall, hone, htwo, decide_false, Bool.or_false, Bool.false_eq_true,
    if_false, segment]

/-- **No segment tells any other text.** So two texts that are put into a path lead to the same
place only if they are the same. -/
theorem pushSegment_ne (hss : ss ≠ [""]) (hne : ss ≠ []) (h : ¬Plain text) {s : String}
    (hs : Percent.decode (Utf8.encodeText s) = Utf8.encodeText text) :
    pushSegment special ss text ≠ ss ++ [s] := by
  intro heq
  have hlength : (pushSegment special ss text).length = ss.length + 1 := by
    rw [heq, List.length_append, List.length_singleton]
  by_cases hdots : text.toList = oneDot ∨ text.toList = twoDots
  · have hskip : pushSegment special ss text = ss := if_pos (by simpa using hdots)
    rw [hskip] at hlength
    omega
  obtain ⟨hone, htwo⟩ := not_or.1 hdots
  -- So a tab or a line break is dropped.
  have hdropped : text.toList.filter (!isDropped ·) ≠ text.toList := by
    intro hall
    refine h ⟨fun c hc ↦ ?_, hone, htwo⟩
    have hkept := List.filter_eq_self.1 hall c hc
    simpa using hkept
  simp only [pushSegment, hone, htwo, decide_false, Bool.or_false, Bool.false_eq_true, if_false]
    at heq
  split at heq
  · rw [putBehind_of_ne hss] at heq
    obtain rfl : "" = s := by simpa using heq
    have hnil : [] = text.toList := Utf8.encode_inj hs
    exact hdropped (by rw [← hnil]; rfl)
  split at heq
  · have hlengths : (ss.dropLast ++ [""]).length = (ss ++ [s]).length := congrArg List.length heq
    have hpos : 0 < ss.length := List.length_pos_iff.2 hne
    simp only [List.length_append, List.length_dropLast, List.length_singleton] at hlengths
    omega
  · rw [putBehind_of_ne hss] at heq
    have hs' : segment special (String.ofList (text.toList.filter (!isDropped ·))) = s := by
      rw [segment, String.toList_ofList]
      simpa using heq
    rw [← hs', decode_segment, Utf8.encodeText, String.toList_ofList] at hs
    exact hdropped (Utf8.encode_inj hs)

/-! ### Paths that are extended -/

/-- The segments that others are put behind: an empty one at the end gives way to them. -/
def stem (ss : List String) : List String :=
  if dropEmptyEnd ss = [""] then [] else dropEmptyEnd ss

/-- A segment takes the place of an empty one at the end. -/
theorem putBehind_dropEmptyEnd (ss : List String) (s : String) :
    putBehind (dropEmptyEnd ss) s = stem ss ++ [s] := by
  rw [putBehind, stem]
  split <;> rfl

/-- Texts that are put behind a path one after another are its last segments, in this order. -/
theorem foldl_pushSegment {texts : List String} (hss : ss ≠ [""]) (hne : ss ≠ [])
    (h : ∀ t ∈ texts, Plain t) :
    texts.foldl (pushSegment special) ss = ss ++ texts.map (segment special) := by
  induction texts generalizing ss with
  | nil => simp
  | cons t texts ih =>
    obtain ⟨ht, h⟩ := List.forall_mem_cons.1 h
    have hlength : 1 < (ss ++ [segment special t]).length := by
      have hpos : 0 < ss.length := List.length_pos_iff.2 hne
      rw [List.length_append, List.length_singleton]
      omega
    rw [List.foldl_cons, pushSegment_of_plain ht, putBehind_of_ne hss,
      ih (by rintro heq; simp [heq] at hlength) (by simp) h, List.append_assoc]
    rfl

/-- Texts, the first of which is not empty, are put behind a path. -/
theorem foldl_pushSegment_dropEmptyEnd {texts : List String} (htext : Plain text)
    (hne : segment special text ≠ "") (h : ∀ t ∈ texts, Plain t) :
    (text :: texts).foldl (pushSegment special) (dropEmptyEnd ss) =
      stem ss ++ (text :: texts).map (segment special) := by
  rw [List.foldl_cons, pushSegment_of_plain htext, putBehind_dropEmptyEnd,
    foldl_pushSegment _ (by simp) h, List.append_assoc]
  · rfl
  · intro heq
    have hlast := congrArg List.getLast? heq
    rw [List.getLast?_concat, List.getLast?_singleton] at hlast
    exact hne (Option.some.inj hlast)

/-- A query does not change the path. -/
@[simp] theorem path_extendQuery (u : Url) (pairs : List (String × String)) :
    (u.extendQuery pairs).path = u.path := by
  rw [extendQuery]
  split <;> rfl

/-- A query does not change which host is asked. -/
@[simp] theorem authority_extendQuery (u : Url) (pairs : List (String × String)) :
    (u.extendQuery pairs).authority = u.authority := by
  rw [extendQuery]
  split <;> rfl

/-- A longer path leaves the host as it is. -/
@[simp] theorem authority_extendPath (u : Url) (texts : List String) :
    (u.extendPath texts).authority = u.authority := by
  rw [extendPath]
  split <;> rfl

/-- It leaves the scheme as it is. -/
@[simp] theorem scheme_extendPath (u : Url) (texts : List String) :
    (u.extendPath texts).scheme = u.scheme := by
  rw [extendPath]
  split <;> rfl

/-- A longer path leaves the query as it is. -/
@[simp] theorem query_extendPath (u : Url) (texts : List String) :
    (u.extendPath texts).query = u.query := by
  rw [extendPath]
  split <;> rfl

/-! ### Paths as they are written -/

/-- A text without the slash at its end. -/
def withoutEndSlash (s : String) : String :=
  if s.toList.getLast? = some '/' then String.ofList s.toList.dropLast else s

/-- The slash at the end is left out. -/
theorem withoutEndSlash_append_slash (s : String) : withoutEndSlash (s ++ "/") = s := by
  simp [withoutEndSlash, String.toList_append]

/-- A text that ends otherwise is left as it is. -/
theorem withoutEndSlash_append {t : String} (hne : t ≠ "") (ht : '/' ∉ t.toList) (s : String) :
    withoutEndSlash (s ++ t) = s ++ t := by
  have hlist : t.toList ≠ [] := fun h ↦ hne (String.toList_inj.1 h)
  rw [withoutEndSlash, String.toList_append, List.getLast?_append_of_ne_nil _ hlist, if_neg]
  intro hlast
  exact ht (List.mem_of_getLast? hlast)

/-- Segments, each behind a slash. -/
def slashed (ss : List String) : String :=
  String.join (ss.map ("/" ++ ·))

/-- Segments are written one after another. -/
theorem slashed_append (ss ts : List String) : slashed (ss ++ ts) = slashed ss ++ slashed ts := by
  rw [slashed, List.map_append, String.join_append]
  rfl

/-- What keeps a path apart from an authority that is not there. -/
def pathMark (authority : Option Authority) (ss : List String) : String :=
  if authority.isNone && ss.head? = some "" && 1 < ss.length then "/." else ""

/-- A path is written as its segments, behind a mark where they could be taken for a host. -/
theorem pathText_of_segments {u : Url} (h : u.path = .segments ss) :
    u.pathText = pathMark u.authority ss ++ slashed ss := by
  simp only [pathText, h, pathMark, slashed]
  split
  · rfl
  · exact String.empty_append.symm

section Mark

variable {authority : Option Authority}

/-- This mark is needed only before an empty segment. -/
theorem pathMark_of_head?_ne (h : ss.head? ≠ some "") : pathMark authority ss = "" :=
  if_neg (by simp [h])

/-- Whether a path needs the mark is seen by its first segment when there are more. -/
theorem pathMark_append {ts : List String} (hss : ss ≠ []) (hts : ts ≠ []) :
    pathMark authority (ss ++ ts) =
      if authority.isNone && ss.head? = some "" then "/." else "" := by
  have hlength : 1 < (ss ++ ts).length := by
    have hpos : 0 < ss.length := List.length_pos_iff.2 hss
    have hpos' : 0 < ts.length := List.length_pos_iff.2 hts
    rw [List.length_append]
    omega
  rw [pathMark, List.head?_append_of_ne_nil _ hss, decide_eq_true hlength, Bool.and_true]

/-- More than one segment behind a path makes no difference to the mark. -/
theorem pathMark_append_congr {ts ts' : List String} (hss : ss ≠ []) (hts : ts ≠ [])
    (hts' : ts' ≠ []) : pathMark authority (ss ++ ts) = pathMark authority (ss ++ ts') := by
  rw [pathMark_append hss hts, pathMark_append hss hts']

end Mark

/-- The stem of a path is what stands before an empty segment at its end. -/
theorem stem_concat_empty {front : List String} (h : front ≠ [""]) :
    stem (front ++ [""]) = front := by
  rcases List.eq_nil_or_concat front with rfl | ⟨init, last, rfl⟩
  · rfl
  · have hdrop : dropEmptyEnd (init.concat last ++ [""]) = init.concat last := by
      simp [dropEmptyEnd]
    rw [stem, hdrop, if_neg h]

/-- A path without an empty segment at its end is its own stem. -/
theorem stem_concat_of_ne {front : List String} {last : String} (h : last ≠ "") :
    stem (front ++ [last]) = front ++ [last] := by
  have hdrop : dropEmptyEnd (front ++ [last]) = front ++ [last] := by simp [dropEmptyEnd, h]
  rw [stem, hdrop, if_neg]
  intro heq
  have hlast := congrArg List.getLast? heq
  rw [List.getLast?_concat, List.getLast?_singleton] at hlast
  exact h (Option.some.inj hlast)

section Stem

variable {authority : Option Authority} {front ts : List String} {t last : String}

/-- A slash at the end of a path gives way to what is put behind it. -/
theorem slashed_stem_concat_empty (h : front ≠ [""]) (ht : t ≠ "") :
    pathMark authority (stem (front ++ [""]) ++ t :: ts) ++ slashed (stem (front ++ [""])) =
      withoutEndSlash (pathMark authority (front ++ [""]) ++ slashed (front ++ [""])) := by
  have hone : slashed [""] = "/" := rfl
  have hmark : pathMark authority (front ++ t :: ts) = pathMark authority (front ++ [""]) := by
    by_cases hnil : front = []
    · subst hnil
      have hhead : pathMark authority (t :: ts) = "" := pathMark_of_head?_ne (by simpa using ht)
      exact hhead.trans (by simp [pathMark])
    · exact pathMark_append_congr hnil (by simp) (by simp)
  rw [stem_concat_empty h, slashed_append, hone, ← String.append_assoc,
    withoutEndSlash_append_slash, hmark]

/-- Without a slash at its end, a path stays as it is. -/
theorem slashed_stem_concat_of_ne (h : last ≠ "") (hslash : '/' ∉ last.toList) :
    pathMark authority (stem (front ++ [last]) ++ t :: ts) ++ slashed (stem (front ++ [last])) =
      withoutEndSlash (pathMark authority (front ++ [last]) ++ slashed (front ++ [last])) := by
  have hone : slashed [last] = "/" ++ last := by simp [slashed]
  have hmark : pathMark authority (front ++ last :: t :: ts) =
      pathMark authority (front ++ [last]) := by
    by_cases hnil : front = []
    · subst hnil
      have hhead : ∀ ts, pathMark authority (last :: ts) = "" :=
        fun ts ↦ pathMark_of_head?_ne (by simpa using h)
      exact (hhead _).trans (hhead []).symm
    · exact pathMark_append_congr hnil (by simp) (by simp)
  rw [stem_concat_of_ne h, List.append_assoc, List.singleton_append, hmark, slashed_append, hone,
    ← String.append_assoc, ← String.append_assoc, withoutEndSlash_append h hslash]

end Stem

/-- **A path with more behind it is written as it was, without the slash at its end, and then
what is behind it.** Only two slashes give way altogether. -/
theorem pathText_of_append {u u' : Url} {t : String} {ts : List String}
    (hu : u.path = .segments ss) (hslash : ∀ s ∈ ss, '/' ∉ s.toList)
    (hu' : u'.path = .segments (stem ss ++ t :: ts)) (ht : t ≠ "")
    (hauthority : u'.authority = u.authority) :
    u'.pathText = (if ss = ["", ""] then "" else withoutEndSlash u.pathText) ++
      slashed (t :: ts) := by
  have hmark : pathMark u.authority (t :: ts) = "" := pathMark_of_head?_ne (by simpa using ht)
  rw [pathText_of_segments hu, pathText_of_segments hu', slashed_append, ← String.append_assoc,
    hauthority]
  congr 1
  split
  · rename_i hroot
    subst hroot
    rw [show stem ["", ""] = [] from rfl, List.nil_append, hmark]
    rfl
  rename_i hroot
  rcases List.eq_nil_or_concat ss with rfl | ⟨front, last, rfl⟩
  · have hnil : pathMark u.authority [] = "" := pathMark_of_head?_ne (by simp)
    rw [show stem [] = [] from rfl, List.nil_append, hmark, hnil]
    rfl
  rw [List.concat_eq_append] at hroot hslash ⊢
  by_cases hlast : last = ""
  · subst hlast
    exact slashed_stem_concat_empty (fun h ↦ hroot (by rw [h]; rfl)) ht
  · exact slashed_stem_concat_of_ne hlast (hslash last (by simp))

end Licensing.Url
