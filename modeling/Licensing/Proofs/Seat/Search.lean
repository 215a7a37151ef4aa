import Licensing.Client.Accounts
import Licensing.Proofs.Text.Split
import Licensing.Seat.Manager

/-!
# Reading search expressions

The accounts system reads a search expression by its single quotes: what stands between an odd
quote and the next one is a value, and the rest is operators (`Search.read`). An expression is
built from values as they are, so a value with a quote would be read as operators. Without such
values the expression is read as what it was built from (`read_woven`), and this is said here for
the two expressions that the seat operations send (`read_subscriptionSearch`, `read_quotaSearch`).
-/

namespace Licensing

namespace Text

/-- What stands at the even places of a list, counted from zero, and what stands at the odd. -/
def alternate {α : Type} : List α → List α × List α
  | [] => ([], [])
  | a :: rest => (a :: (alternate rest).2, (alternate rest).1)

end Text

namespace Search

/-- The character around values. -/
def quote : Char := Char.ofNat 0x27

/-- The operators of an expression, and the values between them. -/
def read (s : String) : List String × List String :=
  Text.alternate (Text.splitText quote s)

/-- Operators, each with the value behind it, and what stands behind the last value. -/
def woven (ps : List (String × String)) (last : String) : String :=
  match ps with
  | [] => last
  | (operator, value) :: ps => operator ++ quoted value ++ woven ps last

/-! ### Building -/

/-- What is woven of two lists is woven of the first around the second. -/
theorem woven_append (ps qs : List (String × String)) (last : String) :
    woven (ps ++ qs) last = woven ps (woven qs last) := by
  induction ps with
  | nil => rfl
  | cons p ps ih => rw [List.cons_append, woven, woven, ih]

/-- A text that is put behind goes to what stands last. -/
theorem woven_append_text (ps : List (String × String)) (last text : String) :
    woven ps last ++ text = woven ps (last ++ text) := by
  induction ps with
  | nil => rfl
  | cons p ps ih => rw [woven, woven, String.append_assoc, ih]

/-- Values with commas between them are values with a comma in front of all but the first. -/
theorem append_intercalate_quoted (operator value : String) (values : List String) :
    operator ++ ",".intercalate ((value :: values).map quoted) =
      woven ((operator, value) :: values.map (",", ·)) "" := by
  induction values generalizing operator value with
  | nil => simp [woven, String.intercalate_singleton]
  | cons v values ih =>
    have hrest : "," ++ ",".intercalate (quoted v :: values.map quoted) =
        woven ((",", v) :: values.map (",", ·)) "" := ih "," v
    rw [List.map_cons, List.map_cons, String.intercalate_cons_cons, woven, List.map_cons, ← hrest]
    simp only [String.append_assoc]

section Builder

variable {s : Search} {ps : List (String × String)} {last : String}

/-- A comparison by pattern puts the operator behind the last text, and the value into quotes. -/
theorem text_like (h : s.text = woven ps last) (field value : String) :
    (s.like field value).text = woven (ps ++ [(last ++ field ++ " LIKE ", value)]) "" := by
  rw [like, h, woven_append]
  simp only [woven, woven_append_text, String.append_assoc, String.append_empty]

/-- So does a comparison for equality. -/
theorem text_equals (h : s.text = woven ps last) (field value : String) :
    (s.equals field value).text = woven (ps ++ [(last ++ field ++ " = ", value)]) "" := by
  rw [equals, h, woven_append]
  simp only [woven, woven_append_text, String.append_assoc, String.append_empty]

/-- A conjunction puts no value into quotes. -/
theorem text_and (h : s.text = woven ps last) : s.and.text = woven ps (last ++ " AND ") := by
  rw [and, h, woven_append_text]

/-- A choice of values puts each of them into quotes, with commas between them. -/
theorem text_oneOf (h : s.text = woven ps last) (field value : String) (values : List String) :
    (s.oneOf field (value :: values)).text =
      woven (ps ++ (last ++ field ++ " IN (", value) :: values.map (",", ·)) ")" := by
  have hvalues := append_intercalate_quoted (last ++ field ++ " IN (") value values
  rw [oneOf, h, woven_append, woven_append_text, woven_append_text, woven_append_text,
    woven_append_text, hvalues, woven_append_text, String.empty_append]

end Builder

/-! ### Reading -/

/-- A text without quotes is cut off at the first quote behind it. -/
theorem splitText_append {p : String} (hp : quote ∉ p.toList) (rest : String) :
    Text.splitText quote (p ++ "'" ++ rest) = p :: Text.splitText quote rest := by
  have hmark : "'".toList = [quote] := by decide
  rw [Text.splitText_append hmark, Text.splitText_of_not_mem hp, List.singleton_append]

/-- **An expression without quotes in its parts is read as what it was built from.** Every quote in
it is one that was put around a value, so to cut at the quotes undoes the building. -/
theorem read_woven {ps : List (String × String)} {last : String}
    (hps : ∀ p ∈ ps, quote ∉ p.1.toList ∧ quote ∉ p.2.toList) (hlast : quote ∉ last.toList) :
    read (woven ps last) = (ps.map Prod.fst ++ [last], ps.map Prod.snd) := by
  induction ps with
  | nil => rw [read, woven, Text.splitText_of_not_mem hlast]; rfl
  | cons p ps ih =>
    obtain ⟨⟨ho, hv⟩, hps⟩ := List.forall_mem_cons.1 hps
    have hpieces : Text.splitText quote (woven (p :: ps) last) =
        p.1 :: p.2 :: Text.splitText quote (woven ps last) := by
      rw [← splitText_append hv, ← splitText_append ho, woven, quoted]
      simp only [String.append_assoc]
    have hrest : Text.alternate (Text.splitText quote (woven ps last)) = _ := ih hps
    rw [read, hpieces, Text.alternate, Text.alternate, hrest]
    rfl

end Search

/-! ### The expressions of the seat operations -/

namespace Seat

open Search (read woven quote)

/-- The operators of the search for subscriptions with one of some number of statuses. -/
def subscriptionOperators (statuses : Nat) : List String :=
  ["plan.id LIKE ", " AND organization_id = "] ++ match statuses with
    | 0 => [""]
    | n + 1 => " AND status IN (" :: List.replicate n "," ++ [")"]

/-- A text in which no quote was found has none. -/
theorem not_mem_of_hasQuote {s : String} (h : hasQuote s = false) : quote ∉ s.toList := by
  intro hmem
  have hquote : hasQuote s = true := List.contains_iff_mem.2 hmem
  exact Bool.false_ne_true (h.symm.trans hquote)

/-- An empty search holds no values. -/
theorem text_empty : Search.empty.text = woven [] "" := rfl

/-- The two comparisons that every search for subscriptions begins with. -/
theorem text_organization (org : String) :
    (((Search.empty.like "plan.id" productId).and).equals "organization_id" org).text =
      woven [("plan.id LIKE ", productId), (" AND organization_id = ", org)] "" :=
  Search.text_equals (Search.text_and (Search.text_like text_empty _ _)) _ _

/-- Without statuses the subscriptions of an organization are searched for by its plan and itself.
-/
theorem text_subscriptionSearch_nil (org : String) :
    subscriptionSearch org [] =
      woven [("plan.id LIKE ", productId), (" AND organization_id = ", org)] "" :=
  text_organization org

/-- With statuses these follow, one after another and in their order. -/
theorem text_subscriptionSearch_cons (org status : String) (statuses : List String) :
    subscriptionSearch org (status :: statuses) =
      woven ([("plan.id LIKE ", productId), (" AND organization_id = ", org)] ++
        (" AND status IN (", status) :: statuses.map (",", ·)) ")" :=
  Search.text_oneOf (Search.text_and (text_organization org)) _ _ _

/-- **The search for subscriptions is read as it is meant**: a plan, an organization and the
statuses one after another. -/
theorem read_subscriptionSearch {org : String} {statuses : List String}
    (horg : hasQuote org = false) (hs : statuses.any hasQuote = false) :
    read (subscriptionSearch org statuses) =
      (subscriptionOperators statuses.length, productId :: org :: statuses) := by
  have horg : quote ∉ org.toList := not_mem_of_hasQuote horg
  have hvalues : ∀ v ∈ statuses, quote ∉ v.toList := fun v hv ↦
    not_mem_of_hasQuote (Bool.eq_false_iff.2 (List.any_eq_false.1 hs v hv))
  have hplan : quote ∉ productId.toList := by decide
  have hbase : ∀ p ∈ [("plan.id LIKE ", productId), (" AND organization_id = ", org)],
      quote ∉ p.1.toList ∧ quote ∉ p.2.toList :=
    List.forall_mem_cons.2 ⟨⟨by decide, hplan⟩, List.forall_mem_singleton.2
      ⟨show quote ∉ " AND organization_id = ".toList by decide, horg⟩⟩
  cases statuses with
  | nil => rw [text_subscriptionSearch_nil, Search.read_woven hbase (by decide)]; rfl
  | cons status statuses =>
    obtain ⟨hstatus, hvalues⟩ := List.forall_mem_cons.1 hvalues
    have hrest : ∀ p ∈ (" AND status IN (", status) :: statuses.map (",", ·),
        quote ∉ p.1.toList ∧ quote ∉ p.2.toList :=
      List.forall_mem_cons.2 ⟨⟨show quote ∉ " AND status IN (".toList by decide, hstatus⟩,
        List.forall_mem_map.2 fun v hv ↦ ⟨show quote ∉ ",".toList by decide, hvalues v hv⟩⟩
    rw [text_subscriptionSearch_cons,
      Search.read_woven (List.forall_mem_append.2 ⟨hbase, hrest⟩) (by decide)]
    simp [subscriptionOperators, Function.comp_def, List.map_const']

/-- **Different organizations or statuses give different searches**, as long as there is no quote in
them: a search is read as the values that were put into it. -/
theorem subscriptionSearch_inj {org org' : String} {statuses statuses' : List String}
    (horg : hasQuote org = false) (hs : statuses.any hasQuote = false)
    (horg' : hasQuote org' = false) (hs' : statuses'.any hasQuote = false)
    (h : subscriptionSearch org statuses = subscriptionSearch org' statuses') :
    org = org' ∧ statuses = statuses' := by
  have hread : (subscriptionOperators statuses.length, productId :: org :: statuses) =
      (subscriptionOperators statuses'.length, productId :: org' :: statuses') := by
    rw [← read_subscriptionSearch horg hs, h, read_subscriptionSearch horg' hs']
  have hvalues : productId :: org :: statuses = productId :: org' :: statuses' :=
    congrArg Prod.snd hread
  exact List.cons.inj (List.cons.inj hvalues).2

/-- **The search for the quota is read as it is meant**: a pattern. -/
theorem read_quotaSearch : read quotaSearch = (["quota_id LIKE ", ""], [quotaPattern]) := by
  have htext : quotaSearch = woven [("quota_id LIKE ", quotaPattern)] "" :=
    Search.text_like text_empty _ _
  rw [htext, Search.read_woven (List.forall_mem_singleton.2 ⟨by decide, by decide⟩) (by decide)]
  rfl

/-- A name with a quote is read as operators: the accounts system would be asked for the
subscriptions of every organization. -/
example : read (subscriptionSearch "7' OR organization_id LIKE '%" []) =
    (["plan.id LIKE ", " AND organization_id = ", " OR organization_id LIKE ", ""],
      [productId, "7", "%"]) := by
  decide

end Seat

/-! ### The expression of the client -/

namespace Client.AccountsClient

open Search (read quote)

/-- **The search for an organization is read as it is meant**: its name. -/
theorem read_orgSearch {org : String} (h : quote ∉ org.toList) :
    read (orgSearch org) = (["external_id=", ""], [org]) := by
  have htext : orgSearch org = Search.woven [("external_id=", org)] "" := by
    rw [Search.woven, Search.woven, Search.quoted, orgSearch, ← String.append_assoc,
      ← String.append_assoc, String.append_empty]
    rfl
  have hparts : ∀ p ∈ [("external_id=", org)], quote ∉ p.1.toList ∧ quote ∉ p.2.toList :=
    List.forall_mem_singleton.2 ⟨show quote ∉ "external_id=".toList by decide, h⟩
  rw [htext, Search.read_woven hparts (by decide)]
  rfl

end Client.AccountsClient

end Licensing
