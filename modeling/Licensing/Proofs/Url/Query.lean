import Licensing.Proofs.Form
import Licensing.Url.Parse
import Mathlib.Data.List.TakeDrop

/-!
# The query of a URL

A URL that is read from a text without a question mark has no query (`query_of_parse`): whatever
part of the text is read, no other question mark comes into it. The pairs that are put behind a
query make one form, however many times some are put there (`extendQuery_append`). So a URL that
had no query has the form of these pairs (`query_extendQuery_of_none`). A form is a query as it is,
and nothing of it has to be escaped (`plainQuery_encode`).
-/

namespace Licensing.Url

variable {s scheme : String} {u : Url} {cs : List Char} {special : Bool}
  {ps qs : List (String × String)}

/-! ### Reading -/

theorem cut_subset (sep : Char) (cs : List Char) : (Text.cut sep cs).1 ⊆ cs := by
  induction cs with
  | nil => exact List.Subset.refl _
  | cons c cs ih =>
    rw [Text.cut]
    split
    · exact List.nil_subset _
    · exact List.cons_subset_cons c ih

theorem cleaned_subset (s : String) : cleaned s ⊆ s.toList := by
  intro c hc
  have hfront := (List.mem_filter.1 hc).1
  exact List.dropWhile_subset _ (List.mem_reverse.1 (List.dropWhile_subset _
    (List.mem_reverse.1 hfront)))

theorem snd_upTo_subset (stop : Char → Bool) (cs : List Char) : (upTo stop cs).2 ⊆ cs := by
  rw [upTo, List.span_eq_takeWhile_dropWhile]
  exact List.dropWhile_subset _

/-- What stands behind the scheme is part of the text. -/
theorem subset_of_readScheme? {rest : List Char} (h : readScheme? cs = some (scheme, rest)) :
    rest ⊆ cs := by
  simp only [readScheme?] at h
  split at h
  · rename_i first name rest' _ hrest
    split at h
    · obtain ⟨-, rfl⟩ := Prod.mk.inj (Option.some.inj h)
      intro c hc
      refine List.drop_subset (cs.takeWhile isSchemeChar).length cs ?_
      rw [hrest]
      exact List.mem_cons_of_mem _ hc
    · exact absurd h (by simp)
  · exact absurd h (by simp)

theorem fst_readTail (h : '?' ∉ cs) : (readTail special cs).1 = none := by
  simp only [readTail]
  split
  · rename_i q hq
    exact absurd (cut_subset '#' cs (hq ▸ List.mem_cons_self)) h
  · rfl

/-- A bind that succeeds does so in both of its parts. -/
theorem exists_of_bind_eq_ok {α β ε : Type} {x : Except ε α} {f : α → Except ε β} {b : β}
    (h : x >>= f = .ok b) : ∃ a, x = .ok a ∧ f a = .ok b := by
  cases x with
  | error e => exact absurd h (by simp [bind, Except.bind])
  | ok a => exact ⟨a, rfl, h⟩

theorem query_of_readWithAuthority (hcs : '?' ∉ cs) (h : readWithAuthority scheme cs = .ok u) :
    u.query = none := by
  obtain ⟨authority, -, h⟩ := exists_of_bind_eq_ok h
  obtain rfl := Except.ok.inj h
  refine fst_readTail fun hmem ↦ hcs ?_
  exact snd_upTo_subset _ _ (snd_upTo_subset _ _ hmem)

theorem query_readWithoutAuthority (hcs : '?' ∉ cs) :
    (readWithoutAuthority scheme cs).query = none :=
  fst_readTail fun hmem ↦ hcs (snd_upTo_subset _ _ hmem)

theorem query_of_readFile (hcs : '?' ∉ cs) (h : readFile cs = .ok u) : u.query = none := by
  have htail : ∀ tail ⊆ cs, (readTail true (upTo (fun c ↦ c = '?' || c = '#') tail).2).1 = none :=
    fun tail hsub ↦ fst_readTail fun hmem ↦ hcs (hsub (snd_upTo_subset _ _ hmem))
  match cs with
  | [] | [a] =>
    obtain rfl := Except.ok.inj h
    exact htail _ (List.Subset.refl _)
  | a :: b :: cs =>
    simp only [readFile] at h
    split at h
    · -- The host, which may be missing, comes before what is read of the query.
      have hrest : (upTo (endsAuthority true) cs).2 ⊆ a :: b :: cs := fun c hc ↦
        List.mem_cons_of_mem _ (List.mem_cons_of_mem _ (snd_upTo_subset _ _ hc))
      split at h <;>
      · obtain ⟨host, -, h⟩ := exists_of_bind_eq_ok h
        obtain rfl := Except.ok.inj h
        exact htail _ hrest
    · obtain rfl := Except.ok.inj h
      exact htail _ (List.Subset.refl _)

/-- **Where there is no question mark, there is no query.** -/
theorem query_of_parse (hs : '?' ∉ s.toList) (h : parse s = .ok u) : u.query = none := by
  rw [parse] at h
  split at h
  · exact absurd h (by simp)
  · rename_i scheme rest hscheme
    have hrest : '?' ∉ rest := fun hmem ↦
      hs (cleaned_subset s (subset_of_readScheme? hscheme hmem))
    split at h
    · exact query_of_readFile hrest h
    split at h
    · exact query_of_readWithAuthority (fun hmem ↦ hrest (List.dropWhile_subset _ hmem)) h
    split at h
    · rename_i rest
      exact query_of_readWithAuthority
        (fun hmem ↦ hrest (List.mem_cons_of_mem _ (List.mem_cons_of_mem _ hmem))) h
    · obtain rfl := Except.ok.inj h
      exact query_readWithoutAuthority hrest

/-! ### Pairs -/

@[simp] theorem scheme_extendQuery (u : Url) (ps : List (String × String)) :
    (u.extendQuery ps).scheme = u.scheme := by
  rw [extendQuery]
  split <;> rfl

/-- Pairs that are put behind a query are read behind the pairs that were there. -/
theorem exists_query_extendQuery (u : Url) (hps : ps ≠ []) : ∃ q,
    (u.extendQuery ps).query = some q ∧
      Form.decode q = (u.query.map Form.decode).getD [] ++ ps := by
  cases hu : u.query with
  | none => exact ⟨Form.encode ps, by simp [extendQuery, hu, hps], Form.decode_encode ps⟩
  | some q =>
    by_cases hq : q = ""
    · subst hq
      exact ⟨Form.encode ps, by simp [extendQuery, hu, hps], Form.decode_encode ps⟩
    · refine ⟨q ++ "&" ++ Form.encode ps, by simp [extendQuery, hu, hps, hq], ?_⟩
      rw [Form.decode_append, Form.decode_encode]
      rfl

theorem query_extendQuery_of_none (hu : u.query = none) (hps : ps ≠ []) :
    (u.extendQuery ps).query = some (Form.encode ps) := by
  simp [extendQuery, hu, hps]

theorem extendQuery_nil (u : Url) : u.extendQuery [] = u := rfl

/-- Pairs that are put behind a query one after another are put there together. -/
theorem extendQuery_append (u : Url) (ps qs : List (String × String)) :
    (u.extendQuery ps).extendQuery qs = u.extendQuery (ps ++ qs) := by
  by_cases hps : ps = []
  · rw [hps, extendQuery_nil, List.nil_append]
  by_cases hqs : qs = []
  · rw [hqs, extendQuery_nil, List.append_nil]
  simp only [extendQuery, List.isEmpty_iff, hps, hqs, List.append_eq_nil_iff, false_and, if_false,
    Form.encode_append hps hqs]
  cases u.query with
  | none => simp [Form.encode_ne_empty hps]
  | some q =>
    by_cases hq : q = ""
    · simp [hq, Form.encode_ne_empty hps]
    · simp [hq, String.append_assoc]

/-! ### Forms as queries -/

/-- A text can stand as the query of a URL without anything being escaped. -/
structure PlainQuery (q : String) : Prop where
  /-- It has letters, digits and marks that may stand in a query. -/
  chars : ∀ c ∈ q.toList, c.isAlphanum = true ∨ c ∈ ['*', '-', '.', '_', '+', '%', '&', '=']
  /-- Every percent sign begins an escaped byte. -/
  escaped : Percent.Escaped q.toList
  /-- It stays as it is when it is read as a query. -/
  encode_eq : ∀ special, Percent.encode (escapedInQuery special) q.toList = q.toList

theorem escapedInQuery_of_isFormChar {c : Char} (h : Form.isFormChar c = true) (special : Bool) :
    escapedInQuery special (UInt8.ofNat c.toNat) = false := by
  have hall : ∀ n < 128, Form.isFormChar (Char.ofNat n) = true → ∀ special,
      escapedInQuery special (UInt8.ofNat n) = false := by decide +kernel
  exact hall c.toNat (Form.ascii_of_isFormChar h) (by rwa [Char.ofNat_toNat]) special

/-- A form is a query as it is. -/
theorem plainQuery_encode (ps : List (String × String)) : PlainQuery (Form.encode ps) where
  chars _ hc := Form.isAlphanum_or_of_isFormChar (Form.isFormChar_of_mem_encode hc)
  escaped := Form.escaped_encode ps
  encode_eq special := Percent.encode_eq_self fun _ hc ↦
    have h := Form.isFormChar_of_mem_encode hc
    ⟨Form.ascii_of_isFormChar h, escapedInQuery_of_isFormChar h special⟩

end Licensing.Url
