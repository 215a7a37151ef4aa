import Licensing.Proofs.Client.Accounts
import Licensing.Proofs.Client.Refusals

/-!
# Which lifetimes the clock can show

A token is renewed some time before its end, which is a sum of the present time and of what the
accounts system says about the lifetime. What it says is any number of 64 bits, and the clock shows
fewer seconds, so that the sum can be beyond it (`Shows`): then the call that asked for the token
crashes. `timed_of_run` says this of every run: exactly these calls crash, and they leave the token
that is kept and the lock to the others. `bearer_crashed_of_longest` is about such a token.
-/

namespace Licensing.Client

open Utf8 (Bytes)
open Json (Document Numeral)

namespace Access

/-- The clock can show the time at which a token that comes now is to be renewed. -/
def Shows (now : Nat) (g : Grant) : Prop :=
  now / 1000 + (g.lifetime.getD 300 - 30) ≤ clockEnd

instance (now : Nat) (g : Grant) : Decidable (Shows now g) :=
  inferInstanceAs (Decidable (_ ≤ _))

section Shows

variable {now : Nat} {g : Grant}

/-- As long as the clock has not come to its end, it shows the short lifetimes. -/
theorem shows_iff (hnow : now / 1000 ≤ clockEnd) :
    Shows now g ↔ g.lifetime.getD 300 ≤ 30 + (clockEnd - now / 1000) := by
  rw [Shows]
  omega

theorem keep?_of_shows (h : Shows now g) :
    keep? now g = some ⟨g.token, now + (g.lifetime.getD 300 - 30) * 1000⟩ := by
  have hseconds : (now + useTime g * 1000) / 1000 ≤ clockEnd := by
    rwa [Nat.add_mul_div_right _ _ (by decide)]
  rw [keep?, if_neg (Nat.not_lt.2 hseconds)]
  rfl

theorem keep?_of_not_shows (h : ¬ Shows now g) : keep? now g = none := by
  have hseconds : clockEnd < (now + useTime g * 1000) / 1000 := by
    rw [Nat.add_mul_div_right _ _ (by decide)]
    exact Nat.not_le.1 h
  rw [keep?, if_pos hseconds]

theorem keep?_eq_none_iff : keep? now g = none ↔ ¬ Shows now g := by
  refine ⟨fun h hshows ↦ ?_, keep?_of_not_shows⟩
  rw [keep?_of_shows hshows] at h
  cases h

end Shows

namespace Machine

variable {m m' : Machine} {es : List Event} {j k : Nat} {p q : Phase} {g : Grant}

/-! ### Leaving the lock -/

/-- The lock goes to the call that waited first. -/
theorem holder_leave : (m.leave k p).holder = m.queue.head? := by
  rcases hq : m.queue with _ | ⟨next, rest⟩
  · rw [leave_of_nil hq]
    rfl
  · rw [leave_of_cons hq]
    rfl

theorem queue_leave : (m.leave k p).queue = m.queue.tail := by
  rcases hq : m.queue with _ | ⟨next, rest⟩
  · rw [leave_of_nil hq]
    exact hq
  · rw [leave_of_cons hq]
    rfl

/-- Nothing else happens to the calls. -/
theorem phase?_leave (hj : m.phase? j = some q) : (m.leave k p).phase? j =
    some (if m.queue.head? = some j then .holding else if k = j then p else q) := by
  have hlt := lt_of_phase? hj
  rcases hq : m.queue with _ | ⟨next, rest⟩
  · rw [leave_of_nil hq, List.head?_nil, if_neg (by simp), phase?_setPhase]
    split
    · subst_vars
      exact if_pos hlt
    · exact hj
  · rw [leave_of_cons hq, List.head?_cons, phase?_setPhase, phase?_setPhase]
    by_cases hnext : next = j
    · subst hnext
      simp [setPhase, hlt]
    · rw [if_neg hnext, if_neg fun heq ↦ hnext (Option.some.inj heq)]
      split
      · subst_vars
        exact if_pos hlt
      · exact hj

/-! ### Tokens that come -/

theorem step_receive_of_requesting (hk : m.phase? k = some .requesting)
    (outcome : Except RemoteError Grant) :
    m.step (.move k (.receive outcome)) = some (m.receive k outcome) := by
  have hk : m.calls[k]? = some .requesting := hk
  rw [step, hk]
  rfl

theorem phase?_leave_self (hk : m.phase? k = some q) (hqueue : k ∉ m.queue) :
    (m.leave k p).phase? k = some p := by
  have hhead : m.queue.head? ≠ some k := fun h ↦ hqueue (List.mem_of_mem_head? h)
  rw [phase?_leave hk, if_neg hhead, if_pos rfl]

/-- A call has the token that comes, and it is kept. -/
theorem receive_of_shows (hlocked : Locked m) (hk : m.phase? k = some .requesting)
    (hg : Shows m.now g) : (m.receive k (.ok g)).phase? k = some (.ready g.token) ∧
      (m.receive k (.ok g)).token =
        some ⟨g.token, m.now + (g.lifetime.getD 300 - 30) * 1000⟩ := by
  -- Who asked for the token holds the lock, so it does not go to the same call again.
  have hqueue := hlocked.not_mem_queue hk rfl
  rw [receive, keep?_of_shows hg]
  generalize (⟨g.token, m.now + (g.lifetime.getD 300 - 30) * 1000⟩ : Token) = t
  exact ⟨phase?_leave_self (m := { m with token := some t }) hk hqueue, leave_token⟩

/-- A call crashes only when a token comes to it whose renewal the clock cannot show. -/
theorem exists_of_crashed (h : start.run es = some m) : ∀ k, m.phase? k = some .crashed →
    ∃ es₁ m₁ g, es₁ ++ [.move k (.receive (.ok g))] <+: es ∧ start.run es₁ = some m₁ ∧
      m₁.phase? k = some .requesting ∧ ¬ Shows m₁.now g := by
  refine run_induction (P := fun es m ↦ ∀ k, m.phase? k = some .crashed →
    ∃ es₁ m₁ g, es₁ ++ [.move k (.receive (.ok g))] <+: es ∧ start.run es₁ = some m₁ ∧
      m₁.phase? k = some .requesting ∧ ¬ Shows m₁.now g) (by simp [start, phase?]) ?_ h
  intro es e m m' hrun ih hs k hk
  rcases phase_of_step (locked_of_run hrun) hs hk with ⟨-, hp⟩ | ⟨p, hp, hb⟩
  · exact absurd hp (by simp)
  rcases hb with ⟨mv, rfl, ht⟩ | ⟨-, rfl | ⟨-, hholding⟩⟩
  · generalize hcrashed : Phase.crashed = p' at ht
    cases ht with
    | @overflow g hkeep =>
      exact ⟨es, m, g, List.prefix_rfl, hrun, hp, keep?_eq_none_iff.1 hkeep⟩
    | _ => exact absurd hcrashed (by simp)
  · obtain ⟨es₁, m₁, g, hpre, hrest⟩ := ih k hp
    exact ⟨es₁, m₁, g, hpre.trans (List.prefix_append _ _), hrest⟩
  · exact absurd hholding (by simp)

end Machine

end Access

/-! ### Answers with a token -/

namespace AccountsClient

open Access (Machine Shows)

variable {σ : Type} {network : Network σ} {c : AccountsClient} {credentials : Credentials}
  {url : Url} {s : σ} {status : Nat} {body : Bytes} {g : Grant}

/-- A field that may be missing or null holds a natural number of 64 bits, or none. -/
inductive MayCount : Option Document → Option Nat → Prop where
  /-- The field is missing. -/
  | missing : MayCount none none
  /-- The field is null. -/
  | null : MayCount (some .null) none
  /-- The field is a number. -/
  | number {numeral : Numeral} {n : Nat} (h : numeral.int? = some (n : Int))
    (hn : n ≤ Decimal.maxU64) : MayCount (some (.number numeral)) (some n)

/-- A body is an object, or a list in place of one, with a token and its lifetime. -/
def Declares (body : Bytes) (g : Grant) : Prop :=
  ∃ d raw lifetime, Document.read body = some d ∧
    d.fields? ["access_token", "expires_in"] = some [some (.text raw), lifetime] ∧
    Json.textOf raw = some g.token ∧ MayCount lifetime g.lifetime

theorem mayCount_iff {d : Option Document} {lifetime : Option Nat} :
    Document.default? none (Document.optional? (Document.nat? Decimal.maxU64)) d =
      some lifetime ↔ MayCount d lifetime := by
  constructor
  · intro h
    match d, h with
    | none, h =>
      obtain rfl := Option.some.inj h
      exact .missing
    | some .null, h =>
      obtain rfl := Option.some.inj h
      exact .null
    | some (.number numeral), h =>
      obtain ⟨n, hn, rfl⟩ := Option.map_eq_some_iff.1 h
      obtain ⟨i, hi, rfl⟩ := Option.map_eq_some_iff.1 hn
      obtain ⟨hint, hrange⟩ := Option.filter_eq_some_iff.1 hi
      obtain ⟨hnonneg, hmost⟩ := of_decide_eq_true hrange
      obtain ⟨n, rfl⟩ := Int.eq_ofNat_of_zero_le hnonneg
      exact .number hint (Int.ofNat_le.1 hmost)
  · intro h
    cases h with
    | missing | null => rfl
    | @number numeral n h hn =>
      have hfilter : (numeral.int?.filter fun i ↦ 0 ≤ i ∧ i ≤ (Decimal.maxU64 : Int)) =
          some (n : Int) :=
        Option.filter_eq_some_iff.2 ⟨h, decide_eq_true ⟨Int.natCast_nonneg n, Int.ofNat_le.2 hn⟩⟩
      exact congrArg (fun i ↦ (i.map Int.toNat).map some) hfilter

theorem grant?_eq_some_iff {d : Document} : grant? d = some g ↔ ∃ raw lifetime,
    d.fields? ["access_token", "expires_in"] = some [some (.text raw), lifetime] ∧
      Json.textOf raw = some g.token ∧ MayCount lifetime g.lifetime := by
  constructor
  · intro h
    rw [grant?] at h
    split at h
    · rename_i token lifetime hfields
      simp only [Option.bind_eq_bind, Option.bind_eq_some_iff, Option.some.injEq] at h
      obtain ⟨text, htext, n, hn, rfl⟩ := h
      match token, htext with
      | some (.text raw), htext => exact ⟨raw, lifetime, hfields, htext, mayCount_iff.1 hn⟩
    · exact absurd h (by simp)
  · rintro ⟨raw, lifetime, hfields, htext, hlifetime⟩
    have htext : Document.required? Document.text? (some (.text raw)) = some g.token := htext
    simp [grant?, hfields, htext, mayCount_iff.2 hlifetime]

/-- A body is read as a token exactly if it declares one. -/
theorem readAs_grant?_eq_some_iff : Json.readAs grant? body = some g ↔ Declares body g := by
  simp only [Json.readAs, Option.bind_eq_some_iff, grant?_eq_some_iff]
  constructor
  · rintro ⟨d, hd, raw, lifetime, h⟩
    exact ⟨d, raw, lifetime, hd, h⟩
  · rintro ⟨d, raw, lifetime, hd, h⟩
    exact ⟨d, hd, raw, lifetime, h⟩

/-- What comes of a successful answer that declares a token. -/
theorem exists_fetchGrant (hurl : Url.parse credentials.tokenUrl = .ok url)
    (ha : Answered network s (tokenRequest credentials url) status body)
    (hs : isSuccess status = true) (hg : Declares body g) :
    ∃ s₁, fetchGrant network credentials s = (.ok g, s₁) := by
  have hfetch : (fetchGrant network credentials s).1 = .ok g := by
    rw [fetchGrant_eq hurl, fetch_of_answered ha]
    show understandGrant status body = _
    rw [understandGrant, if_pos hs, decodeBody, readAs_grant?_eq_some_iff.2 hg]
  exact ⟨_, Prod.ext hfetch rfl⟩

/-! ### The main statement -/

/-- What becomes of the tokens that come after a run. -/
structure Timed (es : List Access.Event) (m : Machine) : Prop where
  /-- The clock can show the time of a token's renewal if the token, which lives for five minutes
  unless it says something else, does not outlive the clock by more than the margin. -/
  shows : m.now / 1000 ≤ Access.clockEnd → ∀ g,
    Shows m.now g ↔ g.lifetime.getD 300 ≤ 30 + (Access.clockEnd - m.now / 1000)
  /-- A call that asked for a token has the one that comes if the clock can show the time of its
  renewal, and until then it is kept. -/
  ready : ∀ k g, m.phase? k = some .requesting → Shows m.now g → ∃ m',
    m.step (.move k (.receive (.ok g))) = some m' ∧ m'.phase? k = some (.ready g.token) ∧
      m'.token = some ⟨g.token, m.now + (g.lifetime.getD 300 - 30) * 1000⟩
  /-- Otherwise the call crashes. The token stays as it is, the lock goes to the call that waited
  first, and nothing else happens to the others. -/
  crash : ∀ k g, m.phase? k = some .requesting → ¬ Shows m.now g → ∃ m',
    m.step (.move k (.receive (.ok g))) = some m' ∧ m'.phase? k = some .crashed ∧
      m'.token = m.token ∧ m'.holder = m.queue.head? ∧ m'.queue = m.queue.tail ∧
        ∀ j p, j ≠ k → m.phase? j = some p →
          m'.phase? j = some (if m.queue.head? = some j then .holding else p)
  /-- No call crashes for another reason. -/
  only : ∀ k, m.phase? k = some .crashed → ∃ es₁ m₁ g,
    es₁ ++ [.move k (.receive (.ok g))] <+: es ∧ Machine.start.run es₁ = some m₁ ∧
      m₁.phase? k = some .requesting ∧ ¬ Shows m₁.now g
  /-- So a client that asks for a token has the one that a successful answer declares, if the clock
  can show the time of its renewal; otherwise it crashes, and asks again for the next question. -/
  client : ∀ {σ : Type} (network : Network σ) (c : AccountsClient) (credentials : Credentials)
    (url : Url) (s : σ) (status : Nat) (body : Bytes) (g : Grant), c.access = m →
      AsksForToken c credentials url →
      Answered network s (tokenRequest credentials url) status body → isSuccess status = true →
      Declares body g →
        (Shows m.now g → (c.bearer network s).1 = .ok (some (m.calls.length, g.token))) ∧
        (¬ Shows m.now g → (c.bearer network s).1 = .error .crashed ∧
          AsksForToken (c.bearer network s).2.1 credentials url)

/-- **A lifetime crashes a call exactly if its end, less the margin, is beyond what the clock
shows.** -/
theorem timed_of_run (es : List Access.Event) (m : Machine) (h : Machine.start.run es = some m) :
    Timed es m where
  shows hnow _ := Access.shows_iff hnow
  ready k g hk hg := ⟨_, Machine.step_receive_of_requesting hk _,
    Machine.receive_of_shows (Machine.locked_of_run h) hk hg⟩
  crash k g hk hg := by
    have hqueue := (Machine.locked_of_run h).not_mem_queue hk rfl
    refine ⟨_, Machine.step_receive_of_requesting hk _, ?_⟩
    rw [Machine.receive, Access.keep?_of_not_shows hg]
    refine ⟨Machine.phase?_leave_self hk hqueue, Machine.leave_token, Machine.holder_leave,
      Machine.queue_leave, fun j p hne hj ↦ ?_⟩
    rw [Machine.phase?_leave hj, if_neg (Ne.symm hne)]
  only := Machine.exists_of_crashed h
  client network c credentials url s status body g hc hasks ha hs hg := by
    subst hc
    obtain ⟨s₁, hgrant⟩ := exists_fetchGrant hasks.url_eq ha hs hg
    constructor
    · intro hshows
      rw [bearer_of_renewed hasks.credentials_eq hasks.free hasks.alone hasks.stale hgrant
        (Access.keep?_of_shows hshows)]
    · intro hshows
      rw [bearer_of_crashed hasks.credentials_eq hasks.free hasks.alone hasks.stale hgrant
        (Access.keep?_of_not_shows hshows)]
      exact ⟨rfl, hasks.credentials_eq, hasks.url_eq, hasks.free, hasks.alone, hasks.stale⟩

/-- Two calls want a token. The one that comes to the first of them declares the longest lifetime,
so that this call crashes; the other one asks then, gets a token and keeps it. -/
def longestLifetime : List Access.Event :=
  [.call, .call, .move 0 .acquire, .move 1 .acquire, .move 0 .look,
    .move 0 (.receive (.ok ⟨"a", some Decimal.maxU64⟩)), .move 1 .look,
    .move 1 (.receive (.ok ⟨"b", some 60⟩))]

theorem timed_longestLifetime : ∃ m, Machine.start.run longestLifetime = some m ∧
    m.token = some ⟨"b", 30000⟩ ∧ m.calls = [.crashed, .ready "b"] ∧ Timed longestLifetime m := by
  have hrun : (Machine.start.run longestLifetime).any (fun m ↦ m.token = some ⟨"b", 30000⟩ ∧
      m.calls = [.crashed, .ready "b"]) = true := by decide
  obtain ⟨m, hm, hq⟩ := (Option.any_eq_true _ _).1 hrun
  obtain ⟨htoken, hcalls⟩ := of_decide_eq_true hq
  exact ⟨m, hm, htoken, hcalls, timed_of_run _ _ hm⟩

/-- A client of the same system with credentials. -/
def member : AccountsClient :=
  { gateway with credentials := some ⟨"id", "secret", "https://tokens.example/"⟩ }

/-- A network on which every request is answered with the same token. -/
def answering (body : Bytes) : Network Unit :=
  fun s _ ↦ (.ok ⟨200, none, [body], none⟩, s)

/-- **There is a lifetime that crashes a client**: the longest that can be declared. -/
theorem bearer_crashed_of_longest :
    let body := Utf8.encodeText
      "\x7b\"access_token\": \"t\", \"expires_in\": 18446744073709551615\x7d"
    let url : Url := ⟨"https", some ⟨"", "", "tokens.example", none⟩, .segments [""], none, none⟩
    let credentials : Credentials := ⟨"id", "secret", "https://tokens.example/"⟩
    AsksForToken member credentials url ∧
      Answered (answering body) () (tokenRequest credentials url) 200 body ∧
      isSuccess 200 = true ∧ Declares body ⟨"t", some 18446744073709551615⟩ ∧
      (member.bearer (answering body) ()).1 = .error .crashed := by
  intro body url credentials
  have hurl : Url.parse credentials.tokenUrl = .ok url := by decide +kernel
  have hg : Declares body ⟨"t", some 18446744073709551615⟩ :=
    readAs_grant?_eq_some_iff.1 (by decide +kernel)
  have ha : Answered (answering body) () (tokenRequest credentials url) 200 body :=
    ⟨by decide +kernel, ⟨none, [body], (), rfl, nofun, List.append_nil _⟩, by decide +kernel⟩
  have hasks : AsksForToken member credentials url := ⟨rfl, hurl, rfl, rfl, rfl⟩
  obtain ⟨s₁, hgrant⟩ := exists_fetchGrant hurl ha rfl hg
  refine ⟨hasks, ha, rfl, hg, ?_⟩
  rw [bearer_of_crashed hasks.credentials_eq hasks.free hasks.alone hasks.stale hgrant
    (Access.keep?_of_not_shows (by decide))]

end AccountsClient

end Licensing.Client
