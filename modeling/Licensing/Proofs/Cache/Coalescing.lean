import Licensing.Proofs.Cache.Balance

/-!
# Callers that miss together share one request

When nothing fresh is remembered for an organization and callers start to ask about it, at any
times and whoever is cancelled, one request comes back and all the answers are its outcome. The
next request would be sent only when that outcome is no longer fresh, when it had to go to make
room for others, or for a caller that does not take what is remembered; a run without these is
*calm* (`Calm`). The statement is `coalesced_of_run`, and the invariant behind it is `Together`.
-/

namespace Licensing.Cache

/-- A caller has found no answer with the lock, and sends its request or waits for it. -/
def Phase.isRequesting : Phase → Bool
  | .cleared _ | .fetching _ => true
  | _ => false

/-- Who makes a request has a lock. -/
theorem Phase.held?_of_isRequesting {p : Phase} (h : p.isRequesting = true) :
    ∃ l, p.held? = some l := by
  cases p with
  | cleared l | fetching l => exact ⟨l, rfl⟩
  | _ => exact absurd h (by simp [isRequesting])

namespace Machine

variable {m₀ m m' : Machine} {es es₀ : List Event} {e : Event} {n k : Nat} {c : Caller}
  {l : Lookup} {org : String}

/-! ### Room -/

/-- The organizations that are remembered at first or come in during a run. -/
def orgs (m₀ : Machine) (es : List Event) : Finset String :=
  (m₀.store.entries.keys ++ m₀.storedOrgs es).toFinset

/-- The organizations of a run stay those of a longer run. -/
theorem orgs_subset_concat (h : m₀.run es = some m) (hs : Step m e m') :
    m₀.orgs es ⊆ m₀.orgs (es ++ [e]) := by
  intro about hmem
  rw [orgs, List.mem_toFinset, List.mem_append] at hmem ⊢
  rw [storedOrgs_concat h hs]
  exact hmem.imp_right (List.mem_append_left _)

/-- Whoever stores an outcome does so for its own organization, which is then among them. -/
theorem mem_orgs_record {o : Outcome} (h : m₀.run es = some m)
    (hs : Step m (.move n (.store o)) m') (hc : m.callers[n]? = some c) :
    c.org ∈ m₀.orgs (es ++ [.move n (.store o)]) := by
  rw [orgs, storedOrgs_concat h hs, signal?_store hc]
  simp [Signal.stored?]

/-- What is remembered was remembered at first or came in. -/
theorem mem_orgs_of_mem_keys (h : m₀.run es = some m) :
    ∀ about ∈ m.store.entries.keys, about ∈ m₀.orgs es := by
  refine run_induction (P := fun es m ↦ ∀ about ∈ m.store.entries.keys, about ∈ m₀.orgs es)
    (fun about hmem ↦ ?_) (fun es e m m' hrun ih hs about hmem ↦ ?_) h
  · exact List.mem_toFinset.2 (List.mem_append_left _ hmem)
  · rcases store_of_step hs with ⟨hstore, -⟩ | ⟨n, c, lock, o, rfl, hc, -, hstore⟩
    · rw [hstore] at hmem
      exact orgs_subset_concat hrun hs (ih about hmem)
    · rw [hstore] at hmem
      rcases List.mem_cons.1 (Store.keys_record_subset o hmem) with rfl | hmem
      · exact mem_orgs_record hrun hs hc
      · exact orgs_subset_concat hrun hs (ih about hmem)

/-- While no more organizations come in than there is room for, nothing has to go. -/
theorem room_of_run {o : Outcome} (h : m₀.run es = some m)
    (hs : Step m (.move n (.store o)) m') (hc : m.callers[n]? = some c)
    (hroom : (m₀.orgs (es ++ [.move n (.store o)])).card ≤ m₀.config.room) :
    m.store.entries.contains c.org = true ∨ m.store.entries.size < m.config.room := by
  refine or_iff_not_imp_left.2 fun hnot ↦ ?_
  have hnew : c.org ∉ m.store.entries.keys.toFinset := by
    rw [List.mem_toFinset, OrderedMap.mem_keys_iff, ← OrderedMap.contains_eq_true_iff]
    exact hnot
  have hsub : insert c.org m.store.entries.keys.toFinset ⊆
      m₀.orgs (es ++ [.move n (.store o)]) := by
    refine Finset.insert_subset (mem_orgs_record h hs hc) fun about hmem ↦ ?_
    exact orgs_subset_concat h hs (mem_orgs_of_mem_keys h about (List.mem_toFinset.1 hmem))
  have hcard := Finset.card_le_card hsub
  rw [Finset.card_insert_of_notMem hnew, OrderedMap.card_keys] at hcard
  rw [config_of_run h]
  omega

/-! ### Calm runs -/

/-- Nothing fresh is remembered for an organization, and nobody is asking about it. -/
structure Idle (m : Machine) (org : String) : Prop where
  /-- A caller would find no answer. -/
  lookup?_eq_none : m.lookup? org none = none
  /-- The callers that asked are done. -/
  finished : ∀ (k : Nat) (c : Caller), m.callers[k]? = some c → c.org = org →
    ∃ answer, c.phase = .finished answer

/-- Where nobody asks there is no request on the way. -/
theorem Idle.inFlight_eq_zero (hidle : Idle m org) : m.inFlight org = 0 := by
  refine List.countP_eq_zero.2 fun c hc hq ↦ ?_
  obtain ⟨k, hk⟩ := List.mem_iff_getElem?.1 hc
  simp only [Bool.and_eq_true, decide_eq_true_eq] at hq
  obtain ⟨answer, hp⟩ := hidle.finished k c hk hq.1
  rw [hp] at hq
  exact absurd hq.2 (by simp [Phase.isFetching])

/-- A run in which there is no reason for a second request about an organization. -/
structure Calm (m₀ : Machine) (es : List Event) (m : Machine) (org : String) : Prop where
  /-- Every caller takes what is remembered. -/
  force_eq : ∀ force, Event.call org force ∈ es → force = false
  /-- There is room for all organizations that come in. -/
  room : (m₀.orgs es).card ≤ m₀.config.room
  /-- The first request that came back did so less than the stated time ago. -/
  fresh : ∀ f, (m₀.fetches es org).head? = some f → m.now < f.time + m₀.config.ttl

/-- A calm run is calm from its start on. -/
theorem Calm.init (hcalm : Calm m₀ (es ++ [e]) m' org) (h : m₀.run es = some m)
    (hs : Step m e m') : Calm m₀ es m org where
  force_eq force hmem := hcalm.force_eq force (List.mem_append_left _ hmem)
  room := (Finset.card_le_card (orgs_subset_concat h hs)).trans hcalm.room
  fresh f hf := by
    refine (now_le_of_step hs).trans_lt (hcalm.fresh f ?_)
    rw [fetches_concat h hs, List.head?_append, hf]
    rfl

/-! ### The invariant -/

/-- What has come in about an organization along a calm run: nothing, and what is remembered is
what it was at first; or one outcome, which is remembered, for a request that was sent along the
run, and nobody is about to send another. -/
def Slot (m₀ m : Machine) (fs : List Fetch) (org : String) : Prop :=
  (fs = [] ∧ m.store.entries.get? org = m₀.store.entries.get? org) ∨
    ∃ f, fs = [f] ∧ m₀.callers.length ≤ f.caller ∧
      (∃ e, m.store.entries.get? org = some e ∧ EntryTells e f) ∧
      ∀ (k : Nat) (c : Caller), m.callers[k]? = some c → c.org = org →
        c.phase.isRequesting = false

/-- What a caller is answered when a request has come back: its outcome, and that it was not
remembered exactly if the request was the caller's own. -/
def Shares (f : Fetch) (k : Nat) (l : Lookup) : Prop :=
  l.snapshot = Outcome.snapshot f.outcome ∧ l.status = Outcome.status f.outcome ∧
    (l.hit = false ↔ f.caller = k)

/-- What an idle cache and its callers are like along a calm run. -/
structure Together (m₀ : Machine) (es : List Event) (m : Machine) (org : String) : Prop where
  /-- Who started along the run takes what is remembered, and the others are done. -/
  caller : ∀ (k : Nat) (c : Caller), m.callers[k]? = some c → c.org = org →
    (∃ answer, c.phase = .finished answer) ∨ (m₀.callers.length ≤ k ∧ c.force = false)
  /-- At most one request has come back. -/
  slot : Slot m₀ m (m₀.fetches es org) org
  /-- Who has got an answer in the run has the outcome of the request that came back. -/
  answer : ∀ (k : Nat) (c : Caller) (l : Lookup), m₀.callers.length ≤ k →
    m.callers[k]? = some c → c.org = org → c.phase.answer? = some l →
      ∃ f, m₀.fetches es org = [f] ∧ Shares f k l

/-- Nobody has come yet, so nothing is to be told of those who come. -/
theorem Together.start (hidle : Idle m₀ org) : Together m₀ [] m₀ org where
  caller k c hc horg := .inl (hidle.finished k c hc horg)
  slot := .inl ⟨rfl, rfl⟩
  answer k c l hk hc := by
    rw [List.getElem?_eq_none hk] at hc
    exact absurd hc (by simp)

/-- A caller about the organization has its answer, or came after the start and does not insist on a
new one. -/
theorem Together.caller_step (h : Together m₀ es m org) (hrun : m₀.run es = some m)
    (hs : Step m e m') (hforce : ∀ force, e = .call org force → force = false) (k : Nat)
    (c' : Caller) (hc' : m'.callers[k]? = some c') (horg : c'.org = org) :
    (∃ answer, c'.phase = .finished answer) ∨
      (m₀.callers.length ≤ k ∧ c'.force = false) := by
  rcases caller_of_step hs hc' with ⟨rfl, he, -⟩ | ⟨c, hc, horg', hforce', hb⟩
  · exact .inr ⟨length_le_of_run hrun, hforce _ (horg ▸ he)⟩
  · rcases h.caller k c hc (horg' ▸ horg) with ⟨answer, hp⟩ | ⟨hk, hf⟩
    · exact .inl ⟨answer, hb.finished hp⟩
    · exact .inr ⟨hk, hforce'.trans hf⟩

/-- A caller comes to send its request when it looks again with the lock and finds no answer. -/
theorem Turn.isRequesting {mv : Move} {p : Phase} (ht : Turn m c mv p)
    (hp : p.isRequesting = true) : c.phase.isRequesting = true ∨
      ∃ seen lock, c.phase = .holding seen lock ∧
        m.lookup? c.org (if c.force then some seen else none) = none := by
  cases ht with
  | clear hq hl => exact .inr ⟨_, _, hq, hl⟩
  | send hq => exact .inl (by rw [hq]; rfl)
  | _ => exact absurd hp (by simp [Phase.isRequesting])

/-- While something fresh is remembered, nobody comes to send a request. -/
theorem Together.quiet_step (h : Together m₀ es m org) (hs : Step m e m')
    (hl : m.lookup? org none = some l)
    (hquiet : ∀ (k : Nat) (c : Caller), m.callers[k]? = some c → c.org = org →
      c.phase.isRequesting = false) (k : Nat) (c' : Caller) (hc' : m'.callers[k]? = some c')
    (horg : c'.org = org) : c'.phase.isRequesting = false := by
  rw [← Bool.not_eq_true]
  intro hreq
  rcases caller_of_step hs hc' with ⟨-, -, hp⟩ | ⟨c, hc, horg', -, hb⟩
  · rw [hp] at hreq
    exact absurd hreq (by simp [Phase.isRequesting])
  · have hnot := hquiet k c hc (horg' ▸ horg)
    rcases hb with hb | ⟨_, _, -, hp⟩ | ⟨mv, -, ht⟩
    · rw [hb, hnot] at hreq
      exact absurd hreq (by simp)
    · rw [hp] at hreq
      exact absurd hreq (by simp [Phase.isRequesting])
    · -- Looking again would have found what is remembered.
      rcases ht.isRequesting hreq with hold | ⟨seen, lock, hp, hnone⟩
      · exact absurd (hold.symm.trans hnot) (by simp)
      · rcases h.caller k c hc (horg' ▸ horg) with ⟨answer, hq⟩ | ⟨-, hf⟩
        · exact absurd (hp.symm.trans hq) (by simp)
        · rw [hf, ← horg', horg] at hnone
          exact absurd (hl.symm.trans hnone) (by simp)

/-- Who sends a request for an organization is the only one to do so. -/
theorem quiet_record {o : Outcome} (hcoh : Coherent m)
    (hs : Step m (.move n (.store o)) m') (hc : m.callers[n]? = some c)
    (k : Nat) (c' : Caller) (hc' : m'.callers[k]? = some c') (horg : c'.org = c.org) :
    c'.phase.isRequesting = false := by
  rw [← Bool.not_eq_true]
  intro hreq
  cases hs with
  | @record n lock c₁ hc₁ hp o =>
    obtain rfl := Option.some.inj (hc.symm.trans hc₁)
    by_cases hk : n = k
    · subst hk
      have hself := getElem?_setPhase_self
        (m := { m with store := (m.store.record m.config m.now c.org o).1 }) hc₁
        (.releasing lock (some (m.store.record m.config m.now c.org o).2))
      obtain rfl := Option.some.inj (hself.symm.trans hc')
      exact absurd hreq (by simp [Phase.isRequesting])
    · rw [getElem?_setPhase_of_ne hk] at hc'
      obtain ⟨l, hl⟩ := Phase.held?_of_isRequesting hreq
      exact hk (hcoh.holder_unique hc hc' horg.symm (by rw [hp]; rfl) hl)

/-- A caller of an idle cache finds no answer as long as nothing has come in. -/
theorem Idle.lookup?_eq_none_of_run (hidle : Idle m₀ org) (h : m₀.run es = some m)
    (hsame : m.store.entries.get? org = m₀.store.entries.get? org) (newerThan : Option Nat) :
    m.lookup? org newerThan = none := by
  refine Option.eq_none_iff_forall_ne_some.2 fun l hl ↦ ?_
  obtain ⟨entry, he, hfresh, -, -⟩ := lookup?_eq_some_iff.1 hl
  have hnow := now_le_of_run h
  rw [config_of_run h] at hfresh
  have hsome : m₀.lookup? org none = some ⟨entry.snapshot, entry.status, true⟩ :=
    lookup?_eq_some_iff.2 ⟨entry, hsame ▸ he, by omega, rfl, rfl⟩
  exact absurd (hidle.lookup?_eq_none.symm.trans hsome) (by simp)

/-- Along a calm run everybody who takes what is remembered finds the outcome that has come in. -/
theorem Calm.exists_lookup? {f : Fetch} {entry : Entry} (hcalm : Calm m₀ es m org)
    (hrun : m₀.run es = some m) (hf : m₀.fetches es org = [f])
    (he : m.store.entries.get? org = some entry) (htells : EntryTells entry f) :
    ∃ l, m.lookup? org none = some l := by
  obtain ⟨-, -, hsince⟩ := htells
  have hfresh := hcalm.fresh f (by rw [hf]; rfl)
  have htime := time_le_of_mem_fetches hrun f (by rw [hf]; exact List.mem_singleton_self f)
  have hage : m.now - entry.since < m.config.ttl := by
    rw [config_of_run hrun]
    omega
  exact ⟨_, lookup?_eq_some_iff.2 ⟨entry, he, hage, rfl, rfl⟩⟩

/-- After every step no request of the organization has come back since the start, or just one has,
of a caller that came since; then its outcome is remembered, and nobody asks any more. -/
theorem Together.slot_step (h : Together m₀ es m org) (hcoh : Coherent m)
    (hrun : m₀.run es = some m) (hs : Step m e m') (hcalm : Calm m₀ (es ++ [e]) m' org) :
    Slot m₀ m' (m₀.fetches (es ++ [e]) org) org := by
  -- Unless a request about the organization comes back, what is remembered for it stays.
  have other : m₀.fetches (es ++ [e]) org = m₀.fetches es org →
      m'.store.entries.get? org = m.store.entries.get? org →
        Slot m₀ m' (m₀.fetches (es ++ [e]) org) org := by
    intro hfetches hget
    rw [hfetches, Slot, hget]
    refine h.slot.imp_right ?_
    rintro ⟨f, hf, hnew, ⟨entry, he, htells⟩, hquiet⟩
    obtain ⟨l, hl⟩ := (hcalm.init hrun hs).exists_lookup? hrun hf he htells
    exact ⟨f, hf, hnew, ⟨entry, he, htells⟩, h.quiet_step hs hl hquiet⟩
  rcases store_of_step hs with ⟨hstore, hne⟩ | ⟨n, c, lock, o, rfl, hc, hp, hstore⟩
  · exact other (fetches_concat_of_ne hrun hs hne org) (by rw [hstore])
  · have hfetches := fetches_concat_store hrun hs hc org
    by_cases horg : c.org = org
    · subst horg
      rw [if_pos rfl] at hfetches
      -- A second request cannot come back, for nobody was about to send one.
      rcases h.slot with ⟨hnil, -⟩ | ⟨-, -, -, -, hquiet⟩
      · rw [hnil] at hfetches
        have hnew : m₀.callers.length ≤ n := by
          rcases h.caller n c hc rfl with ⟨answer, hq⟩ | ⟨hn, -⟩
          · exact absurd (hp.symm.trans hq) (by simp)
          · exact hn
        have hentry := exists_entry_record m n c.org o
        rw [← hstore] at hentry
        exact .inr ⟨_, hfetches, hnew, hentry, quiet_record hcoh hs hc⟩
      · have hreq := hquiet n c hc rfl
        rw [hp] at hreq
        exact absurd hreq (by simp [Phase.isRequesting])
    · rw [if_neg horg, List.append_nil] at hfetches
      refine other hfetches ?_
      rw [hstore]
      exact Store.get?_record_of_room horg (room_of_run hrun hs hc hcalm.room)

/-- One request at most has come back. -/
theorem Slot.eq_singleton {fs : List Fetch} {f : Fetch} (h : Slot m₀ m fs org) (hf : f ∈ fs) :
    fs = [f] := by
  rcases h with ⟨rfl, -⟩ | ⟨g, rfl, -⟩
  · exact absurd hf (by simp)
  · rw [List.mem_singleton.1 hf]

/-- Who looks and finds an answer shares the request that has come back. -/
theorem Together.shares_of_lookup? {newerThan : Option Nat} (h : Together m₀ es m org)
    (hidle : Idle m₀ org) (hrun : m₀.run es = some m) (hnone : m.given? k = none)
    (hl : m.lookup? org newerThan = some l) : ∃ f ∈ m₀.fetches es org, Shares f k l := by
  rcases h.slot with ⟨-, hsame⟩ | ⟨f, hf, -, ⟨entry, he, hsnap, hstatus, -⟩, -⟩
  · have hmiss := hidle.lookup?_eq_none_of_run hrun hsame newerThan
    exact absurd (hl.symm.trans hmiss) (by simp)
  · -- What is remembered is the outcome that has come in, and the caller did not bring it.
    have hmem : f ∈ m₀.fetches es org := by rw [hf]; exact List.mem_singleton_self f
    obtain ⟨entry', he', -, -, rfl⟩ := lookup?_eq_some_iff.1 hl
    obtain rfl := Option.some.inj (he.symm.trans he')
    refine ⟨f, hmem, hsnap, hstatus, iff_of_false (by simp) ?_⟩
    rintro rfl
    have hgiven := given?_of_mem_fetches hrun f hmem
    exact absurd (hnone.symm.trans hgiven) (by simp)

/-- Whoever has an answer after a step has that of the one fetch, or what was remembered from it. -/
theorem Together.answer_step (h : Together m₀ es m org) (hidle : Idle m₀ org)
    (hrun : m₀.run es = some m) (hs : Step m e m')
    (hslot : Slot m₀ m' (m₀.fetches (es ++ [e]) org) org) (k : Nat) (c' : Caller) (l : Lookup)
    (hk : m₀.callers.length ≤ k) (hc' : m'.callers[k]? = some c') (horg : c'.org = org)
    (hl : c'.phase.answer? = some l) :
    ∃ f, m₀.fetches (es ++ [e]) org = [f] ∧ Shares f k l := by
  obtain ⟨f, hf, hshares⟩ : ∃ f ∈ m₀.fetches (es ++ [e]) org, Shares f k l := by
    rw [fetches_concat hrun hs]
    rcases given?_of_step hs ((given?_eq hc').trans hl) with hold | ⟨hnone, mv, c, rfl, hc, hg⟩
    · obtain ⟨c, hc, hans⟩ := exists_caller_of_given? hold
      obtain ⟨c₁, hc₁, horg₁, -⟩ := exists_caller_of_step hs hc
      obtain rfl := Option.some.inj (hc'.symm.trans hc₁)
      obtain ⟨f, hf, hshares⟩ := h.answer k c l hk hc (horg₁ ▸ horg) hans
      exact ⟨f, List.mem_append_left _ (by rw [hf]; exact List.mem_singleton_self f), hshares⟩
    · obtain ⟨c₁, hc₁, horg₁, -⟩ := exists_caller_of_step hs hc
      obtain rfl := Option.some.inj (hc'.symm.trans hc₁)
      rw [horg₁] at horg
      cases hg with
      | read newerThan hlook =>
        rw [horg] at hlook
        obtain ⟨f, hf, hshares⟩ := h.shares_of_lookup? hidle hrun hnone hlook
        exact ⟨f, List.mem_append_left _ hf, hshares⟩
      | write o =>
        refine ⟨⟨k, c.org, o, m.now⟩, List.mem_append_right _ ?_, rfl, rfl, by simp⟩
        simp [signal?_store hc, Signal.fetch?, horg]
  exact ⟨f, hslot.eq_singleton hf, hshares⟩

/-- **Every calm step keeps the callers together.** -/
theorem Together.step (h : Together m₀ es m org) (hidle : Idle m₀ org) (hcoh : Coherent m)
    (hrun : m₀.run es = some m) (hs : Step m e m') (hcalm : Calm m₀ (es ++ [e]) m' org) :
    Together m₀ (es ++ [e]) m' org := by
  have hslot := h.slot_step hcoh hrun hs hcalm
  refine ⟨h.caller_step hrun hs fun force he ↦ hcalm.force_eq force ?_, hslot,
    h.answer_step hidle hrun hs hslot⟩
  exact he ▸ List.mem_append_right _ (List.mem_singleton_self _)

/-- **Those who come together go together**: this is kept up by every event as long as there is room
and nothing expires. -/
theorem together_of_run (hcoh : Coherent m₀) (hidle : Idle m₀ org) (h : m₀.run es = some m)
    (hcalm : Calm m₀ es m org) : Together m₀ es m org := by
  refine run_induction (P := fun es m ↦ Calm m₀ es m org → Together m₀ es m org) ?_ ?_ h hcalm
  · exact fun _ ↦ .start hidle
  · intro es e m m' hrun ih hs hcalm
    exact (ih (hcalm.init hrun hs)).step hidle (hcoh.run hrun) hrun hs hcalm

/-! ### The main statement -/

/-- What callers that ask about an organization at the same time have in common. -/
structure Coalesced (m₀ : Machine) (es : List Event) (m : Machine) (org : String) : Prop where
  /-- At most one request has come back. -/
  fetches_le_one : (m₀.fetches es org).length ≤ 1
  /-- The requests that were sent have come back, were given up with their callers, or are out. -/
  sentCount_eq : m₀.sentCount es org =
    (m₀.fetches es org).length + m₀.lostCount es org + m.inFlight org
  /-- At most one is out. -/
  inFlight_le_one : m.inFlight org ≤ 1
  /-- Who is done with an answer has the outcome of the request that came back, which was its own
  exactly if the answer was not remembered. -/
  answer : ∀ (k : Nat) (c : Caller) (l : Lookup), m₀.callers.length ≤ k →
    m.callers[k]? = some c → c.org = org → c.phase = .finished (some l) →
      ∃ f, m₀.fetches es org = [f] ∧ l.Tells f.outcome ∧ (l.hit = false ↔ f.caller = k)
  /-- Two callers that are done with an answer have the same. -/
  agree : ∀ (i j : Nat) (a b : Caller) (k l : Lookup), m₀.callers.length ≤ i →
    m₀.callers.length ≤ j → m.callers[i]? = some a → m.callers[j]? = some b → a.org = org →
      b.org = org → a.phase = .finished (some k) → b.phase = .finished (some l) →
        k.snapshot = l.snapshot ∧ k.status = l.status
  /-- When nobody has got an answer, no request has come back, and what is remembered is what it
  was. -/
  unwritten : (∀ (k : Nat) (c : Caller), m₀.callers.length ≤ k → m.callers[k]? = some c →
    c.org = org → c.phase.answer? = none) →
      m₀.fetches es org = [] ∧ m.store.entries.get? org = m₀.store.entries.get? org

/-- Two of them are told the same. -/
theorem Together.agree {i j : Nat} {a b : Caller} {l' : Lookup} (h : Together m₀ es m org)
    (hi : m₀.callers.length ≤ i) (hj : m₀.callers.length ≤ j) (ha : m.callers[i]? = some a)
    (hb : m.callers[j]? = some b) (horga : a.org = org) (horgb : b.org = org)
    (hla : a.phase.answer? = some l) (hlb : b.phase.answer? = some l') :
    l.snapshot = l'.snapshot ∧ l.status = l'.status := by
  obtain ⟨f, hf, hsnap, hstatus, -⟩ := h.answer i a l hi ha horga hla
  obtain ⟨g, hg, hsnap', hstatus', -⟩ := h.answer j b l' hj hb horgb hlb
  obtain rfl := List.singleton_inj.1 (hf.symm.trans hg)
  exact ⟨hsnap.trans hsnap'.symm, hstatus.trans hstatus'.symm⟩

/-- If none of them has an answer, nothing was fetched, and what is remembered is what was
remembered. -/
theorem Together.unwritten (h : Together m₀ es m org) (hrun : m₀.run es = some m)
    (hnone : ∀ (k : Nat) (c : Caller), m₀.callers.length ≤ k → m.callers[k]? = some c →
      c.org = org → c.phase.answer? = none) :
    m₀.fetches es org = [] ∧ m.store.entries.get? org = m₀.store.entries.get? org := by
  rcases h.slot with hslot | ⟨f, hf, hnew, -, -⟩
  · exact hslot
  · have hmem : f ∈ m₀.fetches es org := by rw [hf]; exact List.mem_singleton_self f
    obtain ⟨c, hc, horg⟩ := exists_caller_of_mem_fetches hrun f hmem
    have hgiven := given?_of_mem_fetches hrun f hmem
    rw [given?_eq hc, hnone f.caller c hnew hc horg] at hgiven
    exact absurd hgiven (by simp)

/-- **Callers that miss together share one request.** From every state in which nothing fresh is
remembered for an organization and nobody asks about it, along every run that is calm for it. -/
theorem coalesced_of_run (cfg : Config) (es₀ es : List Event) (m₀ m : Machine) (org : String)
    (h₀ : (start cfg).run es₀ = some m₀) (hidle : Idle m₀ org) (h : m₀.run es = some m)
    (hcalm : Calm m₀ es m org) : Coalesced m₀ es m org := by
  have hcoh := coherent_of_run h₀
  have htogether := together_of_run hcoh hidle h hcalm
  refine
    { fetches_le_one := ?_
      sentCount_eq := ?_
      inFlight_le_one := (hcoh.run h).inFlight_le_one org
      answer := fun k c l hk hc horg hp ↦ ?_
      agree := fun i j a b k l hi hj ha hb horga horgb hpa hpb ↦
        htogether.agree hi hj ha hb horga horgb (by rw [hpa]; rfl) (by rw [hpb]; rfl)
      unwritten := htogether.unwritten h }
  · rcases htogether.slot with ⟨hnil, -⟩ | ⟨f, hf, -⟩
    · rw [hnil]
      exact Nat.zero_le _
    · rw [hf]
      exact le_rfl
  · have hbalance := balance_of_run h org
    rw [hidle.inFlight_eq_zero] at hbalance
    omega
  · obtain ⟨f, hf, hsnap, hstatus, hhit⟩ := htogether.answer k c l hk hc horg (by rw [hp]; rfl)
    exact ⟨f, hf, Lookup.tells_of_eq hsnap hstatus, hhit⟩

/-- An outcome comes in and is no longer fresh. -/
def staleOutcome : List Event :=
  [.call "a" false, .move 0 .check, .move 0 .join, .move 0 .acquire, .move 0 .recheck,
    .move 0 .fetch, .move 0 (.store (.ok .empty)), .move 0 .unlock, .move 0 .leave, .tick 1000]

/-- Two callers miss together, the one that sends its request is cancelled, the other one takes
over, and a third reads what came in. -/
def handOver : List Event :=
  [.call "a" false, .call "a" false, .move 1 .check, .move 2 .check, .move 1 .join, .move 2 .join,
    .move 1 .acquire, .move 2 .acquire, .move 1 .recheck, .move 1 .fetch, .move 1 .cancel,
    .move 1 .unlock, .move 1 .leave, .move 2 .recheck, .move 2 .fetch, .tick 5,
    .move 2 (.store (.ok .empty)), .move 2 .unlock, .move 2 .leave, .call "a" false,
    .move 3 .check]

/-- A caller is cancelled while it asks, and the one that waits for it asks again: one of two
requests is lost, and both others are told the same. -/
theorem coalesced_handOver : ∃ m₀ m, (start ⟨1000, 2⟩).run staleOutcome = some m₀ ∧
    m₀.run handOver = some m ∧ m₀.sentCount handOver "a" = 2 ∧ m₀.lostCount handOver "a" = 1 ∧
    m.answer? 3 = some ⟨.empty, 200, true⟩ ∧ Coalesced m₀ handOver m "a" := by
  have hrun₀ : ((start ⟨1000, 2⟩).run staleOutcome).any (fun m₀ ↦ m₀.lookup? "a" none = none ∧
      (∀ c ∈ m₀.callers, c.phase = .finished c.phase.answer?) ∧
      m₀.config.ttl = 1000 ∧ (m₀.orgs handOver).card ≤ m₀.config.room ∧
      m₀.sentCount handOver "a" = 2 ∧ m₀.lostCount handOver "a" = 1 ∧
      (m₀.run handOver).any (fun m ↦ (m.answer? 3 = some ⟨.empty, 200, true⟩) ∧
        (m₀.fetches handOver "a").head?.all (m.now < ·.time + 1000)) = true) = true := by
    decide
  obtain ⟨m₀, hm₀, hq₀⟩ := (Option.any_eq_true _ _).1 hrun₀
  obtain ⟨hlookup, hdone, httl, hroom, hsent, hlost, hrun⟩ := of_decide_eq_true hq₀
  obtain ⟨m, hm, hq⟩ := (Option.any_eq_true _ _).1 hrun
  obtain ⟨hanswer, hfresh⟩ := of_decide_eq_true hq
  refine ⟨m₀, m, hm₀, hm, hsent, hlost, hanswer, coalesced_of_run _ _ _ _ _ _ hm₀ ?_ hm ?_⟩
  · exact ⟨hlookup, fun k c hc _ ↦ ⟨_, hdone c (List.mem_of_getElem? hc)⟩⟩
  · refine ⟨fun force hmem ↦ by simpa [handOver] using hmem, hroom, fun f hf ↦ ?_⟩
    rw [hf] at hfresh
    rw [httl]
    exact of_decide_eq_true hfresh

end Machine

end Licensing.Cache
