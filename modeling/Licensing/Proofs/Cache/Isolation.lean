import Licensing.Proofs.Cache.Restriction
import Licensing.Proofs.Cache.Solo

/-!
# Organizations do not influence each other

Whoever else asks the cache, the callers about one organization do and are answered what they
would be if nobody else did, as long as there is room for all organizations that come in. A run and
what is left of it without the other callers (`only`) go along side by side, and the organization
sees the same in both (`Mirrors`): what it does itself is done in both (`Mirrors.step`), and what
others do is not seen (`Mirrors.elsewhere`). The statement is `undisturbed_of_run`.
-/

namespace Licensing.Cache.Machine

variable {m m' m₁ m₁' : Machine} {org : String} {n k : Nat} {c : Caller} {e e' : Event}
  {es rest : List Event} {strict : Prop}

/-! ### Two machines with one view -/

/-- A machine and what is left of it without the callers about other organizations. -/
structure Mirrors (org : String) (strict : Prop) (m m' : Machine) : Prop where
  /-- Its flights and locks are right. -/
  coherent : Coherent m
  /-- So are those of what is left. -/
  coherent_only : Coherent m'
  /-- The callers about the organization see the same. -/
  solo_eq : m'.solo org = m.solo org
  /-- There are no others left. -/
  org_eq : ∀ c ∈ m'.callers, c.org = org
  /-- If they compare generations, this counts. -/
  strict_of_force : ∀ c ∈ m.callers, c.org = org → c.force = true → strict
  /-- Then generations are in order, and no more outcomes have come in without the others. -/
  dated : strict → Dated m ∧ Dated m' ∧ m'.store.generation ≤ m.store.generation

/-- At the start a cache is its own mirror. -/
theorem mirrors_start (cfg : Config) (org : String) (strict : Prop) :
    Mirrors org strict (start cfg) (start cfg) where
  coherent := coherent_start cfg
  coherent_only := coherent_start cfg
  solo_eq := rfl
  org_eq c h := absurd h (by simp [start])
  strict_of_force c h := absurd h (by simp [start])
  dated _ := ⟨dated_start cfg, dated_start cfg, le_rfl⟩

/-- There are as many callers about an organization as places were given out for it. -/
theorem length_filter_eq_place :
    (m.callers.filter fun c ↦ c.org = org).length = m.place org m.callers.length := by
  rw [place, List.take_length, List.countP_eq_length_filter]

/-- If all callers ask about one organization, their places are their numbers. -/
theorem place_of_forall (h : ∀ c ∈ m.callers, c.org = org) (hk : k ≤ m.callers.length) :
    m.place org k = k := by
  rw [place, List.countP_eq_length.2, List.length_take, Nat.min_eq_left hk]
  intro c hc
  simpa using h c (List.mem_of_mem_take hc)

/-- What is left of a caller tells what it wants and how far it has come. -/
theorem soloCaller_inj {c' : Caller} (h : m'.soloCaller org c' = m.soloCaller org c) :
    c'.force = c.force ∧
      c'.phase.blur (m'.mark org c'.force) = c.phase.blur (m.mark org c.force) := by
  rw [soloCaller, soloCaller, Caller.mk.injEq] at h
  exact h.2

namespace Mirrors

variable (h : Mirrors org strict m m')
include h

/-- What is left of a machine has its time. -/
theorem now_eq : m'.now = m.now :=
  have hnow : (m'.solo org).now = (m.solo org).now := by rw [h.solo_eq]
  hnow

/-- The callers that are left are seen as those about the organization are seen in the whole
machine. -/
theorem callers_eq : m'.callers.map (m'.soloCaller org) =
    (m.callers.filter fun c ↦ c.org = org).map (m.soloCaller org) := by
  have hcallers := congrArg Machine.callers h.solo_eq
  rwa [solo, solo, List.filter_eq_self.2 fun c hc ↦ by simpa using h.org_eq c hc] at hcallers

/-- Callers are numbered without the others. -/
theorem length_eq : m'.callers.length = m.place org m.callers.length := by
  rw [← length_filter_eq_place, ← List.length_map (m'.soloCaller org), h.callers_eq,
    List.length_map]

/-- Among the callers that are left, places are numbers. -/
theorem place_eq_self (hk : k ≤ m'.callers.length) : m'.place org k = k :=
  place_of_forall h.org_eq hk

/-- A caller about the organization is there without the others. -/
theorem exists_twin (hc : m.callers[n]? = some c) (horg : c.org = org) :
    ∃ c', m'.callers[m.place org n]? = some c' ∧ c'.org = org ∧
      m'.soloCaller org c' = m.soloCaller org c := by
  have hget := congrArg (·[m.place org n]?) h.callers_eq
  simp only [List.getElem?_map] at hget
  rw [place, getElem?_filter_countP hc (by simpa using horg), ← place] at hget
  obtain ⟨c', hc', heq⟩ := Option.map_eq_some_iff.1 hget
  exact ⟨c', hc', h.org_eq c' (List.mem_of_getElem? hc'), heq⟩

/-- If a caller that is left compares generations, so does one of the whole machine. -/
theorem strict_of_force_only (hc : c ∈ m'.callers) (hforce : c.force = true) : strict := by
  have hmem := List.mem_map_of_mem (f := m'.soloCaller org) hc
  rw [h.callers_eq] at hmem
  obtain ⟨b, hb, heq⟩ := List.mem_map.1 hmem
  obtain ⟨hb, hborg⟩ := List.mem_filter.1 hb
  have hsame : b.force = c.force := (soloCaller_inj heq).1
  exact h.strict_of_force b hb (by simpa using hborg) (hsame.trans hforce)

/-- A move in the whole machine comes in time for the comparison of generations. -/
theorem timely {mv : Move} (hwrap : strict → ∀ o, mv = .store o →
    m.store.generation + 1 < Store.generations) : Timely m org mv where
  entry_le := fun ⟨b, hb, hborg, hforce⟩ e he ↦
    (h.dated (h.strict_of_force b hb hborg hforce)).1.entry_le org e he
  seen_le b hb hborg hforce o hmv :=
    have hstrict := h.strict_of_force b hb hborg hforce
    ⟨(h.dated hstrict).1.seen_le b hb, hwrap hstrict o hmv⟩

/-- So it does in what is left of it. -/
theorem timely_only {mv : Move} (hwrap : strict → ∀ o, mv = .store o →
    m.store.generation + 1 < Store.generations) : Timely m' org mv where
  entry_le := fun ⟨b, hb, _, hforce⟩ e he ↦
    (h.dated (h.strict_of_force_only hb hforce)).2.1.entry_le org e he
  seen_le b hb _ hforce o hmv := by
    have hstrict := h.strict_of_force_only hb hforce
    obtain ⟨-, hdated, hle⟩ := h.dated hstrict
    have hlt := hwrap hstrict o hmv
    exact ⟨hdated.seen_le b hb, by omega⟩

end Mirrors

/-- A move adds no caller. -/
theorem exists_mem_of_move {mv : Move} (hs : Step m (.move n mv) m') (hc : c ∈ m'.callers) :
    ∃ b ∈ m.callers, c.org = b.org ∧ c.force = b.force := by
  obtain ⟨k, hk⟩ := List.mem_iff_getElem?.1 hc
  rcases caller_of_step hs hk with ⟨-, he, -⟩ | ⟨b, hb, horg, hforce, -⟩
  · exact absurd he (by simp)
  · exact ⟨b, List.mem_of_getElem? hb, horg, hforce⟩

/-- If a machine remembers an outcome when another one does, its generation stays the lower one. -/
theorem generation_le_of_steps {mv : Move} {n' : Nat}
    (hs : Step m (.move n mv) m₁) (hs' : Step m' (.move n' mv) m₁')
    (hle : m'.store.generation ≤ m.store.generation)
    (hwrap : ∀ o, mv = .store o → m.store.generation + 1 < Store.generations) :
    m₁'.store.generation ≤ m₁.store.generation := by
  rcases store_of_step hs with ⟨hstore, hne⟩ | ⟨_, c, lock, o, heq, -, -, hstore⟩
  · rcases store_of_step hs' with ⟨hstore', -⟩ | ⟨_, c', lock', o', heq', -⟩
    · rwa [hstore, hstore']
    · exact absurd (congrArg (Event.move n) (Event.move.inj heq').2) (hne n o')
  · have hgen : m₁.store.generation = m.store.generation + 1 := by
      rw [hstore]
      exact Nat.mod_eq_of_lt (hwrap o (Event.move.inj heq).2)
    rcases store_of_step hs' with ⟨hstore', -⟩ | ⟨_, c', lock', o', -, -, -, hstore'⟩
    · rw [hstore']
      omega
    · have hgen' : m₁'.store.generation ≤ m'.store.generation + 1 := by
        rw [hstore']
        exact Nat.mod_le _ _
      omega

/-- **A move of a caller about the organization** is possible without the others, and what it
brings about is the same. -/
theorem Mirrors.move {mv : Move} (h : Mirrors org strict m m')
    (hfits : Fits org strict m (.move n mv :: es)) (hs : m.step (.move n mv) = some m₁)
    (hc : m.callers[n]? = some c) (horg : c.org = org) :
    ∃ m₁', m'.step (.move (m.place org n) mv) = some m₁' ∧ Mirrors org strict m₁ m₁' := by
  obtain ⟨c', hc', horg', -⟩ := h.exists_twin hc horg
  have hwrap : strict → ∀ o, mv = .store o → m.store.generation + 1 < Store.generations :=
    fun hstrict o hmv ↦ hfits.generation_lt hs hstrict n o (congrArg _ hmv)
  have hplace : m'.place org (m.place org n) = m.place org n :=
    h.place_eq_self (List.getElem?_eq_some_iff.1 hc').1.le
  have hview := solo_step h.coherent (h.timely hwrap) hc horg
  have hview' := solo_step h.coherent_only (h.timely_only hwrap) hc' horg'
  rw [hplace, h.solo_eq, ← hview, hs, Option.map_some] at hview'
  obtain ⟨m₁', hs', hsolo⟩ := Option.map_eq_some_iff.1 hview'
  have hrule := step_of_step hs
  have hrule' := step_of_step hs'
  refine ⟨m₁', hs', h.coherent.step hrule, h.coherent_only.step hrule', hsolo, fun b hb ↦ ?_,
    fun b hb hborg hforce ↦ ?_, fun hstrict ↦ ?_⟩
  · obtain ⟨a, ha, heq, -⟩ := exists_mem_of_move hrule' hb
    exact heq.trans (h.org_eq a ha)
  · obtain ⟨a, ha, heq, hforce'⟩ := exists_mem_of_move hrule hb
    exact h.strict_of_force a ha (heq ▸ hborg) (hforce' ▸ hforce)
  · obtain ⟨hdated, hdated', hle⟩ := h.dated hstrict
    refine ⟨(hdated.step hrule (hfits.generation_lt hs hstrict)).1,
      (hdated'.step hrule' fun k o heq ↦ ?_).1,
      generation_le_of_steps hrule hrule' hle (hwrap hstrict)⟩
    have hlt := hwrap hstrict o (Event.move.inj heq).2
    omega

/-- A caller that starts adds nothing to what generations are compared with. -/
theorem Dated.call (h : Dated m) (about : String) (force : Bool) :
    Dated { m with callers := m.callers ++ [⟨about, force, .entering⟩] } :=
  (h.step (.call about force) (by simp)).1

/-- A caller about the organization comes to both machines. -/
theorem Mirrors.call (h : Mirrors org strict m m') (force : Bool)
    (hstrict : force = true → strict) :
    Mirrors org strict { m with callers := m.callers ++ [⟨org, force, .entering⟩] }
      { m' with callers := m'.callers ++ [⟨org, force, .entering⟩] } where
  coherent := h.coherent.step (.call org force)
  coherent_only := h.coherent_only.step (.call org force)
  solo_eq := by rw [solo_call h.coherent, solo_call h.coherent_only, h.solo_eq]
  org_eq b hb := by
    rcases List.mem_append.1 hb with hb | hb
    · exact h.org_eq b hb
    · rw [List.mem_singleton.1 hb]
  strict_of_force b hb hborg hforce := by
    rcases List.mem_append.1 hb with hb | hb
    · exact h.strict_of_force b hb hborg hforce
    · rw [List.mem_singleton.1 hb] at hforce
      exact hstrict hforce
  dated hs := by
    obtain ⟨hdated, hdated', hle⟩ := h.dated hs
    exact ⟨hdated.call org force, hdated'.call org force, hle⟩

/-- Time passes in both. -/
theorem Mirrors.tick (h : Mirrors org strict m m') (ms : Nat) :
    Mirrors org strict { m with now := m.now + ms } { m' with now := m'.now + ms } where
  coherent := h.coherent.step (.tick ms)
  coherent_only := h.coherent_only.step (.tick ms)
  solo_eq := congrArg (fun s : Machine ↦ { s with now := s.now + ms }) h.solo_eq
  org_eq := h.org_eq
  strict_of_force := h.strict_of_force
  dated hs := by
    obtain ⟨⟨hentry, hseen⟩, ⟨hentry', hseen'⟩, hle⟩ := h.dated hs
    exact ⟨⟨hentry, hseen⟩, ⟨hentry', hseen'⟩, hle⟩

/-- **A caller about another organization** does not count. -/
theorem Mirrors.call_elsewhere (h : Mirrors org strict m m') {about : String} (force : Bool)
    (hne : about ≠ org) :
    Mirrors org strict { m with callers := m.callers ++ [⟨about, force, .entering⟩] } m' where
  coherent := h.coherent.step (.call about force)
  coherent_only := h.coherent_only
  solo_eq := by rw [solo_call h.coherent, if_neg hne, List.append_nil, h.solo_eq]
  org_eq := h.org_eq
  strict_of_force b hb hborg hforce := by
    rcases List.mem_append.1 hb with hb | hb
    · exact h.strict_of_force b hb hborg hforce
    · rw [List.mem_singleton.1 hb] at hborg
      exact absurd hborg hne
  dated hs := by
    obtain ⟨hdated, hdated', hle⟩ := h.dated hs
    exact ⟨hdated.call about force, hdated', hle⟩

/-- Nor does what it does. -/
theorem Mirrors.move_elsewhere {mv : Move} (h : Mirrors org strict m m')
    (hfits : Fits org strict m (.move n mv :: es)) (hs : m.step (.move n mv) = some m₁)
    (hc : m.callers[n]? = some c) (hne : c.org ≠ org) : Mirrors org strict m₁ m' := by
  have hrule := step_of_step hs
  have hsolo : m₁.solo org = m.solo org := by
    refine solo_of_step_elsewhere h.coherent hrule hc hne fun o hmv ↦ ?_
    subst hmv
    exact hfits.room_of_store hs hc
  refine ⟨h.coherent.step hrule, h.coherent_only, h.solo_eq.trans hsolo.symm, h.org_eq,
    fun b hb hborg hforce ↦ ?_, fun hstrict ↦ ?_⟩
  · obtain ⟨a, ha, heq, hforce'⟩ := exists_mem_of_move hrule hb
    exact h.strict_of_force a ha (heq ▸ hborg) (hforce' ▸ hforce)
  · obtain ⟨hdated, hdated', hle⟩ := h.dated hstrict
    obtain ⟨hdated₁, hgrows⟩ := hdated.step hrule (hfits.generation_lt hs hstrict)
    exact ⟨hdated₁, hdated', hle.trans hgrows⟩

/-- **What is left of a step** is a step of what is left. -/
theorem Mirrors.step (h : Mirrors org strict m m') (hfits : Fits org strict m (e :: es))
    (hs : m.step e = some m₁) (he : m.only? org e = some e') :
    ∃ m₁', m'.step e' = some m₁' ∧ Mirrors org strict m₁ m₁' := by
  rcases eq_of_only? he with ⟨force, rfl, rfl⟩ | ⟨ms, rfl, rfl⟩ | ⟨n, mv, c, rfl, hc, horg, rfl⟩
  · obtain rfl := Option.some.inj hs
    refine ⟨_, rfl, h.call force fun hforce ↦ ?_⟩
    exact hfits.strict_of_call (hforce ▸ List.mem_cons_self)
  · obtain rfl := Option.some.inj hs
    exact ⟨_, rfl, h.tick ms⟩
  · exact h.move hfits hs hc horg

/-- The other steps leave no trace. -/
theorem Mirrors.elsewhere (h : Mirrors org strict m m') (hfits : Fits org strict m (e :: es))
    (hs : m.step e = some m₁) (he : m.only? org e = none) : Mirrors org strict m₁ m' := by
  rcases eq_of_only?_eq_none hs he with ⟨about, force, rfl, hne⟩ | ⟨n, mv, c, rfl, hc, hne⟩
  · obtain rfl := Option.some.inj hs
    exact h.call_elsewhere force hne
  · exact h.move_elsewhere hfits hs hc hne

/-! ### Runs -/

/-- A caller is answered the same in the view. -/
theorem answer?_solo (hc : m.callers[n]? = some c) (horg : c.org = org) :
    (m.solo org).answer? (m.place org n) = m.answer? n := by
  rw [answer?, answer?, phase?_eq (getElem?_solo hc horg), phase?_eq hc, soloCaller]
  cases c.phase <;> rfl

/-- A caller about the organization has the same answer without the others. -/
theorem Mirrors.answer?_eq (h : Mirrors org strict m m') (hc : m.callers[n]? = some c)
    (horg : c.org = org) : m'.answer? (m.place org n) = m.answer? n := by
  obtain ⟨c', hc', horg', -⟩ := h.exists_twin hc horg
  have hplace : m'.place org (m.place org n) = m.place org n :=
    h.place_eq_self (List.getElem?_eq_some_iff.1 hc').1.le
  rw [← answer?_solo hc horg, ← h.solo_eq, ← answer?_solo hc' horg', hplace]

/-- What is left of an event is left as it is. -/
theorem Mirrors.only?_eq (h : Mirrors org strict m m') (he : m.only? org e = some e') :
    m'.only? org e' = some e' := by
  rcases eq_of_only? he with ⟨force, rfl, rfl⟩ | ⟨ms, rfl, rfl⟩ | ⟨n, mv, c, rfl, hc, horg, rfl⟩
  · exact if_pos rfl
  · rfl
  · obtain ⟨c', hc', horg', -⟩ := h.exists_twin hc horg
    simp only [only?, hc', if_pos horg', h.place_eq_self (List.getElem?_eq_some_iff.1 hc').1.le]

/-- A move does not change whom the callers ask about. -/
theorem map_org_of_move {mv : Move} (hs : Step m (.move n mv) m') :
    m'.callers.map Caller.org = m.callers.map Caller.org := by
  refine List.ext_getElem? fun i ↦ ?_
  rw [List.getElem?_map, List.getElem?_map]
  cases hc : m.callers[i]? with
  | none =>
    have hlength := length_eq_of_step hs (by simp)
    rw [List.getElem?_eq_none (hlength ▸ List.getElem?_eq_none_iff.1 hc)]
  | some c =>
    obtain ⟨c', hc', horg, -⟩ := exists_caller_of_step hs hc
    rw [hc', Option.map_some, Option.map_some, horg]

/-- The caller that did a step has the same answer after it. -/
theorem Mirrors.caller_answer_eq (h : Mirrors org strict m₁ m₁') (hs : m.step e = some m₁)
    (he : m.only? org e = some e') :
    e'.caller?.bind m₁'.answer? = e.caller?.bind m₁.answer? := by
  rcases eq_of_only? he with ⟨force, rfl, rfl⟩ | ⟨ms, rfl, rfl⟩ | ⟨n, mv, c, rfl, hc, horg, rfl⟩
  · rfl
  · rfl
  · have hrule := step_of_step hs
    obtain ⟨c₁, hc₁, horg₁, -⟩ := exists_caller_of_step hrule hc
    have hplace : m₁.place org = m.place org := place_congr (map_org_of_move hrule)
    exact hplace ▸ h.answer?_eq hc₁ (horg₁.trans horg)

/-- Of a run that part is left which is left of its events, one after another. -/
theorem only_cons (hs : m.step e = some m₁) :
    m.only org (e :: es) = (m.only? org e).toList ++ m₁.only org es := by
  rw [only, hs]

/-- So it is of the parts of a run. -/
theorem only_append (hrun : m.run es = some m₁) :
    m.only org (es ++ rest) = m.only org es ++ m₁.only org rest := by
  induction es generalizing m with
  | nil =>
    obtain rfl := Option.some.inj hrun
    rfl
  | cons e es ih =>
    obtain ⟨next, hs, hrest⟩ := Option.bind_eq_some_iff.1 hrun
    rw [List.cons_append, only_cons hs, only_cons hs, ih hrest, List.append_assoc]

/-- **What is left of a run** is a run, in which the same is seen. -/
theorem Mirrors.run (h : Mirrors org strict m m') (hfits : Fits org strict m (es ++ rest))
    (hrun : m.run es = some m₁) : ∃ m₁', m'.run (m.only org es) = some m₁' ∧
      Mirrors org strict m₁ m₁' ∧
        m'.sights org (m.only org es) = m.sights org es := by
  induction es generalizing m m' with
  | nil =>
    obtain rfl := Option.some.inj hrun
    exact ⟨m', rfl, h, rfl⟩
  | cons e es ih =>
    obtain ⟨next, hs, hrest⟩ := Option.bind_eq_some_iff.1 hrun
    rw [only_cons hs, sights, hs]
    cases he : m.only? org e with
    | none => exact ih (h.elsewhere hfits hs he) (hfits.tail hs) hrest
    | some e' =>
      obtain ⟨next', hs', hnext⟩ := h.step hfits hs he
      obtain ⟨m₁', hrun', h₁, hsights⟩ := ih hnext (hfits.tail hs) hrest
      refine ⟨m₁', ?_, h₁, ?_⟩
      · rw [Option.toList_some, List.singleton_append, run_cons, hs']
        exact hrun'
      · rw [Option.toList_some, List.singleton_append, sights, hs']
        simp only [h.only?_eq he, h.now_eq, hnext.caller_answer_eq hs he, Option.map_some, hsights]

/-! ### The main statement -/

/-- What is possible depends on how far a caller has come, and on nothing else. -/
theorem isSome_move (f : Nat → Nat) (p : Phase) (mv : Move) {c' : Caller} :
    (m.move n c p mv).isSome = (m'.move k c' (p.blur f) mv).isSome := by
  cases p <;> cases mv <;> rfl

/-- What callers about an organization find is the same with and without the others. -/
structure Alike (org : String) (m m' : Machine) : Prop where
  /-- It is the same time. -/
  now_eq : m'.now = m.now
  /-- The others are not there. -/
  org_eq : ∀ c ∈ m'.callers, c.org = org
  /-- All callers about the organization are. -/
  length_eq : m'.callers.length = m.place org m.callers.length
  /-- Who starts now finds the same. -/
  lookup?_eq : m'.lookup? org none = m.lookup? org none
  /-- Who has started makes the same request, has the same answer, and can do the same. -/
  twin : ∀ n c, m.callers[n]? = some c → c.org = org →
    ∃ c', m'.callers[m.place org n]? = some c' ∧ c'.force = c.force ∧
      m'.answer? (m.place org n) = m.answer? n ∧
      ∀ mv, (m'.step (.move (m.place org n) mv)).isSome = (m.step (.move n mv)).isSome

/-- Two machines that mirror each other give the same answers about the organization. -/
theorem Mirrors.alike (h : Mirrors org strict m m') : Alike org m m' where
  now_eq := h.now_eq
  org_eq := h.org_eq
  length_eq := h.length_eq
  lookup?_eq := by rw [← lookup?_solo, h.solo_eq, lookup?_solo]
  twin n c hc horg := by
    obtain ⟨c', hc', -, hsame⟩ := h.exists_twin hc horg
    obtain ⟨hforce, hphase⟩ := soloCaller_inj hsame
    refine ⟨c', hc', hforce, h.answer?_eq hc horg, fun mv ↦ ?_⟩
    rw [Machine.step, Machine.step, hc, hc']
    simp only
    calc (m'.move (m.place org n) c' c'.phase mv).isSome
        = (m.move n c (c'.phase.blur (m'.mark org c'.force)) mv).isSome := isSome_move _ _ _
      _ = (m.move n c (c.phase.blur (m.mark org c.force)) mv).isSome := by rw [hphase]
      _ = (m.move n c c.phase mv).isSome := (isSome_move _ _ _).symm

/-- An organization is not influenced by the others. -/
structure Undisturbed (cfg : Config) (org : String) (es : List Event) : Prop where
  /-- The same is seen of the run when the callers about others are left out of it: the same steps
  at the same times, requests that are sent and come back among them, and the same answers. -/
  sights_eq : (start cfg).sights org ((start cfg).only org es) = (start cfg).sights org es
  /-- At any time of it, what is left of it so far has led to a state in which everything is the
  same for the organization, and what is left of the rest goes on from there. -/
  alike : ∀ es₁ es₂ m, es = es₁ ++ es₂ → (start cfg).run es₁ = some m →
    ∃ m', (start cfg).run ((start cfg).only org es₁) = some m' ∧ Alike org m m' ∧
      (start cfg).only org es = (start cfg).only org es₁ ++ m.only org es₂

/-- **Organizations do not influence each other.** As long as no more of them come in than there is
room for, leaving out all callers about others changes nothing for an organization. Where its
callers compare generations, these may not wrap around at 64 bits. -/
theorem undisturbed_of_run (cfg : Config) (org : String) (es : List Event) (m : Machine)
    (h : (start cfg).run es = some m) (hroom : ((start cfg).orgs es).card ≤ cfg.room)
    (hwrap : Event.call org true ∈ es →
      ((start cfg).storedOrgs es).length < Store.generations) : Undisturbed cfg org es := by
  have hfits : Fits org (Event.call org true ∈ es) (start cfg) es :=
    ⟨hroom, id, fun hcall ↦ by simpa [start, Store.empty] using hwrap hcall⟩
  have hstart := mirrors_start cfg org (Event.call org true ∈ es)
  constructor
  · have hnil : Fits org (Event.call org true ∈ es) (start cfg) (es ++ []) := by
      rwa [List.append_nil]
    obtain ⟨m', -, -, hsights⟩ := hstart.run hnil h
    exact hsights
  · rintro es₁ es₂ m₁ rfl h₁
    obtain ⟨m', hrun, hmirrors, -⟩ := hstart.run hfits h₁
    exact ⟨m', hrun, hmirrors.alike, only_append h₁⟩

/-- Two callers about one organization, the second of which wants a later outcome, and one about
another organization who fetches in between. -/
def besideOthers : List Event :=
  [.call "b" false, .call "a" false, .move 0 .check, .move 1 .check, .move 1 .join, .move 0 .join,
    .move 1 .acquire, .move 0 .acquire, .move 1 .recheck, .move 1 .fetch, .call "a" true,
    .move 2 .check, .move 2 .join, .move 2 .acquire, .move 0 .recheck, .move 0 .fetch, .tick 5,
    .move 0 (.store (.ok .empty)), .move 1 (.store (.error (.timeout "features"))),
    .move 1 .unlock, .move 2 .recheck, .move 2 .unlock, .move 2 .leave]

/-- With another organization asking at the same time, a caller that waited is told the failure, as
it is without. -/
theorem undisturbed_besideOthers : ∃ m, (start ⟨1000, 2⟩).run besideOthers = some m ∧
    m.answer? 2 = some ⟨.empty, 503, true⟩ ∧ Undisturbed ⟨1000, 2⟩ "a" besideOthers := by
  have hrun : ((start ⟨1000, 2⟩).run besideOthers).any
      (fun m ↦ m.answer? 2 = some ⟨.empty, 503, true⟩) = true := by decide
  obtain ⟨m, hm, hq⟩ := (Option.any_eq_true _ _).1 hrun
  exact ⟨m, hm, of_decide_eq_true hq,
    undisturbed_of_run _ _ _ m hm (by decide) fun _ ↦ by decide⟩

end Licensing.Cache.Machine
