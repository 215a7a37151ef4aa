import Licensing.Proofs.Cache.Locks
import Licensing.Proofs.Cache.Recency

/-!
# Callers by what they did

What a caller did can be told from the phase that it has come to: whether it sent a request, and
whether that failed. As long as nobody is cancelled the callers of whom this can be told are as many
as the moves that brought it about, so that the requests to the feature service are counted by those
who sent them (`count_of_run`). A caller that is cancelled never has an answer
(`isCancelled_of_run`).
-/

namespace Licensing.Cache

/-! ### What callers do -/

/-- A request is sent. -/
def Move.isFetch : Move → Bool
  | .fetch => true
  | _ => false

/-- A request failed. -/
def Outcome.isFailure : Outcome → Bool
  | .error _ => true
  | .ok _ => false

/-- A request comes back as a failure. -/
def Move.isFailure : Move → Bool
  | .store o => o.isFailure
  | _ => false

/-- A move of some kind. -/
def Event.isMove (g : Move → Bool) : Event → Bool
  | .move _ mv => g mv
  | _ => false

namespace Phase

/-- A caller has sent a request: it is out, or the answer came with it. -/
def hasAsked (p : Phase) : Bool :=
  p.isFetching || p.answer?.any fun l ↦ !l.hit

/-- The request of a caller failed. -/
def hasFailed (p : Phase) : Bool :=
  p.answer?.any fun l ↦ !l.hit && l.degraded

/-- A caller was cancelled. -/
def isCancelled : Phase → Bool
  | .releasing _ none | .departing _ none | .finished none => true
  | _ => false

end Phase

namespace Machine

variable {m₀ m m' : Machine} {es : List Event} {e : Event} {n : Nat} {c : Caller} {p : Phase}
  {f : Phase → Bool} {g : Move → Bool}

/-! ### Counting callers along a run -/

/-- How many callers have come to phases of some kind. -/
def count (m : Machine) (f : Phase → Bool) : Nat :=
  m.callers.countP fun c ↦ f c.phase

theorem count_setPhase {m₁ : Machine} (hm : m₁.callers = m.callers)
    (hc : m.callers[n]? = some c) (p : Phase) (f : Phase → Bool) :
    (m₁.setPhase n p).count f + (if f c.phase then 1 else 0) =
      m.count f + if f p then 1 else 0 := by
  have h := countP_setPhase (hm ▸ hc) p fun c ↦ f c.phase
  rwa [hm] at h

/-- **One caller at a time** comes to another phase, by its own move. Those that are given a lock
count as before when holding one counts like waiting for it. -/
theorem count_of_step (hentering : f .entering = false)
    (hgranted : ∀ seen lock, f (.holding seen lock) = f (.queued seen lock)) (hs : Step m e m') :
    ((∀ n mv, e ≠ .move n mv) ∧ m'.count f = m.count f) ∨
      ∃ n mv c p, e = .move n mv ∧ Turn m c mv p ∧
        m'.count f + (if f c.phase then 1 else 0) = m.count f + if f p then 1 else 0 := by
  have hset : ∀ {n : Nat} {mv : Move} {c : Caller} {p : Phase} {m₁ : Machine},
      m₁.callers = m.callers → m.callers[n]? = some c → Turn m c mv p →
      ((∀ n' mv', Event.move n mv ≠ .move n' mv') ∧ (m₁.setPhase n p).count f = m.count f) ∨
        ∃ n' mv' c p', Event.move n mv = .move n' mv' ∧ Turn m c mv' p' ∧
          (m₁.setPhase n p).count f + (if f c.phase then 1 else 0) =
            m.count f + if f p' then 1 else 0 :=
    fun hm hc ht ↦ .inr ⟨_, _, _, _, rfl, ht, count_setPhase hm hc _ f⟩
  cases hs with
  | call org force => exact .inl ⟨by simp, by simp [count, hentering]⟩
  | tick ms => exact .inl ⟨by simp, rfl⟩
  | hit hc hp hf hl => exact hset rfl hc (.hit hp hf hl)
  | miss hc hp hl => exact hset rfl hc (.miss hp hl)
  | join hc hp hf => exact hset rfl hc (.join hp _)
  | launch hc hp hf => exact hset rfl hc (.join hp _)
  | take hc hp hl => exact hset rfl hc (.take hp)
  | wait hc hp hl => exact hset rfl hc (.wait hp)
  | resign hc hp => exact hset rfl hc (.resign (.inl hp))
  | withdraw hc hp => exact hset rfl hc (.resign (.inr hp))
  | share hc hp hl => exact hset rfl hc (.share hp hl)
  | clear hc hp hl => exact hset rfl hc (.clear hp hl)
  | abandon hc hp => exact hset rfl hc (.abandon hp)
  | send hc hp => exact hset rfl hc (.send hp)
  | lose hc hp => exact hset rfl hc (.lose hp)
  | record hc hp o => exact hset rfl hc (.record hp o)
  | free hc hp hl => exact hset rfl hc (.unlock hp)
  | leave hc hp hf ht => exact hset rfl hc (.leave hp)
  | close hc hp hf => exact hset rfl hc (.leave hp)
  | @pass n next lock c answer holder rest hc hp hl =>
    obtain ⟨c', hc', hphase⟩ := releasing_of_grant (n := next) hc hp
    refine .inr ⟨n, .unlock, c, .departing lock answer, rfl, .unlock hp, ?_⟩
    have hcount := count_setPhase
      (m := { m with locks := m.locks.set lock ⟨some next, rest⟩ }.grant next) rfl hc'
      (.departing lock answer) f
    rw [hphase, ← hp] at hcount
    rw [hcount]
    exact congrArg (· + _) (countP_grant fun _ _ _ ↦ hgranted _ _)

/-- Moves of one kind bring callers to phases of another kind, which they do not leave unless they
are cancelled. -/
structure Marks (g : Move → Bool) (f : Phase → Bool) : Prop where
  /-- Who starts is not marked. -/
  entering : f .entering = false
  /-- Being given a lock changes nothing. -/
  granted : ∀ seen lock, f (.holding seen lock) = f (.queued seen lock)
  /-- A caller is marked when it was before or moves in this way, which it does only once. -/
  turn : ∀ {m : Machine} {c : Caller} {mv : Move} {p : Phase}, Turn m c mv p → mv ≠ .cancel →
    (g mv = true → f c.phase = false) ∧ f p = (f c.phase || g mv)

/-- **The callers that are marked are as many as the moves that marked them.** By induction on the
events: a caller is marked by one move, and keeps its mark. -/
theorem Marks.count_of_run (h : Marks g f) (hrun : m₀.run es = some m)
    (hcancel : ∀ n, .move n .cancel ∉ es) :
    m.count f = m₀.count f + es.countP (Event.isMove g) := by
  refine run_induction (P := fun es m ↦ (∀ n, .move n .cancel ∉ es) →
    m.count f = m₀.count f + es.countP (Event.isMove g)) (fun _ ↦ rfl) ?_ hrun hcancel
  intro es e m m' hrun ih hs hcancel
  have hcount := ih fun n hmem ↦ hcancel n (List.mem_append_left _ hmem)
  rw [List.countP_append, ← Nat.add_assoc, ← hcount]
  rcases count_of_step h.entering h.granted hs with ⟨hne, heq⟩ | ⟨n, mv, c, p, rfl, ht, heq⟩
  · rw [heq, List.countP_singleton]
    match e with
    | .call .. | .tick _ => rfl
    | .move n mv => exact absurd rfl (hne n mv)
  · have hmv : mv ≠ .cancel := by
      rintro rfl
      exact hcancel n (List.mem_concat_self)
    obtain ⟨honce, hmarked⟩ := h.turn ht hmv
    rw [List.countP_singleton, Event.isMove]
    rcases hg : g mv with _ | _
    · rw [hg, Bool.or_false] at hmarked
      simpa [hmarked] using heq
    · rw [honce hg, hg] at hmarked
      simpa [hmarked, honce hg] using heq

/-! ### Requests and failures -/

/-- The features are not known after a request exactly when it failed. -/
theorem degraded_of_outcome (o : Outcome) (hit : Bool) :
    (Lookup.mk o.snapshot o.status hit).degraded = o.isFailure := by
  match o with
  | .ok s => rfl
  | .error e =>
    show decide (400 ≤ (e.observedStatus.filter (firstErrorStatus ≤ ·)).getD 503) = true
    rw [decide_eq_true_eq]
    rcases hf : e.observedStatus.filter (firstErrorStatus ≤ ·) with _ | status
    · decide
    · exact of_decide_eq_true (Option.filter_eq_some_iff.1 hf).2

/-- Who sent a request was fetching, and has no answer but the one that it brought. -/
theorem marks_hasAsked : Marks Move.isFetch Phase.hasAsked where
  entering := rfl
  granted _ _ := rfl
  turn ht hmv := by
    simp only [Phase.hasAsked]
    cases ht with
    | hit hp hf hl | share hp hl =>
      simp [hp, Phase.isFetching, Phase.answer?, Move.isFetch, hit_of_lookup? hl]
    | record hp o => simp [hp, Phase.isFetching, Phase.answer?, Move.isFetch, Store.record]
    | resign | abandon | lose => exact absurd rfl hmv
    | miss hp | join hp | take hp | wait hp | clear hp | send hp | unlock hp | leave hp =>
      simp [hp, Phase.isFetching, Phase.answer?, Move.isFetch]

/-- Whose request failed has an answer that tells it. -/
theorem marks_hasFailed : Marks Move.isFailure Phase.hasFailed where
  entering := rfl
  granted _ _ := rfl
  turn ht hmv := by
    simp only [Phase.hasFailed]
    cases ht with
    | hit hp hf hl | share hp hl =>
      simp [hp, Phase.answer?, Move.isFailure, hit_of_lookup? hl]
    | record hp o => simp [hp, Phase.answer?, Move.isFailure, Store.record, degraded_of_outcome]
    | resign | abandon | lose => exact absurd rfl hmv
    | miss hp | join hp | take hp | wait hp | clear hp | send hp | unlock hp | leave hp =>
      simp [hp, Phase.answer?, Move.isFailure]

/-! ### Callers that are cancelled -/

theorem Turn.isCancelled {mv : Move} (ht : Turn m c mv p) (h : c.phase.isCancelled = true) :
    p.isCancelled = true := by
  cases ht with
  | @unlock lock answer hp | @leave lock answer hp =>
    rw [hp] at h
    match answer, h with
    | none, _ => rfl
  | _ => simp_all [Phase.isCancelled]

theorem Becomes.isCancelled {k : Nat} (hb : Becomes m e k c p) (h : c.phase.isCancelled = true) :
    p.isCancelled = true := by
  rcases hb with rfl | ⟨_, _, hq, -⟩ | ⟨mv, -, ht⟩
  · exact h
  · rw [hq] at h
    exact absurd h (by simp [Phase.isCancelled])
  · exact ht.isCancelled h

theorem isCancelled_of_cancel (hs : Step m (.move n .cancel) m') :
    ∃ c, m'.callers[n]? = some c ∧ c.phase.isCancelled = true := by
  cases hs with
  | resign hc | withdraw hc | abandon hc | lose hc => exact ⟨_, getElem?_setPhase_self hc _, rfl⟩

/-- **Who is cancelled never has an answer.** A cancelled caller goes on to give back what it holds,
but what it had found by then is dropped. -/
theorem isCancelled_of_run (hrun : m₀.run es = some m) (hmem : .move n .cancel ∈ es) :
    ∃ c, m.callers[n]? = some c ∧ c.phase.isCancelled = true := by
  refine run_induction (P := fun es m ↦ .move n .cancel ∈ es →
    ∃ c, m.callers[n]? = some c ∧ c.phase.isCancelled = true) (by simp) ?_ hrun hmem
  intro es e m m' hrun ih hs hmem
  rcases List.mem_append.1 hmem with hmem | hmem
  · obtain ⟨c, hc, hcancelled⟩ := ih hmem
    obtain ⟨c', hc', -, -, hb⟩ := exists_caller_of_step hs hc
    exact ⟨c', hc', hb.isCancelled hcancelled⟩
  · obtain rfl := List.mem_singleton.1 hmem
    exact isCancelled_of_cancel hs

/-! ### A caller on its own -/

/-- What every move of its own keeps is kept while a caller goes on. -/
theorem settle_induction {P : Machine → Prop} (hstep : ∀ m m' p mv, m.phase? n = some p →
    ownMove? p = some mv → Step m (.move n mv) m' → P m → P m') (h : P m) : P (m.settle n) := by
  rw [settle]
  generalize manySteps = steps
  induction steps generalizing m with
  | zero => exact h
  | succ steps ih =>
    rw [proceed]
    split
    · exact h
    · rename_i mv hmv
      obtain ⟨p, hp, hown⟩ := Option.bind_eq_some_iff.1 hmv
      split
      · exact ih (hstep m _ p mv hp hown (step_of_step ‹_›) h)
      · exact h

theorem answer?_eq_some_iff {l : Lookup} :
    m.answer? n = some l ↔ m.phase? n = some (.finished (some l)) := by
  rw [answer?]
  rcases m.phase? n with _ | p
  · simp
  · cases p <;> simp

theorem given?_of_answer? {l : Lookup} (h : m.answer? n = some l) : m.given? n = some l := by
  rw [given?, answer?_eq_some_iff.1 h]
  rfl

/-- A caller gets no answer on its own but one that is remembered. -/
theorem hit_of_settle (h : ∀ l, m.given? n = some l → l.hit = true) :
    ∀ l, (m.settle n).given? n = some l → l.hit = true := by
  refine settle_induction (P := fun m ↦ ∀ l, m.given? n = some l → l.hit = true) ?_ h
  intro m m' p mv hp hown hs ih l hl
  rcases given?_of_step hs hl with hold | ⟨-, mv', c, heq, -, hg⟩
  · exact ih l hold
  obtain ⟨-, rfl⟩ := Event.move.inj heq
  cases hg with
  | read newerThan hlook => exact hit_of_lookup? hlook
  | write o => cases p <;> simp [ownMove?] at hown

theorem given?_settle {l : Lookup} (h : m.given? n = some l) : (m.settle n).given? n = some l :=
  settle_induction (P := fun m ↦ m.given? n = some l) (fun _ _ _ _ _ _ hs ↦ given?_keeps hs) h

/-- A request that is out comes back with the answer of its caller. -/
theorem given?_poke (h : m.isFetching n = true) (o : Outcome) :
    (m.poke n (.store o)).given? n = some ⟨o.snapshot, o.status, false⟩ := by
  obtain ⟨c, lock, hc, hp⟩ : ∃ c lock, m.callers[n]? = some c ∧ c.phase = .fetching lock := by
    rw [isFetching] at h
    split at h
    · obtain ⟨c, hc, hp⟩ := Option.map_eq_some_iff.1 ‹m.phase? n = some _›
      exact ⟨c, _, hc, hp⟩
    · exact absurd h (by simp)
  rw [poke, step_of_rule (.record hc hp o)]
  exact given?_settle (given?_eq (getElem?_setPhase_self hc _))

/-- **Who asks alone sends a request exactly when the answer is not remembered**, and then has the
answer that came with it. -/
theorem fetched_ask {org : String} {force : Bool} {delay : Nat} {o : Outcome} {l : Lookup}
    (h : (m.ask org force delay o).2.1 = some l) :
    (m.ask org force delay o).2.2 = !l.hit ∧
      (l.hit = false → l = ⟨o.snapshot, o.status, false⟩) := by
  obtain ⟨m₁, henter, hhit⟩ : ∃ m₁, m.enter org force = (m.callers.length, m₁) ∧
      ∀ l, m₁.given? m.callers.length = some l → l.hit = true := by
    refine ⟨_, rfl, hit_of_settle fun l hl ↦ ?_⟩
    rw [given?_eq List.getElem?_concat_length] at hl
    exact absurd hl (by simp [Phase.answer?])
  rcases hfetching : m₁.isFetching m.callers.length with _ | _
  · simp only [ask, henter, hfetching] at h ⊢
    simp [hhit l (given?_of_answer? h)]
  · simp only [ask, henter, hfetching] at h ⊢
    have hgiven := given?_poke (m := { m₁ with now := m₁.now + delay }) hfetching o
    obtain rfl := Option.some.inj ((given?_of_answer? h).symm.trans hgiven)
    exact ⟨rfl, fun _ ↦ rfl⟩

/-! ### Callers that have their answers -/

/-- All callers have their answers. -/
def Answered (m : Machine) : Prop :=
  ∀ k < m.callers.length, ∃ l, m.answer? k = some l

theorem answered_start (cfg : Config) : Answered (start cfg) :=
  fun k hk ↦ absurd hk (Nat.not_lt_zero k)

/-- One more caller comes and gets its answer. -/
theorem Answered.concat {l : Lookup} (h : Answered m) (hrun : m.run es = some m')
    (hlength : m'.callers.length = m.callers.length + 1)
    (hnew : m'.answer? m.callers.length = some l) : Answered m' := by
  intro k hk
  rw [hlength] at hk
  rcases Nat.lt_succ_iff_lt_or_eq.1 hk with hlt | rfl
  · obtain ⟨l', hl'⟩ := h k hlt
    exact ⟨l', answer?_of_run hrun hl'⟩
  · exact ⟨l, hnew⟩

/-- Nobody was cancelled when all have their answers. -/
theorem Answered.not_mem_cancel (h : Answered m) (hrun : m₀.run es = some m) (n : Nat) :
    .move n .cancel ∉ es := by
  intro hmem
  obtain ⟨c, hc, hcancelled⟩ := isCancelled_of_run hrun hmem
  obtain ⟨l, hl⟩ := h n (List.getElem?_eq_some_iff.1 hc).1
  rw [answer?_eq_some_iff, phase?_eq hc] at hl
  rw [Option.some.inj hl] at hcancelled
  exact absurd hcancelled (by simp [Phase.isCancelled])

theorem count_eq_countP_range (m : Machine) (f : Phase → Bool) :
    m.count f = (List.range m.callers.length).countP fun k ↦ (m.phase? k).any f := by
  rw [count, ← countP_range fun c : Caller ↦ f c.phase]
  refine List.countP_congr fun k _ ↦ ?_
  rw [phase?, Option.any_map]

/-- When all others have their answers, only the caller that comes can make a difference. -/
theorem Answered.count_concat {l : Lookup} (h : Answered m) (hrun : m.run es = some m')
    (hlength : m'.callers.length = m.callers.length + 1)
    (hnew : m'.answer? m.callers.length = some l) (f : Phase → Bool) :
    m'.count f = m.count f + if f (.finished (some l)) then 1 else 0 := by
  rw [count_eq_countP_range, count_eq_countP_range, hlength, List.range_succ, List.countP_append]
  congr 1
  · refine List.countP_congr fun k hk ↦ ?_
    obtain ⟨l', hl'⟩ := h k (List.mem_range.1 hk)
    rw [answer?_eq_some_iff.1 hl', answer?_eq_some_iff.1 (answer?_of_run hrun hl')]
  · rw [List.countP_singleton, answer?_eq_some_iff.1 hnew]
    rfl

/-- The moves that mark callers are those of the caller that comes. -/
theorem Answered.countP_isMove {l : Lookup} (h : Answered m) (hmarks : Marks g f)
    (hrun : m.run es = some m') (hlength : m'.callers.length = m.callers.length + 1)
    (hnew : m'.answer? m.callers.length = some l) :
    es.countP (Event.isMove g) = if f (.finished (some l)) then 1 else 0 := by
  have hmarked := hmarks.count_of_run hrun
    ((h.concat hrun hlength hnew).not_mem_cancel hrun)
  rw [h.count_concat hrun hlength hnew] at hmarked
  exact (Nat.add_left_cancel hmarked).symm

/-- **Who asks alone sends at most one request**, which fails when its outcome is a failure. -/
theorem Answered.counts_ask {org : String} {force : Bool} {delay : Nat} {o : Outcome} {l : Lookup}
    (h : Answered m) (hrun : m.run es = some (m.ask org force delay o).1)
    (hlength : (m.ask org force delay o).1.callers.length = m.callers.length + 1)
    (hl : (m.ask org force delay o).2.1 = some l) :
    es.countP (Event.isMove Move.isFetch) = (if (m.ask org force delay o).2.2 then 1 else 0) ∧
      es.countP (Event.isMove Move.isFailure) =
        if (m.ask org force delay o).2.2 && o.isFailure then 1 else 0 := by
  obtain ⟨hfetched, hbrought⟩ := fetched_ask hl
  have hfailed : (!l.hit && l.degraded) = (!l.hit && o.isFailure) := by
    rcases hhit : l.hit with _ | _
    · rw [hbrought hhit, degraded_of_outcome]
    · rfl
  rw [hfetched, h.countP_isMove marks_hasAsked hrun hlength hl,
    h.countP_isMove marks_hasFailed hrun hlength hl, ← hfailed]
  exact ⟨rfl, rfl⟩

end Machine

end Licensing.Cache
