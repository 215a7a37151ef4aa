import Licensing.Client.Accounts
import Licensing.Proofs.Client.Access
import Licensing.Proofs.Count

/-!
# Access tokens are asked for one at a time and used before their end

Any number of calls share a token. A token is asked for only when there is none to be used, by one
call at a time, and every request carries the token that its own call was given, or one that was
still to be used when the call looked (`Disciplined`). A call that gets no token changes nothing
for the others and sends nothing. `disciplined_of_run` says this of every run, whoever is cancelled
and however long the service takes, and that the client follows these rules when it asks its
questions (`Sending`).
-/

namespace Licensing.Client

open Utf8 (Bytes)

namespace Access

/-! ### Tokens that are kept -/

/-- A token that is kept has the text of the grant, and is renewed half a minute before it expires.
A grant that says nothing of that lives for five minutes. -/
theorem keep?_eq_some {now : Nat} {g : Grant} {t : Token} (h : keep? now g = some t) :
    t = ⟨g.token, now + (g.lifetime.getD 300 - 30) * 1000⟩ := by
  rw [keep?] at h
  split at h
  · exact absurd h (by simp)
  · exact (Option.some.inj h).symm

namespace Machine

variable {m m' : Machine} {e : Event} {es es' es₁ es₂ : List Event} {j k : Nat} {t : Token}
  {text : String}

/-- The token at hand is used as long as its time of renewal has not come. -/
theorem fresh?_eq_some_iff :
    m.fresh? = some text ↔ ∃ t, m.token = some t ∧ m.now < t.refreshAt ∧ t.text = text := by
  simp [fresh?, Option.filter_eq_some_iff, and_assoc]

/-- A new token is asked for when there is none at hand, or its time of renewal has come. -/
theorem fresh?_eq_none_iff :
    m.fresh? = none ↔ ∀ t, m.token = some t → t.refreshAt ≤ m.now := by
  simp [fresh?, Option.filter_eq_none_iff]

/-- A token that is not to be used any more never will be. -/
theorem fresh?_eq_none_of_le (h : m.fresh? = none) (htoken : m'.token = m.token)
    (hnow : m.now ≤ m'.now) : m'.fresh? = none := by
  rw [fresh?_eq_none_iff] at h ⊢
  intro t ht
  exact Nat.le_trans (h t (htoken ▸ ht)) hnow

/-- The last of these events brings a call the token that it asked for, which is kept for the time
that it lives less a margin. -/
def Obtains (es : List Event) (k : Nat) (t : Token) : Prop :=
  ∃ es₀ m g, es = es₀ ++ [.move k (.receive (.ok g))] ∧ start.run es₀ = some m ∧
    m.phase? k = some .requesting ∧ t = ⟨g.token, m.now + (g.lifetime.getD 300 - 30) * 1000⟩

/-- Every token that is kept was asked for by a call. -/
theorem exists_obtains (h : start.run es = some m) :
    ∀ t, m.token = some t → ∃ es₁ k, es₁ <+: es ∧ Obtains es₁ k t := by
  refine run_induction (P := fun es m ↦ ∀ t, m.token = some t →
    ∃ es₁ k, es₁ <+: es ∧ Obtains es₁ k t) (by simp [start]) ?_ h
  intro es e m m' hrun ih hs t ht
  rcases token_of_step hs with htoken | ⟨k, g, t', rfl, hk, hkeep, htoken⟩
  · obtain ⟨es₁, k, hpre, hobtains⟩ := ih t (htoken ▸ ht)
    exact ⟨es₁, k, hpre.trans (List.prefix_append _ _), hobtains⟩
  · obtain rfl := Option.some.inj (ht.symm.trans htoken)
    exact ⟨_, k, List.prefix_rfl, es, m, g, rfl, hrun, hk, keep?_eq_some hkeep⟩

/-- With the last of these events a call takes the token that is kept, which came to some call
before, and whose end has not come yet. -/
def Reads (es : List Event) (k : Nat) (t : Token) : Prop :=
  ∃ es₀ m, es = es₀ ++ [.move k .look] ∧ start.run es₀ = some m ∧ m.token = some t ∧
    m.now < t.refreshAt ∧ ∃ es₁ j, es₁ <+: es₀ ∧ Obtains es₁ j t

/-! ### Who asks -/

/-- Who holds the lock is alone. -/
theorem Locked.eq_of_holdsLock {p q : Phase} (h : Locked m) (hj : m.phase? j = some p)
    (hk : m.phase? k = some q) (hp : p.holdsLock = true) (hq : q.holdsLock = true) : j = k :=
  Option.some.inj ((h.holder_of_phase? hj hp).symm.trans (h.holder_of_phase? hk hq))

/-- A call asks only when it has looked and found no token to be used. -/
theorem Turn.of_requesting {p : Phase} {mv : Move} (h : Turn m p mv .requesting) :
    mv = .look ∧ m.fresh? = none := by
  generalize hp' : Phase.requesting = p' at h
  cases h with
  | request hf => exact ⟨rfl, hf⟩
  | _ => exact absurd hp' (by simp)

/-- While a token is asked for there is none to be used. -/
theorem fresh?_of_requesting (h : start.run es = some m) :
    ∀ k, m.phase? k = some .requesting → m.fresh? = none := by
  refine run_induction (P := fun _ m ↦ ∀ k, m.phase? k = some .requesting → m.fresh? = none)
    (by simp [start, phase?]) ?_ h
  intro es e m m' hrun ih hs k hk
  have hlocked := locked_of_run hrun
  rcases phase_of_step hlocked hs hk with ⟨-, hp⟩ | ⟨p, hp, hb⟩
  · exact absurd hp (by simp)
  -- Either it asked before, or it has just looked; and no other call can have been given a token.
  have hfresh : m.fresh? = none := by
    rcases hb with ⟨mv, -, ht⟩ | ⟨-, rfl | ⟨-, hq⟩⟩
    · exact ht.of_requesting.2
    · exact ih k hp
    · exact absurd hq (by simp)
  rcases token_of_step hs with htoken | ⟨j, g, t, rfl, hj, -, -⟩
  · exact fresh?_eq_none_of_le hfresh htoken (now_le_of_step hs)
  rcases hb with ⟨mv, heq, ht⟩ | ⟨hne, rfl | ⟨-, hq⟩⟩
  · obtain ⟨-, rfl⟩ := Event.move.inj heq
    exact absurd ht.of_requesting.1 (by simp)
  · exact absurd rfl (hlocked.eq_of_holdsLock hp hj rfl rfl ▸ hne _)
  · exact absurd hq (by simp)

/-- Whoever asks for a token has the lock, so no more than one call asks at a time. -/
theorem requesting_le_one (h : Locked m) :
    m.calls.countP (fun p ↦ p = .requesting) ≤ 1 := by
  refine countP_le_one fun i j p q hi hj hp hq ↦ ?_
  obtain rfl := of_decide_eq_true hp
  obtain rfl := of_decide_eq_true hq
  exact h.eq_of_holdsLock hi hj rfl rfl

/-- As long as a token is to be used it stays, and nobody asks for another. -/
theorem token_of_run (hm : start.run es = some m) (ht : m.token = some t)
    (h : m.run es' = some m') (hnow : m'.now < t.refreshAt) :
    m'.token = some t ∧ ∀ k, m'.phase? k ≠ some .requesting := by
  -- A token to be used means that nobody asks.
  have hquiet : ∀ {es' m'}, m.run es' = some m' → m'.token = some t → m'.now < t.refreshAt →
      ∀ k, m'.phase? k ≠ some .requesting := by
    intro es' m' hrun htoken hlt k hk
    have hfresh := fresh?_of_requesting
      (by rw [run_append, hm]; exact hrun : start.run (es ++ es') = some m') k hk
    exact absurd (fresh?_eq_none_iff.1 hfresh t htoken) (Nat.not_le.2 hlt)
  have htoken := run_induction (P := fun _ m' ↦ m'.now < t.refreshAt → m'.token = some t)
    (fun _ ↦ ht) (fun es' e m₁ m₂ hrun ih hs hlt ↦ by
      have hlt₁ := Nat.lt_of_le_of_lt (now_le_of_step hs) hlt
      rcases token_of_step hs with hsame | ⟨j, g, t', rfl, hj, -, -⟩
      · rw [hsame, ih hlt₁]
      · exact absurd hj (hquiet hrun (ih hlt₁) hlt₁ j)) h hnow
  exact ⟨htoken, hquiet h htoken hnow⟩

/-! ### Who sends -/

/-- A call with a token has just been given it, or has just taken the one that is kept. -/
theorem exists_of_ready (h : start.run es = some m) :
    ∀ k text, m.phase? k = some (.ready text) → ∃ t es₁ es₂, t.text = text ∧ es = es₁ ++ es₂ ∧
      (Obtains es₁ k t ∨ Reads es₁ k t) ∧ ∀ mv, .move k mv ∉ es₂ := by
  refine run_induction (P := fun es m ↦ ∀ k text, m.phase? k = some (.ready text) →
    ∃ t es₁ es₂, t.text = text ∧ es = es₁ ++ es₂ ∧
      (Obtains es₁ k t ∨ Reads es₁ k t) ∧ ∀ mv, .move k mv ∉ es₂) (by simp [start, phase?]) ?_ h
  intro es e m m' hrun ih hs k text hk
  rcases phase_of_step (locked_of_run hrun) hs hk with ⟨-, hp⟩ | ⟨p, hp, hb⟩
  · exact absurd hp (by simp)
  rcases hb with ⟨mv, rfl, ht⟩ | ⟨hne, rfl | ⟨-, hq⟩⟩
  · generalize hp' : Phase.ready text = p' at ht
    cases ht with
    | reuse hf =>
      obtain rfl := Phase.ready.inj hp'
      obtain ⟨t, htoken, hlt, rfl⟩ := fresh?_eq_some_iff.1 hf
      exact ⟨t, _, [], rfl, (List.append_nil _).symm,
        .inr ⟨es, m, rfl, hrun, htoken, hlt, exists_obtains hrun t htoken⟩, by simp⟩
    | @renew g t hkeep =>
      obtain rfl := Phase.ready.inj hp'
      exact ⟨_, _, [], rfl, (List.append_nil _).symm,
        .inl ⟨es, m, g, rfl, hrun, hp, rfl⟩, by simp⟩
    | _ => exact absurd hp' (by simp)
  · obtain ⟨t, es₁, es₂, htext, rfl, hgets, hmoves⟩ := ih k text hp
    refine ⟨t, es₁, es₂ ++ [e], htext, List.append_assoc _ _ _, hgets, fun mv hmem ↦ ?_⟩
    rcases List.mem_append.1 hmem with hmem | hmem
    · exact hmoves mv hmem
    · exact hne mv (List.mem_singleton.1 hmem).symm
  · exact absurd hq (by simp)

/-- A request is sent by a call that has a token, with this token. -/
theorem phase_of_send (hlocked : Locked m) (h : m.step e = some m')
    (hk : m'.phase? k = some (.sending text)) : m.phase? k = some (.sending text) ∨
      e = .move k .send ∧ m.phase? k = some (.ready text) := by
  rcases phase_of_step hlocked (step_of_step h) hk with ⟨-, hp⟩ | ⟨p, hp, hb⟩
  · exact absurd hp (by simp)
  rcases hb with ⟨mv, rfl, ht⟩ | ⟨-, rfl | ⟨-, hq⟩⟩
  · generalize hp' : Phase.sending text = p' at ht
    cases ht with
    | send text =>
      obtain rfl := Phase.sending.inj hp'
      exact .inr ⟨rfl, hp⟩
    | _ => exact absurd hp' (by simp)
  · exact .inl hp
  · exact absurd hq (by simp)

/-! ### Calls without a token -/

/-- A call that is over takes no further turn. -/
theorem Turn.isOver_eq_false {p p' : Phase} {mv : Move} (h : Turn m p mv p') :
    p.isOver = false := by
  cases h with
  | abandon hl =>
    match p, hl with
    | .holding, _ | .requesting, _ => rfl
  | _ => rfl

/-- A call that is over stays so, and moves no more. -/
theorem phase?_of_isOver {p : Phase} (hm : start.run es = some m) (hk : m.phase? k = some p)
    (hp : p.isOver = true) (h : m.run es' = some m') :
    m'.phase? k = some p ∧ ∀ mv, .move k mv ∉ es' := by
  refine run_induction (P := fun es' m' ↦ m'.phase? k = some p ∧ ∀ mv, .move k mv ∉ es')
    ⟨hk, by simp⟩ ?_ h
  rintro es' e m₁ m₂ hrun ⟨hk₁, hmoves⟩ hs
  have hrun₁ : start.run (es ++ es') = some m₁ := by
    rw [run_append, hm]
    exact hrun
  obtain ⟨p', hk₂, ⟨mv, -, ht⟩ | ⟨hne, rfl | ⟨rfl, -⟩⟩⟩ :=
    exists_phase_of_step (locked_of_run hrun₁) hs hk₁
  · exact absurd (hp.symm.trans ht.isOver_eq_false) (by simp)
  · refine ⟨hk₂, fun mv hmem ↦ ?_⟩
    rcases List.mem_append.1 hmem with hmem | hmem
    · exact hmoves mv hmem
    · exact hne mv (List.mem_singleton.1 hmem).symm
  · exact absurd hp (by simp [Phase.isOver])

/-- The request of a call for a token comes to nothing: the call is cancelled, or no token comes
that can be kept. -/
def Fails (m : Machine) (k : Nat) (e : Event) : Prop :=
  m.phase? k = some .requesting ∧ (e = .move k .cancel ∨
    (∃ err, e = .move k (.receive (.error err))) ∨
      ∃ g, e = .move k (.receive (.ok g)) ∧ keep? m.now g = none)

/-- It is by a move of its own that a call fails. -/
theorem Fails.exists_move (h : Fails m k e) : ∃ mv, e = .move k mv := by
  obtain ⟨-, rfl | ⟨err, rfl⟩ | ⟨g, rfl, -⟩⟩ := h <;> exact ⟨_, rfl⟩

/-- A call that fails leaves the token at hand as it is: only a grant that is kept replaces it. -/
theorem Fails.token_eq (h : Fails m k e) (hs : Step m e m') : m'.token = m.token := by
  refine (token_of_step hs).resolve_right ?_
  rintro ⟨j, g, t, rfl, -, ht, -⟩
  obtain ⟨-, heq | ⟨err, heq⟩ | ⟨g', heq, hkeep⟩⟩ := h
  · exact absurd heq (by simp)
  · exact absurd heq (by simp)
  · obtain ⟨-, rfl⟩ : j = k ∧ g = g' := by simpa using heq
    exact absurd (ht.symm.trans hkeep) (by simp)

/-- A call that fails is over, and passes the lock on without coming back to it. -/
theorem Fails.exists_over (h : Fails m k e) (hlocked : Locked m) (hs : Step m e m') :
    ∃ p, m'.phase? k = some p ∧ p.isOver = true := by
  obtain ⟨mv, rfl⟩ := h.exists_move
  obtain ⟨p, hp, ⟨mv', heq, ht⟩ | ⟨hne, -⟩⟩ := exists_phase_of_step hlocked hs h.1
  · obtain ⟨-, rfl⟩ := Event.move.inj heq
    refine ⟨p, hp, ?_⟩
    generalize hq : Phase.requesting = q at ht
    cases ht with
    | @renew g t hkeep =>
      obtain ⟨-, h' | ⟨err, h'⟩ | ⟨g', h', hnone⟩⟩ := h
      · exact absurd h' (by simp)
      · exact absurd h' (by simp)
      · obtain rfl : g = g' := by simpa using h'
        exact absurd (hkeep.symm.trans hnone) (by simp)
    | overflow | fail | abandon | resign | withdraw | reply => rfl
    | _ => exact absurd hq (by simp)
  · exact absurd rfl (hne mv)

/-! ### One call after another -/

/-- With one more call, in some phase. -/
def add (m : Machine) (p : Phase) : Machine :=
  { m with calls := m.calls ++ [p] }

/-- With one more call, in some phase, that holds the lock. -/
def hold (m : Machine) (p : Phase) : Machine :=
  { m with holder := some m.calls.length, calls := m.calls ++ [p] }

section Alone

variable {p q : Phase}

/-- The call that was put in last has the next number. -/
@[simp] theorem calls_add : (m.add p).calls[m.calls.length]? = some p :=
  List.getElem?_concat_length

/-- The call that took the lock has the next number. -/
@[simp] theorem calls_hold : (m.hold p).calls[m.calls.length]? = some p :=
  List.getElem?_concat_length

/-- The call that was put in last is the one whose phase is set by this number. -/
@[simp] theorem setPhase_add : (m.add p).setPhase m.calls.length q = m.add q := by
  simp [add, setPhase]

/-- So is the call that took the lock. -/
@[simp] theorem setPhase_hold : (m.hold p).setPhase m.calls.length q = m.hold q := by
  simp [hold, setPhase]

/-- The lock is free again when nobody else wants it. -/
theorem leave_hold (hh : m.holder = none) (hq : m.queue = []) :
    (m.hold p).leave m.calls.length q = m.add q := by
  have hq : (m.hold p).queue = [] := hq
  rw [leave_of_nil hq]
  simp [hold, add, setPhase, hh]

/-- The events by which a call comes to look at the token. -/
def looking (m : Machine) : List Event :=
  [.call, .move m.calls.length .acquire, .move m.calls.length .look]

/-- A run begins with its first event. -/
theorem run_cons_of_step (h : m.step e = some m') : m.run (e :: es) = m'.run es := by
  rw [run, List.foldlM_cons, h]
  rfl

/-- When the lock is free, a call takes it at once and looks at the token at hand. -/
theorem run_looking (hh : m.holder = none) (es : List Event) :
    m.run (m.looking ++ es) = ((m.hold .holding).look m.calls.length).run es := by
  have hcall : m.step .call = some (m.add .entering) := rfl
  have hacquire : (m.add .entering).step (.move m.calls.length .acquire) =
      some (m.hold .holding) := by
    simp [step, move, add, hold, setPhase, hh]
  have hlook : (m.hold .holding).step (.move m.calls.length .look) =
      some ((m.hold .holding).look m.calls.length) := by
    simp [step, move]
  show m.run (.call :: .move m.calls.length .acquire :: .move m.calls.length .look :: es) = _
  rw [run_cons_of_step hcall, run_cons_of_step hacquire, run_cons_of_step hlook]

/-- If this one is still good, the call has it and gives the lock back: nothing is requested. -/
theorem run_looking_of_fresh (hh : m.holder = none) (hq : m.queue = [])
    (hf : m.fresh? = some text) (es : List Event) :
    m.run (m.looking ++ es) = (m.add (.ready text)).run es := by
  have hf : (m.hold .holding).fresh? = some text := hf
  rw [run_looking hh, look, hf]
  exact congrArg (run · es) (leave_hold hh hq)

/-- If it is not, the call keeps the lock and asks for another one. -/
theorem run_looking_of_stale (hh : m.holder = none) (hf : m.fresh? = none) (es : List Event) :
    m.run (m.looking ++ es) = (m.hold .requesting).run es := by
  have hf : (m.hold .holding).fresh? = none := hf
  rw [run_looking hh, look, hf]
  exact congrArg (run · es) setPhase_hold

/-- What a call finds when there are no others is told by a run of its events. -/
theorem enter_of_run_looking (h : m.run (m.looking ++ []) = m'.run []) :
    m.enter = (m.calls.length, m') := by
  show (m.calls.length, (m.run (m.looking ++ [])).getD m) = _
  rw [h]
  rfl

/-- A call with a token sends its request. -/
theorem step_send (text : String) :
    (m.add (.ready text)).step (.move m.calls.length .send) = some (m.add (.sending text)) := by
  simp [step, move]

/-- A request that was sent is answered, and the call is done. -/
theorem step_reply (text : String) :
    (m.add (.sending text)).step (.move m.calls.length .reply) = some (m.add .finished) := by
  simp [step, move]

/-- A call with a token sends its request and has its reply. -/
theorem run_exchange (m : Machine) (text : String) : (m.add (.ready text)).run
    [.move m.calls.length .send, .move m.calls.length .reply] = some (m.add .finished) := by
  rw [run_cons_of_step (step_send text), run_cons_of_step (step_reply text)]
  rfl

/-- What comes back for a request is taken in by the call that made it. -/
theorem step_receive (outcome : Except RemoteError Grant) :
    (m.hold .requesting).step (.move m.calls.length (.receive outcome)) =
      some ((m.hold .requesting).receive m.calls.length outcome) := by
  simp [step, move]

/-- A failure ends the call, and frees the lock. -/
theorem step_receive_error (hh : m.holder = none) (hq : m.queue = []) (err : RemoteError) :
    (m.hold .requesting).step (.move m.calls.length (.receive (.error err))) =
      some (m.add (.failed err)) := by
  rw [step_receive]
  exact congrArg some (leave_hold hh hq)

/-- A grant whose time of renewal the clock cannot show ends the call as well. -/
theorem step_receive_none (hh : m.holder = none) (hq : m.queue = []) {g : Grant}
    (ht : keep? m.now g = none) :
    (m.hold .requesting).step (.move m.calls.length (.receive (.ok g))) =
      some (m.add .crashed) := by
  have ht : keep? (m.hold .requesting).now g = none := ht
  rw [step_receive, receive, ht]
  exact congrArg some (leave_hold hh hq)

/-- A grant that is kept replaces the token at hand, and the call goes on with it. -/
theorem step_receive_some (hh : m.holder = none) (hq : m.queue = []) {g : Grant}
    (ht : keep? m.now g = some t) :
    (m.hold .requesting).step (.move m.calls.length (.receive (.ok g))) =
      some ({ m with token := some t }.add (.ready g.token)) := by
  have ht : keep? (m.hold .requesting).now g = some t := ht
  rw [step_receive, receive, ht]
  exact congrArg some (leave_hold (m := { m with token := some t }) hh hq)

end Alone

end Machine

end Access

/-! ### The client -/

/-- A request with a token. -/
def Request.withToken (r : Request) (token : String) : Request :=
  { r with headers := ("authorization", "Bearer " ++ token) :: r.headers }

namespace AccountsClient

open Access (Machine Event)

variable {σ : Type} {network : Network σ} {credentials : Credentials} {m m' : Machine}
  {s s₁ : σ} {r : Request} {c : AccountsClient}

/-- How a client with credentials sends a request when nobody else does: what happens to the token,
what comes of the request, and the machine and the network afterwards. The only requests that it
makes are the one for a token and its own with the token. -/
inductive Sending (network : Network σ) (credentials : Credentials) (m : Machine) (s : σ)
    (r : Request) : List Event → Except Stop (Nat × Bytes) → Machine → σ → Prop where
  /-- The token that is kept is used. -/
  | reused {text : String} (hf : m.fresh? = some text) :
    Sending network credentials m s r
      (m.looking ++ [.move m.calls.length .send, .move m.calls.length .reply])
      ((fetch network service s (r.withToken text)).1.mapError .failed) (m.add .finished)
      (fetch network service s (r.withToken text)).2
  /-- A token comes and is used. -/
  | renewed {g : Grant} {t : Token} {s₁ : σ} (hf : m.fresh? = none)
    (hg : fetchGrant network credentials s = (.ok g, s₁)) (ht : Access.keep? m.now g = some t) :
    Sending network credentials m s r
      (m.looking ++ [.move m.calls.length (.receive (.ok g)), .move m.calls.length .send,
        .move m.calls.length .reply])
      ((fetch network service s₁ (r.withToken g.token)).1.mapError .failed)
      ({ m with token := some t }.add .finished)
      (fetch network service s₁ (r.withToken g.token)).2
  /-- A token comes that cannot be kept. -/
  | crashed {g : Grant} {s₁ : σ} (hf : m.fresh? = none)
    (hg : fetchGrant network credentials s = (.ok g, s₁)) (ht : Access.keep? m.now g = none) :
    Sending network credentials m s r
      (m.looking ++ [.move m.calls.length (.receive (.ok g))]) (.error .crashed) (m.add .crashed) s₁
  /-- No token comes. -/
  | refused {e : RemoteError} {s₁ : σ} (hf : m.fresh? = none)
    (hg : fetchGrant network credentials s = (.error e, s₁)) :
    Sending network credentials m s r
      (m.looking ++ [.move m.calls.length (.receive (.error e))]) (.error (.failed e))
      (m.add (.failed e)) s₁

section Bearer

variable (hc : c.credentials = some credentials) (hh : c.access.holder = none)
  (hq : c.access.queue = [])

include hc hh hq

/-- A client with a good token uses it and asks for nothing. -/
theorem bearer_of_fresh {text : String} (hf : c.access.fresh? = some text) (s : σ) :
    c.bearer network s = (.ok (some (c.access.calls.length, text)),
      { c with access := c.access.add (.ready text) }, s) := by
  have henter := Machine.enter_of_run_looking (Machine.run_looking_of_fresh hh hq hf [])
  simp [bearer, hc, henter, Machine.phase?]

variable (hf : c.access.fresh? = none)

include hf

/-- A client without one asks for a token, keeps it and uses it. -/
theorem bearer_of_renewed {g : Grant} {t : Token}
    (hg : fetchGrant network credentials s = (.ok g, s₁))
    (ht : Access.keep? c.access.now g = some t) :
    c.bearer network s = (.ok (some (c.access.calls.length, g.token)),
      { c with access := { c.access with token := some t }.add (.ready g.token) }, s₁) := by
  have henter := Machine.enter_of_run_looking (Machine.run_looking_of_stale hh hf [])
  have hready : ({ c.access with token := some t }.add (.ready g.token)).phase?
      c.access.calls.length = some (.ready g.token) := Machine.calls_add
  have hwaits : (c.access.hold .requesting).phase? c.access.calls.length = some .requesting :=
    Machine.calls_hold
  simp [bearer, hc, henter, hwaits, hg, Machine.poke, Machine.step_receive_some hh hq ht, hready]

/-- A grant whose time of renewal the clock cannot show crashes the call. -/
theorem bearer_of_crashed {g : Grant} (hg : fetchGrant network credentials s = (.ok g, s₁))
    (ht : Access.keep? c.access.now g = none) :
    c.bearer network s = (.error .crashed, { c with access := c.access.add .crashed }, s₁) := by
  have henter := Machine.enter_of_run_looking (Machine.run_looking_of_stale hh hf [])
  simp [bearer, hc, henter, Machine.phase?, hg, Machine.poke, Machine.step_receive_none hh hq ht]

/-- A call whose request for a token is refused fails with that, and the token at hand stays. -/
theorem bearer_of_refused {e : RemoteError}
    (hg : fetchGrant network credentials s = (.error e, s₁)) :
    c.bearer network s =
      (.error (.failed e), { c with access := c.access.add (.failed e) }, s₁) := by
  have henter := Machine.enter_of_run_looking (Machine.run_looking_of_stale hh hf [])
  simp [bearer, hc, henter, Machine.phase?, hg, Machine.poke, Machine.step_receive_error hh hq]

end Bearer

/-- What follows when there is a token. -/
theorem send_of_bearer {text : String} (h : c.bearer network s =
    (.ok (some (m.calls.length, text)), { c with access := m.add (.ready text) }, s₁)) :
    c.send network s r = ((fetch network service s₁ (r.withToken text)).1.mapError .failed,
      { c with access := m.add .finished }, (fetch network service s₁ (r.withToken text)).2) := by
  simp only [send, h, Machine.poke, Machine.step_send, Option.getD_some, Machine.step_reply]
  rfl

/-- What follows when there is none. -/
theorem send_of_bearer_error {stop : Stop} {c₁ : AccountsClient}
    (h : c.bearer network s = (.error stop, c₁, s₁)) :
    c.send network s r = (.error stop, c₁, s₁) := by
  rw [send, h]

/-- **How a client with credentials sends a request** when nobody else does: as the rules of the
machine say. -/
theorem exists_sending (hc : c.credentials = some credentials) (hh : c.access.holder = none)
    (hq : c.access.queue = []) (network : Network σ) (s : σ) (r : Request) : ∃ es,
      Sending network credentials c.access s r es (c.send network s r).1
        (c.send network s r).2.1.access (c.send network s r).2.2 ∧
      c.access.run es = some (c.send network s r).2.1.access := by
  rcases hf : c.access.fresh? with _ | text
  · rcases hg : fetchGrant network credentials s with ⟨e | g, s₁⟩
    · rw [send_of_bearer_error (bearer_of_refused hc hh hq hf hg)]
      refine ⟨_, .refused hf hg, ?_⟩
      rw [Machine.run_looking_of_stale hh hf,
        Machine.run_cons_of_step (Machine.step_receive_error hh hq e)]
      rfl
    rcases ht : Access.keep? c.access.now g with _ | t
    · rw [send_of_bearer_error (bearer_of_crashed hc hh hq hf hg ht)]
      refine ⟨_, .crashed hf hg ht, ?_⟩
      rw [Machine.run_looking_of_stale hh hf,
        Machine.run_cons_of_step (Machine.step_receive_none hh hq ht)]
      rfl
    · rw [send_of_bearer (m := { c.access with token := some t })
        (bearer_of_renewed hc hh hq hf hg ht)]
      refine ⟨_, .renewed hf hg ht, ?_⟩
      rw [Machine.run_looking_of_stale hh hf,
        Machine.run_cons_of_step (Machine.step_receive_some hh hq ht)]
      exact Machine.run_exchange { c.access with token := some t } g.token
  · rw [send_of_bearer (bearer_of_fresh hc hh hq hf s)]
    refine ⟨_, .reused hf, ?_⟩
    rw [Machine.run_looking_of_fresh hh hq hf]
    exact Machine.run_exchange c.access text

/-! ### The main statement -/

/-- What is true of the token after a run: who asked for it, who sends it, and what becomes of those
who get none. -/
structure Disciplined (es : List Event) (m : Machine) : Prop where
  /-- At most one token is asked for at a time. -/
  requesting_le_one : m.calls.countP (fun p ↦ p = .requesting) ≤ 1
  /-- A call asks for one only when there is none, or when its end has come close. -/
  asks : ∀ k e m', m.step e = some m' → m'.phase? k = some .requesting →
    m.phase? k = some .requesting ∨
      e = .move k .look ∧ ∀ t, m.token = some t → t.refreshAt ≤ m.now
  /-- The token that is kept came to a call, and is kept for the time that it lives, counted from
  then, less a margin. -/
  kept : ∀ t, m.token = some t → ∃ es₁ k, es₁ <+: es ∧ Machine.Obtains es₁ k t
  /-- A request is sent by a call with a token, and carries this token. -/
  sends : ∀ k e m' text, m.step e = some m' → m'.phase? k = some (.sending text) →
    m.phase? k = some (.sending text) ∨ e = .move k .send ∧ m.phase? k = some (.ready text)
  /-- The token of a call was the last thing that it did: either it came to the call, or the call
  took the one that was kept before its end. -/
  carries : ∀ k text, m.phase? k = some (.ready text) → ∃ t es₁ es₂, t.text = text ∧
    es = es₁ ++ es₂ ∧ (Machine.Obtains es₁ k t ∨ Machine.Reads es₁ k t) ∧
      ∀ mv, .move k mv ∉ es₂
  /-- A call whose request for a token comes to nothing leaves the token as it is, goes no further
  and sends nothing. -/
  fails : ∀ k e m', Machine.Fails m k e → m.step e = some m' → m'.token = m.token ∧
    (∃ p, m'.phase? k = some p ∧ p.isOver = true) ∧
      ∀ es' m'', m'.run es' = some m'' → .move k .send ∉ es'
  /-- As long as the token is to be used it stays, and nobody asks for another. -/
  quiet : ∀ t, m.token = some t → ∀ es' m', m.run es' = some m' → m'.now < t.refreshAt →
    m'.token = some t ∧ ∀ k, m'.phase? k ≠ some .requesting
  /-- The client sends its requests by these rules. -/
  client : ∀ {σ : Type} (network : Network σ) (c : AccountsClient) (credentials : Credentials)
    (s : σ) (r : Request), c.credentials = some credentials → c.access = m → m.holder = none →
    ∃ es', Sending network credentials m s r es' (c.send network s r).1
      (c.send network s r).2.1.access (c.send network s r).2.2 ∧
      m.run es' = some (c.send network s r).2.1.access

/-- **Access tokens are asked for one at a time and used before their end**, whatever the calls of
a client do and whoever of them is cancelled. -/
theorem disciplined_of_run (es : List Event) (m : Machine) (h : Machine.start.run es = some m) :
    Disciplined es m := by
  have hlocked := Machine.locked_of_run h
  refine
    { requesting_le_one := Machine.requesting_le_one hlocked
      asks := fun k e m' hs hk ↦ ?_
      kept := Machine.exists_obtains h
      sends := fun _ _ _ _ hs hk ↦ Machine.phase_of_send hlocked hs hk
      carries := Machine.exists_of_ready h
      fails := fun k e m' hf hs ↦ ?_
      quiet := fun _ ht _ _ hrun hnow ↦ Machine.token_of_run h ht hrun hnow
      client := fun network c credentials s r hc hm hh ↦ ?_ }
  · rcases Machine.phase_of_step hlocked (Machine.step_of_step hs) hk with ⟨-, hp⟩ | ⟨p, hp, hb⟩
    · exact absurd hp (by simp)
    rcases hb with ⟨mv, rfl, ht⟩ | ⟨-, rfl | ⟨-, hq⟩⟩
    · obtain ⟨rfl, hfresh⟩ := ht.of_requesting
      exact .inr ⟨rfl, Machine.fresh?_eq_none_iff.1 hfresh⟩
    · exact .inl hp
    · exact absurd hq (by simp)
  · have hstep := Machine.step_of_step hs
    obtain ⟨p, hp, hover⟩ := hf.exists_over hlocked hstep
    have hrun : Machine.start.run (es ++ [e]) = some m' := Machine.run_concat_iff.2 ⟨m, h, hs⟩
    exact ⟨hf.token_eq hstep, ⟨p, hp, hover⟩, fun es' m'' hrun' ↦
      (Machine.phase?_of_isOver hrun hp hover hrun').2 .send⟩
  · subst hm
    exact exists_sending hc hh (hlocked.free hh) network s r

/-- Two calls come together and one of them is cancelled while it asks for a token; the other one
asks then, gets a token and sends it, and a third call takes this token before its end. -/
def sharedToken : List Event :=
  [.call, .call, .move 0 .acquire, .move 1 .acquire, .move 0 .look, .move 0 .cancel,
    .move 1 .look, .tick 500, .move 1 (.receive (.ok ⟨"t", some 60⟩)), .move 1 .send, .call,
    .tick 29999, .move 2 .acquire, .move 2 .look]

/-- One request for a token is lost with the call that made it, and two calls use the token of the
other request. -/
theorem disciplined_sharedToken : ∃ m, Machine.start.run sharedToken = some m ∧
    m.token = some ⟨"t", 30500⟩ ∧ m.calls = [.cancelled, .sending "t", .ready "t"] ∧
    Disciplined sharedToken m := by
  have hrun : (Machine.start.run sharedToken).any (fun m ↦ m.token = some ⟨"t", 30500⟩ ∧
      m.calls = [.cancelled, .sending "t", .ready "t"]) = true := by decide
  obtain ⟨m, hm, hq⟩ := (Option.any_eq_true _ _).1 hrun
  obtain ⟨htoken, hcalls⟩ := of_decide_eq_true hq
  exact ⟨m, hm, htoken, hcalls, disciplined_of_run _ _ hm⟩

end AccountsClient

end Licensing.Client
