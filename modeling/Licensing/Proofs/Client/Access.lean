import Licensing.Client.Access
import Licensing.Proofs.Run

/-!
# The steps of calls that share an access token

`Access.Machine.step` says by computation what happens next, and `Access.Machine.Step` says it as a
relation with one rule for each thing that can happen. Only one rule puts a token in the place of
another (`token_of_step`), and the lock is right about the calls in every state that can be reached
(`locked_of_run`), so that one call at a time holds it. What a step does to a single call is
`Turn`.
-/

namespace Licensing.Client.Access

/-- A call in this phase holds the lock. -/
def Phase.holdsLock : Phase → Bool
  | .holding | .requesting => true
  | _ => false

/-- A call in this phase waits for the lock. -/
def Phase.isQueued : Phase → Bool
  | .queued => true
  | _ => false

/-- A call in this phase goes no further. -/
def Phase.isOver : Phase → Bool
  | .finished | .failed _ | .crashed | .cancelled => true
  | _ => false

namespace Machine

variable {m₀ m m' : Machine} {e : Event} {es es₁ es₂ : List Event} {j k : Nat} {p : Phase}

/-! ### The rules -/

/-- What can happen in a state. -/
inductive Step (m : Machine) : Event → Machine → Prop where
  /-- Another call starts. -/
  | call : Step m .call { m with calls := m.calls ++ [.entering] }
  /-- Time passes. -/
  | tick (ms : Nat) : Step m (.tick ms) { m with now := m.now + ms }
  /-- A call takes the free lock. -/
  | take {k : Nat} (hp : m.phase? k = some .entering) (hh : m.holder = none) :
    Step m (.move k .acquire) ({ m with holder := some k }.setPhase k .holding)
  /-- A call waits for the lock. -/
  | wait {k : Nat} (hp : m.phase? k = some .entering) (hh : m.holder ≠ none) :
    Step m (.move k .acquire) ({ m with queue := m.queue ++ [k] }.setPhase k .queued)
  /-- A call takes the token that is kept. -/
  | reuse {k : Nat} {text : String} (hp : m.phase? k = some .holding)
    (hf : m.fresh? = some text) : Step m (.move k .look) (m.leave k (.ready text))
  /-- A call asks for a token. -/
  | request {k : Nat} (hp : m.phase? k = some .holding) (hf : m.fresh? = none) :
    Step m (.move k .look) (m.setPhase k .requesting)
  /-- A token comes and is kept. -/
  | renew {k : Nat} {g : Grant} {t : Token} (hp : m.phase? k = some .requesting)
    (ht : keep? m.now g = some t) :
    Step m (.move k (.receive (.ok g))) ({ m with token := some t }.leave k (.ready g.token))
  /-- A token comes whose end the clock cannot show. -/
  | overflow {k : Nat} {g : Grant} (hp : m.phase? k = some .requesting)
    (ht : keep? m.now g = none) :
    Step m (.move k (.receive (.ok g))) (m.leave k .crashed)
  /-- No token comes. -/
  | fail {k : Nat} (hp : m.phase? k = some .requesting) (err : RemoteError) :
    Step m (.move k (.receive (.error err))) (m.leave k (.failed err))
  /-- A call sends its request. -/
  | send {k : Nat} {text : String} (hp : m.phase? k = some (.ready text)) :
    Step m (.move k .send) (m.setPhase k (.sending text))
  /-- A call has its reply. -/
  | reply {k : Nat} {text : String} (hp : m.phase? k = some (.sending text)) :
    Step m (.move k .reply) (m.setPhase k .finished)
  /-- A call is cancelled while it waits for the lock. -/
  | withdraw {k : Nat} (hp : m.phase? k = some .queued) :
    Step m (.move k .cancel)
      ({ m with queue := m.queue.filter (· ≠ k) }.setPhase k .cancelled)
  /-- A call is cancelled while it holds the lock. -/
  | abandon {k : Nat} {p : Phase} (hp : m.phase? k = some p) (hl : p.holdsLock = true) :
    Step m (.move k .cancel) (m.leave k .cancelled)
  /-- A call is cancelled while its request is out. -/
  | resign {k : Nat} {text : String} (hp : m.phase? k = some (.sending text)) :
    Step m (.move k .cancel) (m.setPhase k .cancelled)

/-- A call makes a move in its phase only if this is one of the steps that there are. -/
theorem step_of_move {mv : Move} (hk : m.phase? k = some p) (h : m.move k p mv = some m') :
    Step m (.move k mv) m' := by
  unfold move at h
  split at h
  · split at h <;> obtain rfl := Option.some.inj h
    · exact .take hk (Option.isNone_iff_eq_none.1 ‹_›)
    · rename_i hh
      exact .wait hk fun hnone ↦ hh (Option.isNone_iff_eq_none.2 hnone)
  · obtain rfl := Option.some.inj h
    rw [look]
    split
    · exact .reuse hk ‹_›
    · exact .request hk ‹_›
  · rename_i outcome
    obtain rfl := Option.some.inj h
    rcases outcome with err | g
    · exact .fail hk err
    · rw [receive]
      split
      · exact .renew hk ‹_›
      · exact .overflow hk ‹_›
  · obtain rfl := Option.some.inj h
    exact .send hk
  · obtain rfl := Option.some.inj h
    exact .reply hk
  · obtain rfl := Option.some.inj h
    exact .withdraw hk
  · obtain rfl := Option.some.inj h
    exact .abandon hk rfl
  · obtain rfl := Option.some.inj h
    exact .abandon hk rfl
  · obtain rfl := Option.some.inj h
    exact .resign hk
  · exact absurd h (by simp)

/-- What the computation finds is what can happen. -/
theorem step_of_step (h : m.step e = some m') : Step m e m' := by
  match e with
  | .call =>
    obtain rfl := Option.some.inj h
    exact .call
  | .tick ms =>
    obtain rfl := Option.some.inj h
    exact .tick ms
  | .move k mv =>
    rw [step] at h
    split at h
    · exact step_of_move ‹_› h
    · exact absurd h (by simp)

/-! ### Runs -/

/-- A run of two lists of events goes through the state between them. -/
theorem run_append : m.run (es₁ ++ es₂) = (m.run es₁).bind fun next ↦ next.run es₂ :=
  Run.append

/-- The last event of a run is a step from the state that the others lead to. -/
theorem run_concat_iff :
    m₀.run (es ++ [e]) = some m' ↔ ∃ m, m₀.run es = some m ∧ m.step e = some m' :=
  Run.concat_iff

/-- **Induction along a run.** The last step is the one that counts. -/
theorem run_induction {P : List Event → Machine → Prop} (nil : P [] m₀)
    (concat : ∀ es e m m', m₀.run es = some m → P es m → Step m e m' → P (es ++ [e]) m')
    (h : m₀.run es = some m) : P es m :=
  Run.induction nil (fun es e m m' hr hP hs ↦ concat es e m m' hr hP (step_of_step hs)) h

/-! ### What changes -/

/-- To set the phase of a call leaves the token at hand alone. -/
@[simp] theorem setPhase_token : (m.setPhase k p).token = m.token := rfl

/-- It takes no time either. -/
@[simp] theorem setPhase_now : (m.setPhase k p).now = m.now := rfl

/-- A call that leaves the lock does not change the token at hand. -/
@[simp] theorem leave_token : (m.leave k p).token = m.token := by
  unfold leave unlock
  split <;> rfl

/-- To leave the lock takes no time. -/
@[simp] theorem leave_now : (m.leave k p).now = m.now := by
  unfold leave unlock
  split <;> rfl

/-- Time does not run backwards. -/
theorem now_le_of_step (h : Step m e m') : m.now ≤ m'.now := by
  cases h with
  | tick ms => exact Nat.le_add_right _ _
  | _ => simp

/-- **Only a token that comes takes the place of another.** -/
theorem token_of_step (h : Step m e m') : m'.token = m.token ∨ ∃ k g t,
    e = .move k (.receive (.ok g)) ∧ m.phase? k = some .requesting ∧ keep? m.now g = some t ∧
      m'.token = some t := by
  cases h with
  | @renew k g t hp ht => exact .inr ⟨k, g, t, rfl, hp, ht, by simp⟩
  | _ => exact .inl (by simp)

/-- Only the call that was meant is in another phase then. -/
theorem phase?_setPhase : (m.setPhase k p).phase? j =
    if k = j then (if k < m.calls.length then some p else none) else m.phase? j :=
  List.getElem?_set

/-- A call with a phase has a number among the calls. -/
theorem lt_of_phase? (h : m.phase? k = some p) : k < m.calls.length :=
  (List.getElem?_eq_some_iff.1 h).1

/-! ### The lock -/

/-- The calls know who holds the lock and who waits for it. -/
structure Marks (holder : Option Nat) (queue : List Nat) (calls : List Phase) : Prop where
  /-- Who holds it knows that. -/
  holder : ∀ k, holder = some k ↔ (calls[k]?).any Phase.holdsLock = true
  /-- Who waits for it knows that. -/
  queue : ∀ k, k ∈ queue ↔ (calls[k]?).any Phase.isQueued = true

/-- The lock is right about the calls. -/
structure Locked (m : Machine) : Prop where
  /-- The calls know it. -/
  marks : Marks m.holder m.queue m.calls
  /-- Nobody waits twice. -/
  nodup : m.queue.Nodup
  /-- Nobody waits for a free lock. -/
  free : m.holder = none → m.queue = []

/-- At the start there is no call, and the lock is free. -/
theorem locked_start : Locked start :=
  ⟨⟨by simp [start], by simp [start]⟩, .nil, fun _ ↦ rfl⟩

/-- Whether a call is in a phase of some kind, after one call has got another phase. -/
theorem any_set {calls : List Phase} {q : Phase} (hk : calls[k]? = some q) (f : Phase → Bool) :
    ((calls.set k p)[j]?).any f = if k = j then f p else (calls[j]?).any f := by
  rw [List.getElem?_set]
  split
  · rw [if_pos (List.getElem?_eq_some_iff.1 hk).1, Option.any_some]
  · rfl

/-- A call that has just come is in no phase of a kind that its first one is not of. -/
theorem any_concat (calls : List Phase) (f : Phase → Bool) (hf : f .entering = false) :
    ((calls ++ [.entering])[j]?).any f = (calls[j]?).any f := by
  rcases Nat.lt_trichotomy j calls.length with hlt | rfl | hgt
  · rw [List.getElem?_append_left hlt]
  · rw [List.getElem?_concat_length, List.getElem?_eq_none (Nat.le_refl _), Option.any_some, hf,
      Option.any_none]
  · rw [List.getElem?_eq_none (by simp; omega), List.getElem?_eq_none (by omega)]

/-- One call comes to another phase, and the lock with it. -/
theorem Marks.set {holder holder' : Option Nat} {queue queue' : List Nat} {calls : List Phase}
    {q : Phase} (h : Marks holder queue calls) (hk : calls[k]? = some q)
    (hh : ∀ j, holder' = some j ↔ if k = j then p.holdsLock = true else holder = some j)
    (hq : ∀ j, j ∈ queue' ↔ if k = j then p.isQueued = true else j ∈ queue) :
    Marks holder' queue' (calls.set k p) := by
  refine ⟨fun j ↦ ?_, fun j ↦ ?_⟩
  · rw [hh, any_set hk]
    split
    · rfl
    · exact h.holder j
  · rw [hq, any_set hk]
    split
    · rfl
    · exact h.queue j

/-- If nobody waits, the lock is free when a call leaves it. -/
theorem leave_of_nil (hq : m.queue = []) :
    m.leave k p = { m with holder := none }.setPhase k p := by
  simp [leave, unlock, setPhase, hq]

/-- If somebody waits, the first in the queue has the lock next. -/
theorem leave_of_cons {next : Nat} {rest : List Nat} (hq : m.queue = next :: rest) :
    m.leave k p =
      ({ m with holder := some next, queue := rest }.setPhase k p).setPhase next .holding := by
  simp [leave, unlock, setPhase, hq]

namespace Locked

variable {q : Phase}

/-- The phase of a call tells that it has the lock. -/
theorem holder_of_phase? (h : Locked m) (hk : m.phase? k = some q) (hl : q.holdsLock = true) :
    m.holder = some k :=
  (h.marks.holder k).2 (by rw [← phase?, hk, Option.any_some, hl])

/-- A call that does not wait is not in the queue. -/
theorem not_mem_queue (h : Locked m) (hk : m.phase? k = some q) (hq : q.isQueued = false) :
    k ∉ m.queue := by
  intro hmem
  have hany := (h.marks.queue k).1 hmem
  rw [← phase?, hk, Option.any_some, hq] at hany
  exact absurd hany (by simp)

/-- A call whose phase goes without the lock does not have it. -/
theorem holder_ne (h : Locked m) (hk : m.phase? k = some q) (hl : q.holdsLock = false) :
    m.holder ≠ some k := by
  intro heq
  have hany := (h.marks.holder k).1 heq
  rw [← phase?, hk, Option.any_some, hl] at hany
  exact absurd hany (by simp)

/-- A call that comes has neither the lock nor a place in the queue. -/
theorem call (h : Locked m) : Locked { m with calls := m.calls ++ [.entering] } where
  marks :=
    { holder := fun j ↦ by rw [any_concat _ _ rfl]; exact h.marks.holder j
      queue := fun j ↦ by rw [any_concat _ _ rfl]; exact h.marks.queue j }
  nodup := h.nodup
  free := h.free

/-- A call goes on that does not wait, and holds the lock as before. -/
theorem setPhase (h : Locked m) (hk : m.phase? k = some q) (hl : p.holdsLock = q.holdsLock)
    (hp : p.isQueued = false) (hq : q.isQueued = false) : Locked (m.setPhase k p) where
  marks := by
    show Marks m.holder m.queue (m.calls.set k p)
    refine h.marks.set hk (fun j ↦ ?_) fun j ↦ ?_
    · split
      · rename_i hkj
        rw [← hkj, h.marks.holder k, ← phase?, hk, Option.any_some, hl]
      · rfl
    · split
      · rename_i hkj
        rw [← hkj, hp]
        exact iff_of_false (h.not_mem_queue hk hq) (by simp)
      · rfl
  nodup := h.nodup
  free := h.free

/-- A call takes the lock when it is free. -/
theorem take (h : Locked m) (hk : m.phase? k = some .entering) (hh : m.holder = none) :
    Locked ({ m with holder := some k }.setPhase k .holding) where
  marks := by
    show Marks (some k) m.queue (m.calls.set k .holding)
    refine h.marks.set hk (fun j ↦ ?_) fun j ↦ ?_
    · split
      · rename_i hkj
        simp [hkj, Phase.holdsLock]
      · rw [hh]
        simpa using ‹_›
    · split
      · rename_i hkj
        exact iff_of_false (hkj ▸ h.not_mem_queue hk rfl) (by simp [Phase.isQueued])
      · rfl
  nodup := h.nodup
  free := fun hnone ↦ absurd hnone (Option.some_ne_none k)

/-- A call goes to the end of the queue when somebody else has the lock. -/
theorem wait (h : Locked m) (hk : m.phase? k = some .entering) (hh : m.holder ≠ none) :
    Locked ({ m with queue := m.queue ++ [k] }.setPhase k .queued) where
  marks := by
    show Marks m.holder (m.queue ++ [k]) (m.calls.set k .queued)
    refine h.marks.set hk (fun j ↦ ?_) fun j ↦ ?_
    · split
      · rename_i hkj
        exact iff_of_false (hkj ▸ h.holder_ne hk rfl) (by simp [Phase.holdsLock])
      · rfl
    · rw [List.mem_append, List.mem_singleton]
      split
      · rename_i hkj
        simp [hkj, Phase.isQueued]
      · rename_i hkj
        exact or_iff_left fun hjk ↦ hkj hjk.symm
  nodup := by
    refine List.nodup_append.2 ⟨h.nodup, by simp, fun a ha b hb ↦ ?_⟩
    rintro rfl
    obtain rfl := List.mem_singleton.1 hb
    exact h.not_mem_queue hk rfl ha
  free := fun hnone ↦ absurd hnone hh

/-- A call that is cancelled while it waits gives up its place in the queue. -/
theorem withdraw (h : Locked m) (hk : m.phase? k = some .queued) :
    Locked ({ m with queue := m.queue.filter (· ≠ k) }.setPhase k .cancelled) where
  marks := by
    show Marks m.holder (m.queue.filter (· ≠ k)) (m.calls.set k .cancelled)
    refine h.marks.set hk (fun j ↦ ?_) fun j ↦ ?_
    · split
      · rename_i hkj
        exact iff_of_false (hkj ▸ h.holder_ne hk rfl) (by simp [Phase.holdsLock])
      · rfl
    · rw [List.mem_filter, decide_eq_true_eq]
      split
      · rename_i hkj
        simp [hkj, Phase.isQueued]
      · rename_i hkj
        exact and_iff_left fun hjk ↦ hkj hjk.symm
  nodup := h.nodup.filter _
  free := fun hnone ↦ by
    show m.queue.filter _ = []
    rw [h.free hnone, List.filter_nil]

/-- A call leaves the lock, which goes to the first that waits. -/
theorem leave (h : Locked m) (hk : m.phase? k = some q) (hl : q.holdsLock = true)
    (hp : p.holdsLock = false) (hq : p.isQueued = false) : Locked (m.leave k p) := by
  have hholder := h.holder_of_phase? hk hl
  have hqueue : q.isQueued = false := by
    cases q <;> first | rfl | exact absurd hl (by simp [Phase.holdsLock])
  -- The call that leaves neither holds the lock nor waits for it, and nobody else held it.
  have hmarks : Marks none m.queue (m.calls.set k p) := by
    refine h.marks.set hk (fun j ↦ ?_) fun j ↦ ?_
    · split
      · simp [hp]
      · rw [hholder]
        simpa using ‹_›
    · split
      · rename_i hkj
        rw [← hkj, hq]
        exact iff_of_false (h.not_mem_queue hk hqueue) (by simp)
      · rfl
  rcases hrest : m.queue with _ | ⟨next, rest⟩
  · rw [leave_of_nil hrest]
    exact ⟨hmarks, h.nodup, fun _ ↦ hrest⟩
  · rw [hrest] at hmarks
    obtain ⟨hnext, hnodup⟩ := List.nodup_cons.1 (hrest ▸ h.nodup)
    have hany : ((m.calls.set k p)[next]?).any Phase.isQueued = true :=
      (hmarks.queue next).1 List.mem_cons_self
    obtain ⟨p', hp', -⟩ := (Option.any_eq_true _ _).1 hany
    rw [leave_of_cons hrest]
    refine ⟨?_, hnodup, fun hnone ↦ absurd hnone (Option.some_ne_none next)⟩
    show Marks (some next) rest ((m.calls.set k p).set next .holding)
    refine hmarks.set hp' (fun j ↦ ?_) fun j ↦ ?_
    · split
      · rename_i hj
        simp [hj, Phase.holdsLock]
      · simpa using ‹_›
    · split
      · rename_i hj
        exact iff_of_false (hj ▸ hnext) (by simp [Phase.isQueued])
      · rename_i hj
        rw [List.mem_cons]
        exact (or_iff_right fun hjn ↦ hj hjn.symm).symm

/-- **Every step keeps the lock in order**: who has it, and who waits for it, is told by the phases.
-/
theorem step (h : Locked m) (hs : Step m e m') : Locked m' := by
  cases hs with
  | call => exact h.call
  | tick ms => exact ⟨h.marks, h.nodup, h.free⟩
  | take hp hh => exact h.take hp hh
  | wait hp hh => exact h.wait hp hh
  | reuse hp hf => exact h.leave hp rfl rfl rfl
  | request hp hf => exact h.setPhase hp rfl rfl rfl
  | renew hp ht => exact Locked.leave ⟨h.marks, h.nodup, h.free⟩ hp rfl rfl rfl
  | overflow hp ht => exact h.leave hp rfl rfl rfl
  | fail hp err => exact h.leave hp rfl rfl rfl
  | send hp => exact h.setPhase hp rfl rfl rfl
  | reply hp => exact h.setPhase hp rfl rfl rfl
  | withdraw hp => exact h.withdraw hp
  | abandon hp hl => exact h.leave hp hl rfl rfl
  | resign hp => exact h.setPhase hp rfl rfl rfl

end Locked

/-- So the lock is in order after every run. -/
theorem locked_of_run (h : start.run es = some m) : Locked m :=
  run_induction (P := fun _ m ↦ Locked m) locked_start (fun _ _ _ _ _ ih hs ↦ ih.step hs) h

/-! ### A call after a step -/

/-- The phase that a move of its own brings a call to. -/
inductive Turn (m : Machine) : Phase → Move → Phase → Prop where
  | take : Turn m .entering .acquire .holding
  | wait : Turn m .entering .acquire .queued
  | reuse {text : String} (hf : m.fresh? = some text) : Turn m .holding .look (.ready text)
  | request (hf : m.fresh? = none) : Turn m .holding .look .requesting
  | renew {g : Grant} {t : Token} (ht : keep? m.now g = some t) :
    Turn m .requesting (.receive (.ok g)) (.ready g.token)
  | overflow {g : Grant} (ht : keep? m.now g = none) :
    Turn m .requesting (.receive (.ok g)) .crashed
  | fail (err : RemoteError) : Turn m .requesting (.receive (.error err)) (.failed err)
  | send (text : String) : Turn m (.ready text) .send (.sending text)
  | reply (text : String) : Turn m (.sending text) .reply .finished
  | withdraw : Turn m .queued .cancel .cancelled
  | abandon {p : Phase} (hl : p.holdsLock = true) : Turn m p .cancel .cancelled
  | resign (text : String) : Turn m (.sending text) .cancel .cancelled

/-- What a step may do to a call: bring it on by its own move, leave it as it is, or give it the
lock. -/
def Becomes (m : Machine) (e : Event) (k : Nat) (p p' : Phase) : Prop :=
  (∃ mv, e = .move k mv ∧ Turn m p mv p') ∨
    ((∀ mv, e ≠ .move k mv) ∧ (p' = p ∨ p = .queued ∧ p' = .holding))

section Becomes

variable {mv : Move} {p' q : Phase}

/-- A call after another phase of one that moves. -/
theorem becomes_of_setPhase {calls : List Phase} (hcalls : calls = m.calls)
    (hk : m.phase? k = some q) (ht : Turn m q mv p) (hj : (calls.set k p)[j]? = some p') :
    ∃ p, m.phase? j = some p ∧ Becomes m (.move k mv) j p p' := by
  subst hcalls
  rw [List.getElem?_set] at hj
  split at hj
  · rename_i hkj
    subst hkj
    split at hj
    · obtain rfl := Option.some.inj hj
      exact ⟨q, hk, .inl ⟨mv, rfl, ht⟩⟩
    · exact absurd hj (by simp)
  · rename_i hkj
    exact ⟨p', hj, .inr ⟨fun mv heq ↦ hkj (Event.move.inj heq).1, .inl rfl⟩⟩

/-- A call after another one left the lock. -/
theorem becomes_of_leave {m₁ : Machine} (h : Locked m) (hcalls : m₁.calls = m.calls)
    (hqueue : m₁.queue = m.queue) (hk : m.phase? k = some q) (hl : q.holdsLock = true)
    (ht : Turn m q mv p) (hj : (m₁.leave k p).phase? j = some p') :
    ∃ p, m.phase? j = some p ∧ Becomes m (.move k mv) j p p' := by
  rcases hrest : m₁.queue with _ | ⟨next, rest⟩
  · rw [leave_of_nil hrest] at hj
    exact becomes_of_setPhase hcalls hk ht hj
  · rw [leave_of_cons hrest, phase?_setPhase] at hj
    split at hj
    · -- The call that waited first is given the lock.
      rename_i hnext
      subst hnext
      split at hj
      · obtain rfl := Option.some.inj hj
        have hmem : next ∈ m.queue := by
          rw [← hqueue, hrest]
          exact List.mem_cons_self
        obtain ⟨p₀, hp₀, hqueued⟩ :=
          (Option.any_eq_true _ _).1 ((h.marks.queue next).1 hmem)
        have hp₀ : m.phase? next = some p₀ := hp₀
        have hwaits : p₀ = .queued := by
          match p₀, hqueued with
          | .queued, _ => rfl
        have hne : k ≠ next := by
          rintro rfl
          rw [hk] at hp₀
          obtain rfl := Option.some.inj hp₀
          rw [hwaits] at hl
          exact absurd hl (by simp [Phase.holdsLock])
        exact ⟨p₀, hp₀, .inr ⟨fun mv heq ↦ hne (Event.move.inj heq).1, .inr ⟨hwaits, rfl⟩⟩⟩
      · exact absurd hj (by simp)
    · exact becomes_of_setPhase hcalls hk ht hj

/-- **A call after a step** has just started, or was there before. -/
theorem phase_of_step (h : Locked m) (hs : Step m e m') (hj : m'.phase? j = some p') :
    (j = m.calls.length ∧ p' = .entering) ∨ ∃ p, m.phase? j = some p ∧ Becomes m e j p p' := by
  cases hs with
  | call =>
    have hj : (m.calls ++ [.entering])[j]? = some p' := hj
    rw [List.getElem?_append] at hj
    split at hj
    · exact .inr ⟨p', hj, .inr ⟨by simp, .inl rfl⟩⟩
    · obtain ⟨hlt, rfl⟩ := List.getElem?_eq_some_iff.1 hj
      rw [List.length_singleton] at hlt
      exact .inl ⟨by omega, by simp⟩
  | tick ms => exact .inr ⟨p', hj, .inr ⟨by simp, .inl rfl⟩⟩
  | take hp hh => exact .inr (becomes_of_setPhase rfl hp .take hj)
  | wait hp hh => exact .inr (becomes_of_setPhase rfl hp .wait hj)
  | reuse hp hf => exact .inr (becomes_of_leave h rfl rfl hp rfl (.reuse hf) hj)
  | request hp hf => exact .inr (becomes_of_setPhase rfl hp (.request hf) hj)
  | renew hp ht => refine .inr (becomes_of_leave h ?_ ?_ hp rfl (.renew ht) hj) <;> rfl
  | overflow hp ht => exact .inr (becomes_of_leave h rfl rfl hp rfl (.overflow ht) hj)
  | fail hp err => exact .inr (becomes_of_leave h rfl rfl hp rfl (.fail err) hj)
  | send hp => exact .inr (becomes_of_setPhase rfl hp (.send _) hj)
  | reply hp => exact .inr (becomes_of_setPhase rfl hp (.reply _) hj)
  | withdraw hp => exact .inr (becomes_of_setPhase rfl hp .withdraw hj)
  | abandon hp hl => exact .inr (becomes_of_leave h rfl rfl hp hl (.abandon hl) hj)
  | resign hp => exact .inr (becomes_of_setPhase rfl hp (.resign _) hj)

/-- Calls are never forgotten. -/
theorem length_le_of_step (h : Step m e m') : m.calls.length ≤ m'.calls.length := by
  have hleave : ∀ {m₁ : Machine} {k : Nat} {p : Phase}, (m₁.leave k p).calls.length =
      m₁.calls.length := by
    intro m₁ k p
    rcases hrest : m₁.queue with _ | ⟨next, rest⟩
    · simp [leave_of_nil hrest, setPhase]
    · simp [leave_of_cons hrest, setPhase]
  cases h <;> simp [setPhase, hleave]

/-- A call is there after a step. -/
theorem exists_phase_of_step (h : Locked m) (hs : Step m e m') (hj : m.phase? j = some q) :
    ∃ p', m'.phase? j = some p' ∧ Becomes m e j q p' := by
  have hlt := lt_of_phase? hj
  obtain ⟨p', hj'⟩ : ∃ p', m'.phase? j = some p' :=
    ⟨_, List.getElem?_eq_getElem (Nat.lt_of_lt_of_le hlt (length_le_of_step hs))⟩
  rcases phase_of_step h hs hj' with ⟨rfl, -⟩ | ⟨p, hp, hb⟩
  · exact absurd hlt (Nat.lt_irrefl _)
  · obtain rfl := Option.some.inj (hj.symm.trans hp)
    exact ⟨_, hj', hb⟩

end Becomes

end Machine

end Licensing.Client.Access
