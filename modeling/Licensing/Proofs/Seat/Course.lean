import Licensing.Seat.Manager
import Licensing.Seat.Transcript

/-!
# The courses of a conversation

What the services answer is not known, nor which of two answers comes first, so a conversation can
take many courses. A course is a list of questions with their answers, in the order in which these
come, and the outcome that they lead to (`Dialogue.Course`). Whatever the services are, the
conversation with them takes one of its courses (`course_transcript`); so what holds on every course
holds for every behaviour of the services. A conversation that is put together takes the courses of
its parts, one after another (`course_bind`).

A question that is sent need not be answered: of two questions at once the second answer is not
waited for when the first one is a failure, and whoever has the conversation may be gone. So it is
told apart which questions are sent, and after which answers (`Dialogue.Sends`).

The last part lists the courses of the one conversation that all seat operations share, the
question for the name of the caller's organization in the accounts system.
-/

namespace Licensing

/-! ### Transcripts, question by question -/

section Transcripts

variable (e : Exchange) (es : List Exchange)

@[simp] theorem deletions_nil : deletions [] = [] := rfl

@[simp] theorem deletions_cons : deletions (e :: es) = e.deletion?.toList ++ deletions es := by
  rw [deletions, List.filterMap_cons]
  cases e.deletion? <;> rfl

@[simp] theorem authorizations_nil : authorizations [] = [] := rfl

@[simp] theorem authorizations_cons :
    authorizations (e :: es) = e.authorization?.toList ++ authorizations es := by
  rw [authorizations, List.filterMap_cons]
  cases e.authorization? <;> rfl

@[simp] theorem failures_nil : failures [] = [] := rfl

@[simp] theorem failures_cons : failures (e :: es) = e.failure?.toList ++ failures es := by
  rw [failures, List.filterMap_cons]
  cases e.failure? <;> rfl

end Transcripts

/-! ### Courses -/

namespace Dialogue

variable {α β σ : Type} {es : List Exchange} {c c' : SeatCall}

/-- How two questions at once can be answered: in any order, up to the first failure. -/
inductive Both (c c' : SeatCall) :
    List Exchange → Except RemoteError (c.Reply × c'.Reply) → Prop where
  /-- Both are answered, the first one first. -/
  | inOrder (a : c.Reply) (b : c'.Reply) : Both c c' [⟨c, .ok a⟩, ⟨c', .ok b⟩] (.ok (a, b))
  /-- Both are answered, the second one first. -/
  | swapped (a : c.Reply) (b : c'.Reply) : Both c c' [⟨c', .ok b⟩, ⟨c, .ok a⟩] (.ok (a, b))
  /-- The first one fails, and the second one is dropped. -/
  | first (e : RemoteError) : Both c c' [⟨c, .error e⟩] (.error e)
  /-- The second one fails, and the first one is dropped. -/
  | second (e : RemoteError) : Both c c' [⟨c', .error e⟩] (.error e)
  /-- The second one fails when the first one is answered. -/
  | secondLast (a : c.Reply) (e : RemoteError) : Both c c' [⟨c, .ok a⟩, ⟨c', .error e⟩] (.error e)
  /-- The first one fails when the second one is answered. -/
  | firstLast (b : c'.Reply) (e : RemoteError) : Both c c' [⟨c', .ok b⟩, ⟨c, .error e⟩] (.error e)

/-- What the answers to two questions at once say of failures is what comes of them. -/
theorem Both.failures_eq {r : Except RemoteError (c.Reply × c'.Reply)} (h : Both c c' es r) :
    failures es = match r with
      | .ok _ => []
      | .error e => [e] := by
  cases h <;> rfl

/-- Nothing is answered but the two questions. -/
theorem Both.call_eq {r : Except RemoteError (c.Reply × c'.Reply)} (h : Both c c' es r) :
    ∀ x ∈ es, x.call = c ∨ x.call = c' := by
  cases h <;> simp

/-- At least one of the two is answered. -/
theorem Both.ne_nil {r : Except RemoteError (c.Reply × c'.Reply)} (h : Both c c' es r) :
    es ≠ [] := by
  cases h <;> simp

/-- A conversation can ask and be answered this, with this outcome. -/
inductive Course : Dialogue α → List Exchange → Except SeatError α → Prop where
  /-- It ends with a result. -/
  | done (a : α) : Course (.done a) [] (.ok a)
  /-- It ends with an error. -/
  | fail (e : SeatError) : Course (.fail e) [] (.error e)
  /-- A question is answered, and it goes on. -/
  | ask {c : SeatCall} {next : c.Answer → Dialogue α} {es : List Exchange}
    {o : Except SeatError α} (r : c.Answer) (h : Course (next r) es o) :
    Course (.ask c next) (⟨c, r⟩ :: es) o
  /-- Two questions at once are answered well, and it goes on. -/
  | join {c c' : SeatCall} {next : c.Reply → c'.Reply → Dialogue α} {xs es : List Exchange}
    {a : c.Reply} {b : c'.Reply} {o : Except SeatError α} (hxs : Both c c' xs (.ok (a, b)))
    (h : Course (next a b) es o) : Course (.join c c' next) (xs ++ es) o
  /-- One of two questions at once fails. -/
  | torn {c c' : SeatCall} {next : c.Reply → c'.Reply → Dialogue α} {xs : List Exchange}
    {e : RemoteError} (hxs : Both c c' xs (.error e)) :
    Course (.join c c' next) xs (.error (.remote e))

/-- **Whatever the services are**, the conversation with them takes one of its courses. The
induction is on the conversation: each question is answered by the services as they are by then, and
of two questions at once the first is answered first. -/
theorem course_transcript (answer : σ → (c : SeatCall) → c.Answer × σ) (d : Dialogue α) (s : σ) :
    Course d (d.transcript answer s) (d.run answer s).1 := by
  induction d generalizing s with
  | done a => exact .done a
  | fail e => exact .fail e
  | ask c next ih => exact .ask _ (ih _ _)
  | join c c' next ih =>
    rw [transcript, run]
    rcases answer s c with ⟨e | a, s₁⟩
    · exact .torn (.first e)
    dsimp only
    rcases answer s₁ c' with ⟨e | b, s₂⟩
    · exact .torn (.secondLast a e)
    · exact .join (.inOrder a b) (ih a b s₂)

/-- A conversation that has a result without asking anything is that result. -/
theorem Course.eq_done_of_nil {d : Dialogue α} {a : α} (h : Course d [] (.ok a)) : d = .done a := by
  generalize hes : ([] : List Exchange) = es at h
  cases h with
  | done => rfl
  | ask => cases hes
  | join hxs => exact absurd (List.append_eq_nil_iff.1 hes.symm).1 hxs.ne_nil

/-- A conversation with a next question asks it alone, or at once with another one. -/
theorem cases_of_next? {d : Dialogue α} {next : c.Answer → Dialogue α}
    (h : d.next? = some ⟨c, next⟩) : d = .ask c next ∨ ∃ c' both,
      d = .join c c' both ∧ next = settle fun a ↦ .ask c' (settle (both a)) := by
  cases d with
  | done a => cases h
  | fail e => cases h
  | ask c₁ next₁ =>
    obtain ⟨rfl, hnext⟩ := Sigma.mk.inj (Option.some.inj h)
    exact .inl (congrArg (Dialogue.ask _) (eq_of_heq hnext))
  | join c₁ c₂ both =>
    obtain ⟨rfl, hnext⟩ := Sigma.mk.inj (Option.some.inj h)
    exact .inr ⟨c₂, both, rfl, (eq_of_heq hnext).symm⟩

/-- **The next question of a conversation** can be answered in any way; what it goes on with has no
other courses than the conversation itself. -/
theorem Course.of_next? {d : Dialogue α} {next : c.Answer → Dialogue α} {r : c.Answer}
    {o : Except SeatError α} (hd : d.next? = some ⟨c, next⟩) (h : Course (next r) es o) :
    Course d (⟨c, r⟩ :: es) o := by
  rcases cases_of_next? hd with rfl | ⟨c', both, rfl, rfl⟩
  · exact .ask r h
  cases r with
  | error e =>
    cases h with
    | fail => exact .torn (.first e)
  | ok a =>
    cases h with
    | ask r' h =>
      cases r' with
      | error e =>
        cases h with
        | fail => exact .torn (.secondLast a e)
      | ok b => exact .join (.inOrder a b) h

/-! ### The courses of conversations that are put together -/

/-- The next question is the same when another conversation goes on with the result. -/
theorem next?_bind {d : Dialogue α} {next : c.Answer → Dialogue α}
    (h : d.next? = some ⟨c, next⟩) (f : α → Dialogue β) :
    (d >>= f).next? = some ⟨c, fun r ↦ next r >>= f⟩ := by
  rcases cases_of_next? h with rfl | ⟨c', both, rfl, rfl⟩
  · rfl
  refine congrArg some (Sigma.ext rfl (heq_of_eq (funext fun r ↦ ?_)))
  rcases r with e | a
  · rfl
  refine congrArg (Dialogue.ask c') (funext fun r ↦ ?_)
  rcases r with e | b <;> rfl

/-- A conversation that goes on with another either fails on its own, or the other takes over. -/
theorem course_bind {d : Dialogue α} {f : α → Dialogue β} {o : Except SeatError β}
    (h : Course (d >>= f) es o) :
    (∃ e, Course d es (.error e) ∧ o = .error e) ∨
      ∃ a es₁ es₂, Course d es₁ (.ok a) ∧ Course (f a) es₂ o ∧ es = es₁ ++ es₂ := by
  induction d generalizing es with
  | done a => exact .inr ⟨a, [], es, .done a, h, rfl⟩
  | fail e =>
    cases h with
    | fail => exact .inl ⟨e, .fail e, rfl⟩
  | ask c next ih =>
    cases h with
    | ask r h =>
      rcases ih r h with ⟨e, he, ho⟩ | ⟨a, es₁, es₂, h₁, h₂, rfl⟩
      · exact .inl ⟨e, .ask r he, ho⟩
      · exact .inr ⟨a, ⟨c, r⟩ :: es₁, es₂, .ask r h₁, h₂, rfl⟩
  | join c c' next ih =>
    cases h with
    | join hxs h =>
      rcases ih _ _ h with ⟨e, he, ho⟩ | ⟨a, es₁, es₂, h₁, h₂, rfl⟩
      · exact .inl ⟨e, .join hxs he, ho⟩
      · exact .inr ⟨a, _, es₂, .join hxs h₁, h₂, (List.append_assoc ..).symm⟩
    | torn hxs => exact .inl ⟨_, .torn hxs, rfl⟩

/-- A course that ends with a result is gone on with. -/
theorem Course.bind {d : Dialogue α} {a : α} {f : α → Dialogue β} {es' : List Exchange}
    {o : Except SeatError β} (h : Course d es (.ok a)) (h' : Course (f a) es' o) :
    Course (d >>= f) (es ++ es') o := by
  generalize ha : Except.ok a = r at h
  induction h with
  | done b =>
    obtain rfl := Except.ok.inj ha
    exact h'
  | fail e => cases ha
  | ask r h ih => exact .ask r (ih ha)
  | join hxs h ih =>
    rw [List.append_assoc]
    exact .join hxs (ih ha)
  | torn => cases ha

/-- A condition that does not hold ends the conversation. -/
theorem course_require_bind {b : Bool} {e : SeatError} {f : Unit → Dialogue β}
    {o : Except SeatError β} (h : Course (require b e >>= f) es o) :
    (b = false ∧ es = [] ∧ o = .error e) ∨ (b = true ∧ Course (f ()) es o) := by
  cases b with
  | true => exact .inr ⟨rfl, h⟩
  | false =>
    cases h with
    | fail => exact .inl ⟨rfl, rfl, rfl⟩

/-- A service that fails ends the conversation. -/
theorem course_call_bind {f : c.Reply → Dialogue β} {o : Except SeatError β}
    (h : Course (call c >>= f) es o) :
    (∃ e, es = [⟨c, .error e⟩] ∧ o = .error (.remote e)) ∨
      ∃ reply es', es = ⟨c, .ok reply⟩ :: es' ∧ Course (f reply) es' o := by
  cases h with
  | ask r h =>
    cases r with
    | ok reply => exact .inr ⟨reply, _, rfl, h⟩
    | error e =>
      cases h with
      | fail => exact .inl ⟨e, rfl, rfl⟩

/-- A condition that holds is passed. -/
theorem course_require {b : Bool} (hb : b = true) (e : SeatError) :
    Course (require b e) [] (.ok ()) := by
  rw [require, if_pos hb]
  exact .done ()

/-- A question that is answered well. -/
theorem course_call_ok (c : SeatCall) (reply : c.Reply) :
    Course (call c) [⟨c, .ok reply⟩] (.ok reply) :=
  .ask (.ok reply) (.done reply)

/-- A question with which a conversation ends. -/
theorem course_call {o : Except SeatError c.Reply} (h : Course (call c) es o) :
    (∃ e, es = [⟨c, .error e⟩] ∧ o = .error (.remote e)) ∨
      ∃ reply, es = [⟨c, .ok reply⟩] ∧ o = .ok reply := by
  cases h with
  | ask r h =>
    cases r with
    | ok reply =>
      cases h with
      | done => exact .inr ⟨reply, rfl, rfl⟩
    | error e =>
      cases h with
      | fail => exact .inl ⟨e, rfl, rfl⟩

/-- A service that fails ends the conversation also if two questions are asked at once. -/
theorem course_both_bind {f : c.Reply × c'.Reply → Dialogue β} {o : Except SeatError β}
    (h : Course (both c c' >>= f) es o) :
    (∃ e, Both c c' es (.error e) ∧ o = .error (.remote e)) ∨
      ∃ a b xs es', Both c c' xs (.ok (a, b)) ∧ es = xs ++ es' ∧ Course (f (a, b)) es' o := by
  cases h with
  | join hxs h => exact .inr ⟨_, _, _, _, hxs, rfl, h⟩
  | torn hxs => exact .inl ⟨_, hxs, rfl⟩

/-! ### What is sent -/

/-- Once it has these answers, a conversation can have sent this question, whether it is answered or
not. Both of two questions at once can be in flight before either is answered. -/
inductive Sends : Dialogue α → List Exchange → SeatCall → Prop where
  /-- A question is sent. -/
  | ask {c : SeatCall} {next : c.Answer → Dialogue α} : Sends (.ask c next) [] c
  /-- A question is sent after the answer to another one. -/
  | later {c x : SeatCall} {next : c.Answer → Dialogue α} {es : List Exchange} (r : c.Answer)
    (h : Sends (next r) es x) : Sends (.ask c next) (⟨c, r⟩ :: es) x
  /-- Of two questions at once the first one is sent without an answer to the other. -/
  | first {c c' : SeatCall} {next : c.Reply → c'.Reply → Dialogue α} : Sends (.join c c' next) [] c
  /-- So is the second one. -/
  | second {c c' : SeatCall} {next : c.Reply → c'.Reply → Dialogue α} :
    Sends (.join c c' next) [] c'
  /-- A question is sent after the answers to two others. -/
  | behind {c c' x : SeatCall} {next : c.Reply → c'.Reply → Dialogue α} {xs es : List Exchange}
    {a : c.Reply} {b : c'.Reply} (hxs : Both c c' xs (.ok (a, b))) (h : Sends (next a b) es x) :
    Sends (.join c c' next) (xs ++ es) x

/-- What is answered of two questions at once was sent before either answer came. -/
theorem Both.sends {r : Except RemoteError (c.Reply × c'.Reply)} (h : Both c c' es r)
    (next : c.Reply → c'.Reply → Dialogue α) {x : Exchange} (hx : x ∈ es) :
    (Dialogue.join c c' next).Sends [] x.call := by
  rcases h.call_eq x hx with hcall | hcall <;> rw [hcall]
  · exact .first
  · exact .second

/-- **What is answered was sent**, by the answers that had come before or fewer: a question at the
same time as another one does not wait for its answer. -/
theorem Course.exists_sends {d : Dialogue α} {o : Except SeatError α} (h : Course d es o) :
    ∀ x ∈ es, ∃ es₁, es₁ <+: es ∧ d.Sends es₁ x.call := by
  induction h with
  | done a => simp
  | fail e => simp
  | @ask c next es o r h ih =>
    refine List.forall_mem_cons.2 ⟨⟨[], List.nil_prefix, .ask⟩, fun x hx ↦ ?_⟩
    obtain ⟨es₁, hprefix, hsends⟩ := ih x hx
    exact ⟨⟨c, r⟩ :: es₁, List.cons_prefix_cons.2 ⟨rfl, hprefix⟩, .later r hsends⟩
  | @join c c' next xs es a b o hxs h ih =>
    refine List.forall_mem_append.2
      ⟨fun x hx ↦ ⟨[], List.nil_prefix, hxs.sends next hx⟩, fun x hx ↦ ?_⟩
    obtain ⟨es₁, hprefix, hsends⟩ := ih x hx
    exact ⟨xs ++ es₁, (List.prefix_append_right_inj xs).2 hprefix, .behind hxs hsends⟩
  | torn hxs => exact fun x hx ↦ ⟨[], List.nil_prefix, hxs.sends _ hx⟩

/-- What a conversation sends that goes on with another is sent by one of the two. -/
theorem sends_bind {d : Dialogue α} {f : α → Dialogue β} {x : SeatCall}
    (h : (d >>= f).Sends es x) : d.Sends es x ∨
      ∃ a es₁ es₂, Course d es₁ (.ok a) ∧ (f a).Sends es₂ x ∧ es = es₁ ++ es₂ := by
  induction d generalizing es with
  | done a => exact .inr ⟨a, [], es, .done a, h, rfl⟩
  | fail e => cases h
  | ask c next ih =>
    cases h with
    | ask => exact .inl .ask
    | later r h =>
      rcases ih r h with hsends | ⟨a, es₁, es₂, h₁, h₂, rfl⟩
      · exact .inl (.later r hsends)
      · exact .inr ⟨a, ⟨c, r⟩ :: es₁, es₂, .ask r h₁, h₂, rfl⟩
  | join c c' next ih =>
    cases h with
    | first => exact .inl .first
    | second => exact .inl .second
    | behind hxs h =>
      rcases ih _ _ h with hsends | ⟨a, es₁, es₂, h₁, h₂, rfl⟩
      · exact .inl (.behind hxs hsends)
      · exact .inr ⟨a, _, es₂, .join hxs h₁, h₂, (List.append_assoc ..).symm⟩

/-- What a conversation sends it sends also if it goes on with another. -/
theorem Sends.bind {d : Dialogue α} {x : SeatCall} (h : d.Sends es x) (f : α → Dialogue β) :
    (d >>= f).Sends es x := by
  induction h with
  | ask => exact .ask
  | later r h ih => exact .later r ih
  | first => exact .first
  | second => exact .second
  | behind hxs h ih => exact .behind hxs ih

/-- Behind a conversation that ends with a result, what it goes on with is sent. -/
theorem Course.sends_bind {d : Dialogue α} {a : α} {f : α → Dialogue β} {es' : List Exchange}
    {x : SeatCall} (h : Course d es (.ok a)) (hx : (f a).Sends es' x) :
    (d >>= f).Sends (es ++ es') x := by
  generalize ho : Except.ok a = o at h
  induction h with
  | done b =>
    obtain rfl := Except.ok.inj ho
    exact hx
  | fail e => cases ho
  | ask r h ih => exact .later r (ih ho)
  | join hxs h ih =>
    rw [List.append_assoc]
    exact .behind hxs (ih ho)
  | torn => cases ho

/-- Behind a condition something is sent only if the condition holds. -/
theorem sends_require_bind {b : Bool} {e : SeatError} {f : Unit → Dialogue β} {x : SeatCall}
    (h : (require b e >>= f).Sends es x) : b = true ∧ (f ()).Sends es x := by
  cases b with
  | true => exact ⟨rfl, h⟩
  | false => cases h

/-- Behind a question something is sent only once the question is answered well. -/
theorem sends_call_bind {f : c.Reply → Dialogue β} {x : SeatCall}
    (h : (call c >>= f).Sends es x) : es = [] ∧ x = c ∨
      ∃ reply es', es = ⟨c, .ok reply⟩ :: es' ∧ (f reply).Sends es' x := by
  cases h with
  | ask => exact .inl ⟨rfl, rfl⟩
  | later r h =>
    cases r with
    | ok reply => exact .inr ⟨reply, _, rfl, h⟩
    | error e => cases h

/-- A question with which a conversation ends is all that is sent. -/
theorem sends_call {x : SeatCall} (h : (call c).Sends es x) : es = [] ∧ x = c := by
  cases h with
  | ask => exact ⟨rfl, rfl⟩
  | later r h => cases r <;> cases h

/-- Two questions at once are sent before either is answered. -/
theorem sends_both_bind {f : c.Reply × c'.Reply → Dialogue β} {x : SeatCall}
    (h : (both c c' >>= f).Sends es x) : es = [] ∧ (x = c ∨ x = c') ∨
      ∃ a b xs es', Both c c' xs (.ok (a, b)) ∧ es = xs ++ es' ∧ (f (a, b)).Sends es' x := by
  cases h with
  | first => exact .inl ⟨rfl, .inl rfl⟩
  | second => exact .inl ⟨rfl, .inr rfl⟩
  | behind hxs h => exact .inr ⟨_, _, _, _, hxs, rfl, h⟩

/-! ### Conversations with given services -/

section Run

variable {answer : σ → (c : SeatCall) → c.Answer × σ} {s s' : σ}

theorem run_call {c : SeatCall} {reply : c.Reply} (h : answer s c = (.ok reply, s')) :
    (call c).run answer s = (.ok reply, s') := by
  rw [call, run, h]
  rfl

theorem run_both {c c' : SeatCall} {a : c.Reply} {b : c'.Reply} {s₁ : σ}
    (h : answer s c = (.ok a, s₁)) (h' : answer s₁ c' = (.ok b, s')) :
    (both c c').run answer s = (.ok (a, b), s') := by
  simp only [both, run, h, h']

theorem run_require {b : Bool} (h : b = true) (e : SeatError) :
    (require b e).run answer s = (.ok (), s) := by
  rw [require, if_pos h, run]

/-- A conversation that has a result goes on with it. -/
theorem run_bind {d : Dialogue α} {a : α} (h : d.run answer s = (.ok a, s'))
    (f : α → Dialogue β) : (d >>= f).run answer s = (f a).run answer s' := by
  induction d generalizing s with
  | done b =>
    obtain ⟨⟨⟩, rfl⟩ := Prod.mk.inj h
    rfl
  | fail e => exact absurd (Prod.mk.inj h).1 (by simp)
  | ask c next ih => exact ih _ h
  | join c c' next ih =>
    change (Dialogue.join c c' fun a b ↦ (next a b).bind f).run answer s = _
    rw [run] at h ⊢
    rcases hc : answer s c with ⟨e | a₁, s₁⟩
    · rw [hc] at h
      exact absurd (Prod.mk.inj h).1 (by simp)
    rw [hc] at h
    dsimp only at h ⊢
    rcases hc' : answer s₁ c' with ⟨e | b₁, s₂⟩
    · rw [hc'] at h
      exact absurd (Prod.mk.inj h).1 (by simp)
    · rw [hc'] at h
      exact ih a₁ b₁ h

end Run

end Dialogue

/-! ### The name of the caller's organization -/

namespace Seat

open Dialogue (Course)

variable {i : Identity} {es : List Exchange}

/-- How asking for the name of the caller's organization can go. -/
inductive Conversion (i : Identity) : List Exchange → Except SeatError String → Prop where
  /-- The caller's organization has a quote, so nothing is asked. -/
  | quoted (hq : hasQuote i.orgId = true) :
    Conversion i [] (.error (.badRequest "org id must not contain quotes"))
  /-- The accounts system fails. -/
  | failed (hq : hasQuote i.orgId = false) (e : RemoteError) :
    Conversion i [⟨.convertOrg i.orgId, .error e⟩] (.error (.remote e))
  /-- The name has a quote. -/
  | unusable (hq : hasQuote i.orgId = false) {org : String} (ho : hasQuote org = true) :
    Conversion i [⟨.convertOrg i.orgId, .ok org⟩]
      (.error (.internal ("accounts system returned an unusable org id for " ++ i.orgId)))
  /-- The name can be used. -/
  | converted (hq : hasQuote i.orgId = false) {org : String} (ho : hasQuote org = false) :
    Conversion i [⟨.convertOrg i.orgId, .ok org⟩] (.ok org)

theorem conversion_of_course {o : Except SeatError String} (h : Course (convertOrg i) es o) :
    Conversion i es o := by
  rcases Dialogue.course_require_bind h with ⟨hq, rfl, rfl⟩ | ⟨hq, hcall⟩
  · exact .quoted (by simpa using hq)
  · have hclean : hasQuote i.orgId = false := by simpa using hq
    rcases Dialogue.course_call_bind hcall with ⟨e, rfl, rfl⟩ | ⟨org, es, rfl, hrest⟩
    · exact .failed hclean e
    · rcases Dialogue.course_require_bind hrest with ⟨ho, rfl, rfl⟩ | ⟨ho, hdone⟩
      · exact .unusable hclean (by simpa using ho)
      · cases hdone with
        | done => exact .converted hclean (by simpa using ho)

/-- The name of the caller's organization is told, and it can be used. -/
theorem course_convertOrg {org : String} (hq : hasQuote i.orgId = false)
    (ho : hasQuote org = false) :
    Course (convertOrg i) [⟨.convertOrg i.orgId, .ok org⟩] (.ok org) := by
  have hclean : Course (Dialogue.require (!hasQuote i.orgId)
      (.badRequest "org id must not contain quotes")) [] (.ok ()) :=
    Dialogue.course_require (by simpa using hq) _
  have husable : Course (Dialogue.require (!hasQuote org)
      (.internal ("accounts system returned an unusable org id for " ++ i.orgId))) [] (.ok ()) :=
    Dialogue.course_require (by simpa using ho) _
  exact hclean.bind <| (Dialogue.course_call_ok (.convertOrg i.orgId) org).bind <|
    husable.bind (.done org)

/-- The accounts system told its name for the caller's organization. -/
def Named (es : List Exchange) (i : Identity) (org : String) : Prop :=
  ⟨.convertOrg i.orgId, .ok org⟩ ∈ es

/-- A conversation that goes on with the name of the caller's organization. -/
theorem course_convertOrg_bind {β : Type} {f : String → Dialogue β} {o : Except SeatError β}
    (h : Course (convertOrg i >>= f) es o) :
    (∃ e, Conversion i es (.error e) ∧ o = .error e) ∨
      ∃ org es', Conversion i [⟨.convertOrg i.orgId, .ok org⟩] (.ok org) ∧
        es = ⟨.convertOrg i.orgId, .ok org⟩ :: es' ∧ Course (f org) es' o := by
  rcases Dialogue.course_bind h with ⟨e, he, rfl⟩ | ⟨org, es₁, es₂, horg, hrest, rfl⟩
  · exact .inl ⟨e, conversion_of_course he, rfl⟩
  · cases conversion_of_course horg with
    | converted hq ho => exact .inr ⟨org, es₂, .converted hq ho, rfl, hrest⟩

/-- The name of the caller's organization is the only thing that is asked for here, and only if the
organization has no quote. -/
theorem sends_convertOrg_bind {β : Type} {f : String → Dialogue β} {x : SeatCall}
    (h : (convertOrg i >>= f).Sends es x) :
    (hasQuote i.orgId = false ∧ es = [] ∧ x = .convertOrg i.orgId) ∨
      ∃ org es', Conversion i [⟨.convertOrg i.orgId, .ok org⟩] (.ok org) ∧
        es = ⟨.convertOrg i.orgId, .ok org⟩ :: es' ∧ (f org).Sends es' x := by
  rcases Dialogue.sends_bind h with h | ⟨org, es₁, es₂, horg, hrest, rfl⟩
  · obtain ⟨hq, h⟩ := Dialogue.sends_require_bind h
    rcases Dialogue.sends_call_bind h with ⟨rfl, rfl⟩ | ⟨org, es', rfl, hrest⟩
    · exact .inl ⟨by simpa using hq, rfl, rfl⟩
    · obtain ⟨-, hdone⟩ := Dialogue.sends_require_bind hrest
      cases hdone
  · cases conversion_of_course horg with
    | converted hq ho => exact .inr ⟨org, es₂, .converted hq ho, rfl, hrest⟩

end Seat

end Licensing
