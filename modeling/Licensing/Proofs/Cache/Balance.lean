import Licensing.Proofs.Cache.Register
import Licensing.Proofs.Cache.SingleFlight

/-!
# Every request is accounted for

A request that is sent is out until it comes back or is given up with its caller. So in every run
the numbers of requests that are sent, out, come back and given up add up (`balance_of_run`).
-/

namespace Licensing.Cache.Machine

variable {m₀ m m' : Machine} {es : List Event} {e : Event} {n : Nat} {c : Caller}

/-! ### Requests that are out -/

theorem isFetching_eq (hc : m.callers[n]? = some c) : m.isFetching n = c.phase.isFetching := by
  rw [isFetching, phase?, hc, Option.map_some]
  cases c.phase <;> rfl

/-- A caller's request is out when the caller comes to wait for it, and no longer when it goes
on. -/
theorem inFlight_setPhase (m₁ : Machine) (hm : m₁.callers = m.callers)
    (hc : m.callers[n]? = some c) (p : Phase) (org : String) :
    (m₁.setPhase n p).inFlight org + (if c.org = org ∧ c.phase.isFetching = true then 1 else 0) =
      m.inFlight org + if c.org = org ∧ p.isFetching = true then 1 else 0 := by
  have hcount := countP_setPhase (hm ▸ hc) p fun c ↦ c.org = org && c.phase.isFetching
  rw [hm] at hcount
  simp only [Bool.and_eq_true, decide_eq_true_eq] at hcount
  exact hcount

theorem inFlight_grant (org : String) : (m.grant n).inFlight org = m.inFlight org :=
  countP_grant fun _ _ _ ↦ rfl

/-- A step between phases in which no request is out. -/
theorem inFlight_setPhase_of_not {m₁ : Machine} {p : Phase} (hm : m₁.callers = m.callers)
    (hc : m.callers[n]? = some c) (hp : c.phase.isFetching = false) (hq : p.isFetching = false)
    (org : String) : (m₁.setPhase n p).inFlight org = m.inFlight org := by
  simpa [hp, hq] using inFlight_setPhase m₁ hm hc p org

/-- **What a step does to requests.** One that is sent is out, and one that is out comes back or
is given up. -/
theorem balance_of_step (hs : Step m e m') (org : String) :
    m.inFlight org + (m.signal? e).toList.countP (Signal.isSent org) =
      m'.inFlight org + ((m.signal? e).toList.filterMap (Signal.fetch? org)).length +
        (m.signal? e).toList.countP (Signal.isLost org) := by
  have quiet : m.signal? e = none → m'.inFlight org = m.inFlight org →
      m.inFlight org + (m.signal? e).toList.countP (Signal.isSent org) =
        m'.inFlight org + ((m.signal? e).toList.filterMap (Signal.fetch? org)).length +
          (m.signal? e).toList.countP (Signal.isLost org) := by
    intro hsig hin
    rw [hsig, hin]
    rfl
  cases hs with
  | call about force => exact quiet rfl (by simp [inFlight, Phase.isFetching])
  | tick ms => exact quiet rfl rfl
  | hit hc hp | miss hc hp | join hc hp | launch hc hp | take hc hp | wait hc hp | share hc hp
  | clear hc hp | free hc hp | leave hc hp | close hc hp =>
    exact quiet rfl (inFlight_setPhase_of_not rfl hc (by rw [hp]; rfl) rfl org)
  | resign hc hp | withdraw hc hp | abandon hc hp =>
    refine quiet ?_ (inFlight_setPhase_of_not rfl hc (by rw [hp]; rfl) rfl org)
    rw [signal?, isFetching_eq hc, hp]
    rfl
  | @pass n next lock c answer holder rest hc hp hl =>
    obtain ⟨c', hc', hphase⟩ := releasing_of_grant (n := next) hc hp
    have hgrant := inFlight_grant (m := { m with locks := m.locks.set lock ⟨some next, rest⟩ })
      (n := next) org
    refine quiet rfl (Eq.trans ?_ hgrant)
    exact inFlight_setPhase_of_not rfl hc' (by rw [hphase]; rfl) rfl org
  | @send n lock c hc hp =>
    have hsig : m.signal? (.move n .fetch) = some (.sent n c.org) := by
      rw [signal?, hc]
      rfl
    have hcount : (m.setPhase n (.fetching lock)).inFlight org =
        m.inFlight org + if c.org = org then 1 else 0 := by
      simpa [hp, Phase.isFetching] using inFlight_setPhase m rfl hc (.fetching lock) org
    rw [hsig, hcount]
    by_cases horg : c.org = org <;>
      simp [horg, Signal.isSent, Signal.isLost, Signal.fetch?, List.filterMap_cons]
  | @record n lock c hc hp o =>
    have hsig := signal?_store hc o
    have hcount := inFlight_setPhase (m := m)
      { m with store := (m.store.record m.config m.now c.org o).1 } rfl hc
      (.releasing lock (some (m.store.record m.config m.now c.org o).2)) org
    simp only [hp, Phase.isFetching, and_true, Bool.false_eq_true, and_false, if_false,
      Nat.add_zero] at hcount
    rw [hsig, ← hcount]
    by_cases horg : c.org = org <;> simp [horg, Signal.isSent, Signal.isLost, Signal.fetch?]
  | @lose n lock c hc hp =>
    have hsig : m.signal? (.move n .cancel) = some (.lost n c.org) := by
      rw [signal?, isFetching_eq hc, hp, hc]
      rfl
    have hcount : (m.setPhase n (.releasing lock none)).inFlight org +
        (if c.org = org then 1 else 0) = m.inFlight org := by
      simpa [hp, Phase.isFetching] using inFlight_setPhase m rfl hc (.releasing lock none) org
    rw [hsig, ← hcount]
    by_cases horg : c.org = org <;>
      simp [horg, Signal.isSent, Signal.isLost, Signal.fetch?, List.filterMap_cons]

/-- **Every request is accounted for.** In every run, those that were out and those that are sent
are those that are out at the end, have come back or were given up. -/
theorem balance_of_run (h : m₀.run es = some m) (org : String) :
    m₀.inFlight org + m₀.sentCount es org =
      m.inFlight org + (m₀.fetches es org).length + m₀.lostCount es org := by
  refine run_induction (P := fun es m ↦ m₀.inFlight org + m₀.sentCount es org =
    m.inFlight org + (m₀.fetches es org).length + m₀.lostCount es org) rfl ?_ h
  intro es e m m' hrun ih hs
  have hstep := balance_of_step hs org
  rw [sentCount, fetches, lostCount] at ih ⊢
  rw [history_concat hrun hs, List.countP_append, List.filterMap_append, List.length_append,
    List.countP_append]
  omega

end Licensing.Cache.Machine
