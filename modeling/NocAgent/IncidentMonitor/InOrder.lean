import NocAgent.IncidentMonitor.AtLeastOnce

namespace IncidentMonitor

namespace Monitor
variable (m : Monitor)

def failures (handled : List Call) (x : Cursor) : ℕ :=
  handled.countP fun c => m.fromEvent c.event = x ∧ c.outcome ≠ .successful

theorem failures_cons (c : Call) (handled : List Call) (x : Cursor) :
    m.failures (c :: handled) x =
      m.failures handled x + if m.fromEvent c.event = x ∧ c.outcome ≠ .successful then 1 else 0 := by
  simp only [failures, List.countP_cons, decide_eq_true_eq]

structure InOrder (state : MonitorState) (handled : List Call) : Prop where
  pendingAfter : ∀ p ∈ state.pending, After state.cursor (m.fromEvent p.2.event)
  attempts : ∀ p ∈ state.pending, m.failures handled (m.fromEvent p.2.event) = p.2.attempts ∧
    p.2.attempts < m.config.maxAttempts
  unanswered : ∀ p ∈ state.pending, ∀ c ∈ handled,
    m.fromEvent c.event = m.fromEvent p.2.event → c.outcome ≠ .successful
  covered : ∀ c ∈ handled, ¬ After state.cursor (m.fromEvent c.event) ∨
    ∃ p ∈ state.pending, m.fromEvent c.event = m.fromEvent p.2.event
  once : handled.Pairwise fun later earlier =>
    m.fromEvent later.event = m.fromEvent earlier.event → earlier.outcome ≠ .successful
  ordered : handled.Pairwise fun later earlier =>
    m.fromEvent earlier.event ≤ m.fromEvent later.event
  alone : ∀ c ∈ handled, ∀ p ∈ c.state.pending, m.fromEvent c.event ≤ m.fromEvent p.2.event
  passed : ∀ d ∈ state.deadLetters, ¬ After state.cursor d.cursor
  distinct : (state.deadLetters.map DeadLetter.cursor).Nodup
  bounded : ∀ x, m.failures handled x ≤ m.config.maxAttempts
  dead : ∀ x, (∃ d ∈ state.deadLetters, d.cursor = x) ↔
    m.failures handled x = m.config.maxAttempts

section Step
variable {m} {state : MonitorState} {handled : List Call}

theorem InOrder.init : m.InOrder {} [] where
  pendingAfter _ h := by cases h
  attempts _ h := by cases h
  unanswered _ h := by cases h
  covered _ h := by cases h
  once := .nil
  ordered := .nil
  alone _ h := by cases h
  passed _ h := by cases h
  distinct := .nil
  bounded _ := Nat.zero_le _
  dead x := by
    have hpos := m.config.maxAttempts_pos
    simp [failures]
    omega

theorem InOrder.queued (h : m.InOrder state handled) (hp : state.pending = []) {event : Event}
    (hafter : After state.cursor (m.fromEvent event)) :
    m.InOrder (m.queued event state) handled := by
  have hnew : ∀ c ∈ handled, m.fromEvent c.event ≠ m.fromEvent event := by
    intro c hc he
    rcases h.covered c hc with hpassed | ⟨p, hpm, -⟩
    · rw [he] at hpassed
      exact hpassed hafter
    · rw [hp] at hpm
      cases hpm
  have hzero : m.failures handled (m.fromEvent event) = 0 := by
    rw [failures, List.countP_eq_zero]
    intro c hc
    simp [hnew c hc]
  refine { h with pendingAfter := ?_, attempts := ?_, unanswered := ?_, covered := ?_ }
  · intro p hpm
    obtain rfl := List.mem_singleton.mp hpm
    exact hafter
  · intro p hpm
    obtain rfl := List.mem_singleton.mp hpm
    exact ⟨hzero, m.config.maxAttempts_pos⟩
  · intro p hpm c hc he
    obtain rfl := List.mem_singleton.mp hpm
    exact absurd he (hnew c hc)
  · intro c hc
    refine .inl ((h.covered c hc).resolve_right ?_)
    rintro ⟨p, hpm, -⟩
    rw [hp] at hpm
    cases hpm

section Answer
variable {key : String} {item : Item}

theorem InOrder.not_after_of_passed (h : m.InOrder state handled)
    (hp : state.pending = [(key, item)]) {x : Cursor} (hx : ¬ After state.cursor x) :
    ¬ After (some (m.fromEvent item.event)) x :=
  fun ha => hx (ha.of_advances (h.pendingAfter (key, item) (by simp [hp])).advances)

theorem InOrder.le_of_handled (h : m.InOrder state handled) (hp : state.pending = [(key, item)])
    {c : Call} (hc : c ∈ handled) : m.fromEvent c.event ≤ m.fromEvent item.event := by
  rcases h.covered c hc with hpassed | ⟨p, hpm, he⟩
  · obtain ⟨y, hy, hle⟩ := not_after_iff.mp hpassed
    exact hle.trans (h.pendingAfter (key, item) (by simp [hp]) y hy).le
  · rw [hp, List.mem_singleton] at hpm
    rw [he, hpm]

theorem InOrder.once_cons (h : m.InOrder state handled) (hp : state.pending = [(key, item)])
    (outcome : Outcome) :
    (⟨item.event, outcome, state⟩ :: handled : List Call).Pairwise fun later earlier =>
      m.fromEvent later.event = m.fromEvent earlier.event → earlier.outcome ≠ .successful :=
  List.pairwise_cons.mpr
    ⟨fun c hc he => h.unanswered (key, item) (by simp [hp]) c hc he.symm, h.once⟩

theorem InOrder.ordered_cons (h : m.InOrder state handled) (hp : state.pending = [(key, item)])
    (outcome : Outcome) :
    (⟨item.event, outcome, state⟩ :: handled : List Call).Pairwise fun later earlier =>
      m.fromEvent earlier.event ≤ m.fromEvent later.event :=
  List.pairwise_cons.mpr ⟨fun _ hc => h.le_of_handled hp hc, h.ordered⟩

theorem InOrder.alone_cons (h : m.InOrder state handled) (hp : state.pending = [(key, item)])
    (outcome : Outcome) :
    ∀ c ∈ (⟨item.event, outcome, state⟩ :: handled : List Call), ∀ p ∈ c.state.pending,
      m.fromEvent c.event ≤ m.fromEvent p.2.event := by
  intro c hc p hpm
  rcases List.mem_cons.mp hc with rfl | hc
  · change p ∈ state.pending at hpm
    rw [hp, List.mem_singleton] at hpm
    rw [hpm]
  · exact h.alone c hc p hpm

theorem InOrder.not_dead (h : m.InOrder state handled) (hp : state.pending = [(key, item)]) :
    ¬ ∃ d ∈ state.deadLetters, d.cursor = m.fromEvent item.event := by
  rintro ⟨d, hd, he⟩
  have hpassed := h.passed d hd
  rw [he] at hpassed
  exact hpassed (h.pendingAfter (key, item) (by simp [hp]))

theorem InOrder.covered_cons (h : m.InOrder state handled) (hp : state.pending = [(key, item)])
    (outcome : Outcome) :
    ∀ c ∈ (⟨item.event, outcome, state⟩ :: handled : List Call),
      ¬ After (some (m.fromEvent item.event)) (m.fromEvent c.event) := by
  intro c hc
  rw [after_some, not_lt]
  rcases List.mem_cons.mp hc with rfl | hc
  · exact le_rfl
  · exact h.le_of_handled hp hc

theorem InOrder.bounded_cons (h : m.InOrder state handled) (hp : state.pending = [(key, item)])
    (outcome : Outcome) (x : Cursor) :
    m.failures (⟨item.event, outcome, state⟩ :: handled) x ≤ m.config.maxAttempts := by
  obtain ⟨hfail, hlt⟩ := h.attempts (key, item) (by simp [hp])
  rw [failures_cons]
  split_ifs with hx
  · rw [← hx.1]
    exact hfail.trans_lt hlt
  · exact h.bounded x

theorem InOrder.settled (h : m.InOrder state handled) (hp : state.pending = [(key, item)]) :
    m.InOrder (m.settled key item state) (⟨item.event, .successful, state⟩ :: handled) := by
  rw [settled_of_single hp]
  exact
    { pendingAfter := fun _ hpm => by cases hpm
      attempts := fun _ hpm => by cases hpm
      unanswered := fun _ hpm => by cases hpm
      covered := fun c hc => .inl (h.covered_cons hp .successful c hc)
      once := h.once_cons hp .successful
      ordered := h.ordered_cons hp .successful
      alone := h.alone_cons hp .successful
      passed := fun d hd => h.not_after_of_passed hp (h.passed d hd)
      distinct := h.distinct
      bounded := h.bounded_cons hp .successful
      dead := fun x => by simpa [failures_cons] using h.dead x }

theorem InOrder.retried (h : m.InOrder state handled) (hp : state.pending = [(key, item)])
    {outcome : Outcome} (ho : outcome ≠ .successful)
    (hmax : item.attempts + 1 < m.config.maxAttempts) :
    m.InOrder (retried key item state) (⟨item.event, outcome, state⟩ :: handled) := by
  have hpm : (key, item) ∈ state.pending := by simp [hp]
  have hfail := (h.attempts (key, item) hpm).1
  rw [retried_of_single hp]
  refine
    { pendingAfter := fun p hq => ?_
      attempts := fun p hq => ?_
      unanswered := fun p hq c hc he => ?_
      covered := fun c hc => ?_
      once := h.once_cons hp outcome
      ordered := h.ordered_cons hp outcome
      alone := h.alone_cons hp outcome
      passed := h.passed
      distinct := h.distinct
      bounded := h.bounded_cons hp outcome
      dead := fun x => ?_ }
  · obtain rfl := List.mem_singleton.mp hq
    exact h.pendingAfter (key, item) hpm
  · obtain rfl := List.mem_singleton.mp hq
    refine ⟨?_, hmax⟩
    rw [failures_cons, if_pos ⟨rfl, ho⟩]
    exact congrArg (· + 1) hfail
  · obtain rfl := List.mem_singleton.mp hq
    rcases List.mem_cons.mp hc with rfl | hc
    · exact ho
    · exact h.unanswered (key, item) hpm c hc he
  · rcases List.mem_cons.mp hc with rfl | hc
    · exact .inr ⟨_, List.mem_singleton_self _, rfl⟩
    · refine (h.covered c hc).imp_right fun ⟨p, hq, he⟩ => ?_
      rw [hp, List.mem_singleton] at hq
      exact ⟨_, List.mem_singleton_self _, by rw [he, hq]⟩
  · rw [failures_cons]
    by_cases hx : m.fromEvent item.event = x
    · subst hx
      rw [if_pos ⟨rfl, ho⟩]
      refine iff_of_false (h.not_dead hp) ?_
      change m.failures handled (m.fromEvent item.event) = item.attempts at hfail
      omega
    · rw [if_neg fun hc => hx hc.1]
      exact h.dead x

theorem InOrder.abandoned (h : m.InOrder state handled) (hp : state.pending = [(key, item)])
    {outcome : Outcome} (ho : outcome ≠ .successful) (errorType : String)
    (hmax : ¬ item.attempts + 1 < m.config.maxAttempts) :
    m.InOrder (m.abandoned key item errorType state)
      (⟨item.event, outcome, state⟩ :: handled) := by
  obtain ⟨hfail, hlt⟩ := h.attempts (key, item) (by simp [hp])
  have hnotDead := h.not_dead hp
  rw [abandoned_of_single hp]
  refine
    { pendingAfter := fun _ hpm => by cases hpm
      attempts := fun _ hpm => by cases hpm
      unanswered := fun _ hpm => by cases hpm
      covered := fun c hc => .inl (h.covered_cons hp outcome c hc)
      once := h.once_cons hp outcome
      ordered := h.ordered_cons hp outcome
      alone := h.alone_cons hp outcome
      passed := fun d hd => ?_
      distinct := ?_
      bounded := h.bounded_cons hp outcome
      dead := fun x => ?_ }
  · rcases List.mem_append.mp hd with hd | hd
    · exact h.not_after_of_passed hp (h.passed d hd)
    · rw [List.mem_singleton.mp hd, after_some]
      exact lt_irrefl _
  · rw [List.map_append, List.map_singleton, List.nodup_append]
    refine ⟨h.distinct, List.nodup_singleton _, fun x hx y hy he => ?_⟩
    obtain ⟨d, hd, rfl⟩ := List.mem_map.mp hx
    rw [List.mem_singleton.mp hy] at he
    exact hnotDead ⟨d, hd, he⟩
  · rw [failures_cons]
    by_cases hx : m.fromEvent item.event = x
    · subst hx
      rw [if_pos ⟨rfl, ho⟩]
      refine iff_of_true ⟨_, List.mem_append_right _ (List.mem_singleton_self _), rfl⟩ ?_
      change m.failures handled (m.fromEvent item.event) = item.attempts at hfail
      change item.attempts < _ at hlt
      omega
    · rw [if_neg fun hc => hx hc.1]
      refine Iff.trans ⟨?_, ?_⟩ (h.dead x)
      · rintro ⟨d, hd, he⟩
        rcases List.mem_append.mp hd with hd | hd
        · exact ⟨d, hd, he⟩
        · rw [List.mem_singleton.mp hd] at he
          exact absurd he hx
      · rintro ⟨d, hd, he⟩
        exact ⟨d, List.mem_append_left _ hd, he⟩

theorem InOrder.answered (h : m.InOrder state handled) (hp : state.pending = [(key, item)])
    (outcome : Outcome) :
    m.InOrder (m.answered key item outcome state) (⟨item.event, outcome, state⟩ :: handled) := by
  cases outcome with
  | successful => exact h.settled hp
  | _ =>
    simp only [Monitor.answered, Outcome.errorType]
    split_ifs with hmax
    · exact h.retried hp (by simp) hmax
    · exact h.abandoned hp (by simp) _ hmax

end Answer

end Step

def Steady (w : World) : Prop :=
  match w.call with
  | none => m.InOrder w.durable w.handled
  | some outcome => ∃ key item handled, w.durable.pending = [(key, item)] ∧
      w.handled = ⟨item.event, outcome, w.durable⟩ :: handled ∧ m.InOrder w.durable handled

theorem Steady.step {m : Monitor} {env : Env} {w : World} (h : m.Steady w) {effect : Effect}
    (hl : m.Legal env w effect) : m.Steady (m.apply w effect) := by
  unfold Steady at h
  cases hl with
  | handle hcall hp subscription outcome =>
    rw [hcall] at h
    exact ⟨_, _, w.handled, hp, rfl, h⟩
  | poll hcall hp =>
    rw [hcall] at h
    unfold Steady
    change match w.call with
      | none => m.InOrder w.durable w.handled
      | some _ => _
    rw [hcall]
    exact h
  | enqueue hcall hp hmem hafter hleast =>
    rw [hcall] at h
    exact h.queued hp hafter
  | @answer key item outcome hcall hp =>
    rw [hcall] at h
    obtain ⟨key', item', handled, hp', hhandled, hin⟩ := h
    rw [hp] at hp'
    obtain ⟨rfl, rfl⟩ : key = key' ∧ item = item' := by simpa using hp'
    have hanswered := hin.answered hp outcome
    rw [← hhandled] at hanswered
    exact hanswered

def round (w : World) (env : Env) : World := Trace.run m.apply w.restart (m.effectsOf env w)

theorem round_inOrder {m : Monitor} {w : World} {env : Env}
    (hlost : ∀ n, env.leaseLost n = false)
    (h : m.InOrder w.durable w.handled ∧ w.durable.pending.length ≤ 1) :
    m.InOrder (m.round w env).durable (m.round w env).handled ∧
      (m.round w env).durable.pending.length ≤ 1 := by
  have hfollows : m.Follows env w.restart (m.runOnce env (some w.restart.durable)) :=
    runOnce_follows rfl h.2
  obtain ⟨hsteady, hsingle⟩ := Trace.invariant
    (I := fun w => m.Steady w ∧ w.durable.pending.length ≤ 1)
    (fun _ _ hi hl => ⟨hi.1.step hl, single_of_legal hi.2 hl⟩)
    (⟨h.1, h.2⟩ : m.Steady w.restart ∧ _) hfollows.legal
  have hclosed : (m.round w env).call = none := hfollows.closed hlost
  refine ⟨?_, hsingle⟩
  change m.Steady (m.round w env) at hsteady
  unfold Steady at hsteady
  rwa [hclosed] at hsteady

theorem handles_in_order_exactly_once {envs : List Env}
    (hlost : ∀ env ∈ envs, ∀ n, env.leaseLost n = false) :
    ((Trace.run m.round {} envs).handled.Pairwise fun later earlier =>
        m.fromEvent later.event = m.fromEvent earlier.event → earlier.outcome ≠ .successful) ∧
      (((Trace.run m.round {} envs).durable.deadLetters.map DeadLetter.cursor).Nodup ∧
        ∀ x, m.failures (Trace.run m.round {} envs).handled x ≤ m.config.maxAttempts ∧
          ((∃ d ∈ (Trace.run m.round {} envs).durable.deadLetters, d.cursor = x) ↔
            m.failures (Trace.run m.round {} envs).handled x = m.config.maxAttempts)) ∧
      (∀ c ∈ (Trace.run m.round {} envs).handled, ∀ p ∈ c.state.pending,
        m.fromEvent c.event ≤ m.fromEvent p.2.event) ∧
      (Trace.run m.round {} envs).handled.Pairwise fun later earlier =>
        m.fromEvent earlier.event ≤ m.fromEvent later.event := by
  have halong : Trace.Along m.round (fun _ env => ∀ n, env.leaseLost n = false) {} envs :=
    Trace.along_of_forall fun env henv _ => hlost env henv
  have hinit : m.InOrder ({} : World).durable ({} : World).handled ∧
      ({} : World).durable.pending.length ≤ 1 := ⟨InOrder.init, Nat.zero_le 1⟩
  have hend := (Trace.invariant
    (I := fun w : World => m.InOrder w.durable w.handled ∧ w.durable.pending.length ≤ 1)
    (fun _ _ h hl => round_inOrder hl h) hinit halong).1
  exact ⟨hend.once, ⟨hend.distinct, fun x => ⟨hend.bounded x, hend.dead x⟩⟩, hend.alone,
    hend.ordered⟩

section Example

def twoAttempts : Monitor :=
  { demo with config := { demo.config with maxAttempts := 2, maxAttempts_pos := by decide } }

def failingTwice : List Env :=
  [demoEnv fun _ => .incomplete, demoEnv fun n => if n = 0 then .raised "TimeoutError" else .successful]

theorem handles_in_order_exactly_once_failing :
    (Trace.run twoAttempts.round {} failingTwice).handled.map Call.event =
        [secondIncident, firstIncident, firstIncident] ∧
      (∃ d ∈ (Trace.run twoAttempts.round {} failingTwice).durable.deadLetters,
        d.cursor = twoAttempts.fromEvent firstIncident) := by
  have hlost : ∀ env ∈ failingTwice, ∀ n, env.leaseLost n = false := by
    simp [failingTwice, demoEnv]
  obtain ⟨-, ⟨-, hdead⟩, -⟩ := twoAttempts.handles_in_order_exactly_once hlost
  exact ⟨by decide +kernel, (hdead _).2.mpr (by decide +kernel)⟩

end Example

end Monitor

end IncidentMonitor
