import NocAgent.IncidentMonitor.Protocol

namespace IncidentMonitor

namespace Monitor
variable (m : Monitor)

-- The query: events of the window after the cursor, in cursor order, the first batch of them.
def fetch (cursor : Option Cursor) (table : List Event) : List Event :=
  (m.sortedEvents (table.filter fun e => After cursor (m.fromEvent e))).take m.config.batchSize

theorem fetch_covers (cursor : Option Cursor) {table : List Event} {e : Event} (he : e ∈ table)
    (ha : After cursor (m.fromEvent e)) :
    (∃ y ∈ m.fetch cursor table, m.fromEvent y = m.fromEvent e) ∨
      ∀ y ∈ m.fetch cursor table, m.fromEvent y ≤ m.fromEvent e := by
  have hsorted := m.sortedEvents_pairwise (table.filter fun e => After cursor (m.fromEvent e))
  have hmem : e ∈ m.sortedEvents (table.filter fun e => After cursor (m.fromEvent e)) := by
    rw [mem_sortedEvents, List.mem_filter]
    exact ⟨he, by simpa using ha⟩
  unfold fetch
  generalize m.sortedEvents (table.filter fun e => After cursor (m.fromEvent e)) = l at hsorted hmem
  rw [← List.take_append_drop m.config.batchSize l] at hsorted hmem
  rcases List.mem_append.mp hmem with h | h
  · exact .inl ⟨e, h, rfl⟩
  · exact .inr fun y hy => (List.pairwise_append.mp hsorted).2.2 y hy e h

def Accounted (w : World) (e : Event) : Prop :=
  (∃ c ∈ w.handled, m.fromEvent c.event = m.fromEvent e ∧ c.outcome = .successful) ∨
    (∃ d ∈ w.durable.deadLetters, d.cursor = m.fromEvent e) ∨
      ∃ p ∈ w.durable.pending, m.fromEvent p.2.event = m.fromEvent e

structure Delivering (w : World) : Prop where
  single : w.durable.pending.length ≤ 1
  seen : ∀ e ∈ w.offered, e ∈ w.visible
  pending : ∀ p ∈ w.durable.pending, After w.durable.cursor (m.fromEvent p.2.event) ∧
    ∀ e ∈ w.offered, After w.durable.cursor (m.fromEvent e) →
      m.fromEvent p.2.event ≤ m.fromEvent e
  frontier : ∀ e ∈ w.offered, After w.durable.cursor (m.fromEvent e) →
    (∃ y ∈ w.batch, m.fromEvent y = m.fromEvent e) ∨
      ∀ y ∈ w.batch, m.fromEvent y ≤ m.fromEvent e
  accounted : ∀ e ∈ w.offered, ¬ After w.durable.cursor (m.fromEvent e) → m.Accounted w e
  call : ∀ o, w.call = some o → ∀ p ∈ w.durable.pending,
    ∃ c ∈ w.handled, c.event = p.2.event ∧ c.outcome = o
  written : ∀ s ∈ w.written, Advances s.cursor w.durable.cursor
  monotone : w.written.Pairwise fun later earlier => Advances earlier.cursor later.cursor

section Step
variable {m} {env : Env} {w : World}

theorem Delivering.restart (h : m.Delivering w) : m.Delivering w.restart :=
  { h with call := fun _ ho => by cases ho }

theorem Delivering.init : m.Delivering {} where
  single := Nat.zero_le 1
  seen _ h := by cases h
  pending _ h := by cases h
  frontier _ h := by cases h
  accounted _ h := by cases h
  call _ h := by cases h
  written _ h := by cases h
  monotone := .nil

theorem Accounted.handled {e : Event} (h : m.Accounted w e) (c : Call) :
    m.Accounted { w with handled := c :: w.handled } e :=
  h.imp_left fun ⟨c', hc', he⟩ => ⟨c', List.mem_cons_of_mem _ hc', he⟩

theorem Accounted.write {state : MonitorState} {e : Event} (h : m.Accounted w e)
    (hdead : ∀ d ∈ w.durable.deadLetters, d ∈ state.deadLetters)
    (hpending : ∀ p ∈ w.durable.pending, m.fromEvent p.2.event = m.fromEvent e →
      m.Accounted (m.apply w (.wrote state)) e) : m.Accounted (m.apply w (.wrote state)) e := by
  rcases h with hdone | ⟨d, hd, hde⟩ | ⟨p, hp, hpe⟩
  · exact .inl hdone
  · exact .inr (.inl ⟨d, hdead d hd, hde⟩)
  · exact hpending p hp hpe

theorem Delivering.handle (h : m.Delivering w) {key : String} {item : Item}
    (hp : w.durable.pending = [(key, item)]) (subscription : Subscription) (outcome : Outcome) :
    m.Delivering (m.apply w (.handled item.event subscription outcome)) :=
  { h with
    accounted := fun e he ha => (h.accounted e he ha).handled _
    call := fun o ho p hmem => by
      change p ∈ w.durable.pending at hmem
      rw [hp, List.mem_singleton] at hmem
      refine ⟨_, List.mem_cons_self, ?_, Option.some.inj ho⟩
      rw [hmem] }

theorem Delivering.poll (h : m.Delivering w) (hp : w.durable.pending = [])
    (hcall : w.call = none) (hpoll : ∀ c, env.poll c = m.fetch c env.table)
    (htable : ∀ e ∈ w.visible, e ∈ env.table) :
    m.Delivering (m.apply w (.polled w.durable.cursor env.table
      (m.sortedEvents (env.poll w.durable.cursor)))) where
  single := h.single
  seen e he := by
    rcases List.mem_append.mp he with he | he
    · exact List.mem_append_left _ (List.mem_filter.mp he).1
    · exact List.mem_append_right _ (h.seen e he)
  pending p hmem := by
    change p ∈ w.durable.pending at hmem
    rw [hp] at hmem
    cases hmem
  frontier e he ha := by
    have hin : e ∈ env.table := by
      rcases List.mem_append.mp he with he | he
      · exact (List.mem_filter.mp he).1
      · exact htable e (h.seen e he)
    change (∃ y ∈ m.sortedEvents (env.poll w.durable.cursor), _) ∨
      ∀ y ∈ m.sortedEvents (env.poll w.durable.cursor), _
    simp only [mem_sortedEvents, hpoll]
    exact m.fetch_covers _ hin ha
  accounted e he ha := by
    rcases List.mem_append.mp he with he | he
    · exact absurd (of_decide_eq_true (List.mem_filter.mp he).2) ha
    · exact h.accounted e he ha
  call o ho := by
    change w.call = some o at ho
    rw [hcall] at ho
    cases ho
  written := h.written
  monotone := h.monotone

theorem Delivering.write (h : m.Delivering w) {state : MonitorState}
    (hadv : Advances w.durable.cursor state.cursor) (hsingle : state.pending.length ≤ 1)
    (hpending : ∀ p ∈ state.pending, After state.cursor (m.fromEvent p.2.event) ∧
      ∀ e ∈ w.offered, After state.cursor (m.fromEvent e) →
        m.fromEvent p.2.event ≤ m.fromEvent e)
    (haccounted : ∀ e ∈ w.offered, ¬ After state.cursor (m.fromEvent e) →
      m.Accounted (m.apply w (.wrote state)) e) :
    m.Delivering (m.apply w (.wrote state)) where
  single := hsingle
  seen := h.seen
  pending := hpending
  frontier e he ha := h.frontier e he (ha.of_advances hadv)
  accounted := haccounted
  call _ ho := by cases ho
  written s hs := by
    rcases List.mem_cons.mp hs with rfl | hs
    · exact .refl _
    · exact (h.written s hs).trans hadv
  monotone := List.pairwise_cons.mpr ⟨fun s hs => (h.written s hs).trans hadv, h.monotone⟩

theorem Delivering.enqueue (h : m.Delivering w) {event : Event}
    (hmem : event ∈ w.batch) (hafter : After w.durable.cursor (m.fromEvent event))
    (hp : w.durable.pending = [])
    (hleast : ∀ e ∈ w.batch, After w.durable.cursor (m.fromEvent e) →
      m.fromEvent event ≤ m.fromEvent e) :
    m.Delivering (m.apply w (.wrote (m.queued event w.durable))) := by
  refine h.write (.refl _) le_rfl (fun p hpm => ?_) fun e he ha => ?_
  · obtain rfl := List.mem_singleton.mp hpm
    refine ⟨hafter, fun e he ha => ?_⟩
    rcases h.frontier e he ha with ⟨y, hy, hye⟩ | hall
    · rw [← hye] at ha ⊢
      exact hleast y hy ha
    · exact hall event hmem
  · refine (h.accounted e he ha).write (fun _ hd => hd) fun p hpm _ => ?_
    rw [hp] at hpm
    cases hpm

theorem Delivering.passed (h : m.Delivering w) {key : String} {item : Item}
    (hp : w.durable.pending = [(key, item)]) {state : MonitorState}
    (hcursor : state.cursor = some (m.fromEvent item.event)) (hnil : state.pending = [])
    (hdead : ∀ d ∈ w.durable.deadLetters, d ∈ state.deadLetters)
    (hitem : m.Accounted (m.apply w (.wrote state)) item.event) :
    m.Delivering (m.apply w (.wrote state)) := by
  obtain ⟨hafter, hleast⟩ := h.pending (key, item) (by simp [hp])
  refine h.write (by rw [hcursor]; exact hafter.advances) (by simp [hnil]) (by simp [hnil]) ?_
  intro e he ha
  rw [hcursor, after_some, not_lt] at ha
  by_cases hold : After w.durable.cursor (m.fromEvent e)
  · have hsame : m.fromEvent item.event = m.fromEvent e := le_antisymm (hleast e he hold) ha
    unfold Accounted at hitem ⊢
    rwa [← hsame]
  · refine (h.accounted e he hold).write hdead fun p hpm hpe => ?_
    rw [hp, List.mem_singleton] at hpm
    subst hpm
    rw [← hpe] at hold
    exact absurd hafter hold

theorem Delivering.answer (h : m.Delivering w) {key : String} {item : Item} {outcome : Outcome}
    (hcall : w.call = some outcome) (hp : w.durable.pending = [(key, item)]) :
    m.Delivering (m.apply w (.wrote (m.answered key item outcome w.durable))) := by
  obtain ⟨call, hmem, hevent, houtcome⟩ := h.call outcome hcall (key, item) (by simp [hp])
  cases outcome with
  | successful =>
    have hstate : m.answered key item .successful w.durable = m.settled key item w.durable := rfl
    rw [hstate, settled_of_single hp]
    exact h.passed hp rfl rfl (fun _ hd => hd) (.inl ⟨call, hmem, by rw [hevent], houtcome⟩)
  | _ =>
    simp only [answered, Outcome.errorType]
    split_ifs
    · rw [retried_of_single hp]
      obtain ⟨hafter, hleast⟩ := h.pending (key, item) (by simp [hp])
      refine h.write (.refl _) le_rfl (fun p hpm => ?_) fun e he ha => ?_
      · obtain rfl := List.mem_singleton.mp hpm
        exact ⟨hafter, hleast⟩
      · refine (h.accounted e he ha).write (fun _ hd => hd) fun p hpm hpe => ?_
        rw [hp, List.mem_singleton] at hpm
        subst hpm
        exact .inr (.inr ⟨_, List.mem_singleton_self _, hpe⟩)
    · rw [abandoned_of_single hp]
      exact h.passed hp rfl rfl (fun _ hd => List.mem_append_left _ hd)
        (.inr (.inl ⟨_, List.mem_append_right _ (List.mem_singleton_self _), rfl⟩))

theorem Delivering.step (h : m.Delivering w) (hpoll : ∀ c, env.poll c = m.fetch c env.table)
    (htable : ∀ e ∈ w.visible, e ∈ env.table) {effect : Effect} (hl : m.Legal env w effect) :
    m.Delivering (m.apply w effect) := by
  cases hl with
  | handle hcall hp subscription outcome => exact h.handle hp subscription outcome
  | poll hcall hp => exact h.poll hp hcall hpoll htable
  | enqueue hcall hp hmem hafter hleast => exact h.enqueue hmem hafter hp hleast
  | answer hcall hp => exact h.answer hcall hp

theorem visible_step (htable : ∀ e ∈ w.visible, e ∈ env.table) {effect : Effect}
    (hl : m.Legal env w effect) : ∀ e ∈ (m.apply w effect).visible, e ∈ env.table := by
  cases hl with
  | handle => exact htable
  | poll =>
    intro e he
    rcases List.mem_append.mp he with he | he
    · exact he
    · exact htable e he
  | enqueue => exact htable
  | answer => exact htable

end Step

structure Admissible (w : World) (s : Session) : Prop where
  poll : ∀ c, s.env.poll c = m.fetch c s.env.table
  window : ∀ e ∈ w.visible, e ∈ s.env.table

def Timely (w : World) (s : Session) : Prop :=
  ∀ cursor table events, .polled cursor table events ∈ (m.effectsOf s.env w).take s.cut →
    ∀ e ∈ table, e ∈ w.visible ∨ After cursor (m.fromEvent e)

theorem Delivering.session {m : Monitor} {w : World} (h : m.Delivering w) {s : Session}
    (hs : m.Admissible w s) : m.Delivering (m.session w s) := by
  have hboth := m.session_invariant (I := fun w => m.Delivering w ∧ ∀ e ∈ w.visible, e ∈ s.env.table)
    (s := s) h.single ⟨h.restart, hs.window⟩
    fun w effect hi hl => ⟨hi.1.step hs.poll hi.2 hl, visible_step hi.2 hl⟩
  exact hboth.1

theorem timely_run {m : Monitor} {seen : List Event} {effects : List Effect} {w : World}
    (ht : ∀ cursor table events, .polled cursor table events ∈ effects →
      ∀ e ∈ table, e ∈ seen ∨ After cursor (m.fromEvent e))
    (hseen : ∀ e ∈ seen, e ∈ w.visible) (h : ∀ e ∈ w.visible, e ∈ w.offered) :
    ∀ e ∈ (Trace.run m.apply w effects).visible, e ∈ (Trace.run m.apply w effects).offered := by
  induction effects generalizing w with
  | nil => exact h
  | cons effect effects ih =>
    have hrest := fun cursor table events hmem =>
      ht cursor table events (List.mem_cons_of_mem effect hmem)
    cases effect with
    | handled event subscription outcome => exact ih hrest hseen h
    | wrote state => exact ih hrest hseen h
    | polled cursor table events =>
      have htable := ht cursor table events List.mem_cons_self
      refine ih hrest (fun e he => List.mem_append_right _ (hseen e he)) fun e he => ?_
      rcases List.mem_append.mp he with he | he
      · rcases htable e he with hold | hnew
        · exact List.mem_append_right _ (h e (hseen e hold))
        · exact List.mem_append_left _ (List.mem_filter.mpr ⟨he, by simpa using hnew⟩)
      · exact List.mem_append_right _ (h e he)

theorem delivers_at_least_once {sessions : List Session}
    (hs : Trace.Along m.session m.Admissible {} sessions) :
    (∀ e ∈ (Trace.run m.session {} sessions).offered,
        ¬ After (Trace.run m.session {} sessions).durable.cursor (m.fromEvent e) →
          m.Accounted (Trace.run m.session {} sessions) e) ∧
      (Trace.Along m.session m.Timely {} sessions →
        ∀ e ∈ (Trace.run m.session {} sessions).visible,
          ¬ After (Trace.run m.session {} sessions).durable.cursor (m.fromEvent e) →
            m.Accounted (Trace.run m.session {} sessions) e) ∧
      (Trace.run m.session {} sessions).written.Pairwise
        fun later earlier => Advances earlier.cursor later.cursor := by
  have hend : m.Delivering (Trace.run m.session {} sessions) :=
    Trace.invariant (fun _ _ h hs => h.session hs) Delivering.init hs
  refine ⟨hend.accounted, fun ht e he => hend.accounted e ?_, hend.monotone⟩
  have hoffered := Trace.invariant (I := fun w : World => ∀ e ∈ w.visible, e ∈ w.offered)
    (fun w s h ht => timely_run (w := w.restart) ht (fun _ he => he) h)
    (fun _ h => by cases h) ht
  exact hoffered e he

section Example

def demo : Monitor := { iso := id }

def firstIncident : Event := ⟨"2026-09-16T12:00:00.000000Z", "INC-001", ""⟩

def secondIncident : Event := ⟨"2026-09-16T12:00:00.000000Z", "INC-002", ""⟩

def demoEnv (outcome : ℕ → Outcome) : Env where
  subscription := some ⟨"conversation", "user", "Operator"⟩
  outcome := outcome
  leaseLost _ := false
  table := [secondIncident, firstIncident]
  poll cursor := demo.fetch cursor [secondIncident, firstIncident]

def crashedOnce : List Session :=
  [⟨demoEnv fun _ => .successful, 3⟩, ⟨demoEnv fun _ => .successful, 20⟩]

theorem delivers_at_least_once_crashed :
    (Trace.run demo.session {} crashedOnce).handled.map Call.event =
        [secondIncident, firstIncident, firstIncident] ∧
      ∀ e ∈ (Trace.run demo.session {} crashedOnce).offered,
        ¬ After (Trace.run demo.session {} crashedOnce).durable.cursor (demo.fromEvent e) →
          demo.Accounted (Trace.run demo.session {} crashedOnce) e := by
  refine ⟨by decide +kernel, (demo.delivers_at_least_once ?_).1⟩
  exact ⟨⟨fun _ => rfl, by decide +kernel⟩, ⟨fun _ => rfl, by decide +kernel⟩, trivial⟩

end Example

end Monitor

end IncidentMonitor
