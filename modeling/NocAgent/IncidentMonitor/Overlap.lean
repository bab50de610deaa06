import NocAgent.IncidentMonitor.AtLeastOnce

namespace IncidentMonitor

-- `asUtc` is the instant of a timestamp in microseconds; `iso` keeps it, being exact to one.
structure PollingMonitor extends Monitor where
  firstRunLookbackMinutes : ℤ := 15
  maxCatchupMinutes : ℤ := 120
  overlapSeconds : ℤ := 30
  asUtc : String → ℤ
  asUtc_iso : ∀ timestamp, asUtc (iso timestamp) = asUtc timestamp

def seconds (n : ℤ) : ℤ := n * 1000000

def minutes (n : ℤ) : ℤ := seconds (n * 60)

-- The clauses of the KQL text: the window, the cursor filter and the batch.
structure IncidentQuery where
  lower : ℤ
  upper : ℤ
  cursorFilter : Option (ℤ × String)
  take : ℕ
deriving DecidableEq

structure Poll where
  subscription : Option Subscription
  table : List Event
  now : ℤ

namespace PollingMonitor
variable (m : PollingMonitor)

def buildIncidentQuery (cursor : Option Cursor) (now : ℤ) : IncidentQuery :=
  match cursor with
  | some cursor =>
    let cursorTime := m.asUtc cursor.timestamp
    { lower := max (cursorTime - seconds m.overlapSeconds) (now - minutes m.maxCatchupMinutes)
      upper := now
      cursorFilter := some (cursorTime, cursor.incidentId)
      take := m.config.batchSize }
  | none =>
    { lower := now - minutes m.firstRunLookbackMinutes
      upper := now
      cursorFilter := none
      take := m.config.batchSize }

def InWindow (query : IncidentQuery) (row : Event) : Prop :=
  query.lower ≤ m.asUtc row.timestamp ∧ m.asUtc row.timestamp ≤ query.upper

instance (query : IncidentQuery) (row : Event) : Decidable (m.InWindow query row) :=
  inferInstanceAs (Decidable (_ ∧ _))

def PastCursor (query : IncidentQuery) (row : Event) : Prop :=
  ∀ filter ∈ query.cursorFilter, filter.1 < m.asUtc row.timestamp ∨
    m.asUtc row.timestamp = filter.1 ∧ filter.2 < row.incidentId

instance (query : IncidentQuery) (row : Event) : Decidable (m.PastCursor query row) :=
  inferInstanceAs (Decidable (∀ filter ∈ query.cursorFilter, _))

def rowKey (row : Event) : ℤ ×ₗ String := toLex (m.asUtc row.timestamp, row.incidentId)

def executeQuery (query : IncidentQuery) (table : List Event) : List Event :=
  ((table.filter fun row => m.InWindow query row ∧ m.PastCursor query row).insertionSort
    fun a b => m.rowKey a ≤ m.rowKey b).take query.take

def normalized (row : Event) : Event := { row with timestamp := m.iso row.timestamp }

def env (p : Poll) : Env where
  subscription := p.subscription
  outcome _ := .successful
  leaseLost _ := false
  table := p.table
  poll cursor := m.sortedEvents
    ((m.executeQuery (m.buildIncidentQuery cursor p.now) p.table).map m.normalized)

def poll (w : World) (p : Poll) : World :=
  Trace.run m.apply w.restart (m.effectsOf (m.env p) w)

def effects : World → List Poll → List Effect
  | _, [] => []
  | w, p :: ps => m.effectsOf (m.env p) w ++ effects (m.poll w p) ps

-- The cursor has passed the timestamp of the event, by no more than the overlap.
def Late (w : World) (event : Event) : Prop :=
  ∃ cursor ∈ w.durable.cursor, m.asUtc event.timestamp < m.asUtc cursor.timestamp ∧
    m.asUtc cursor.timestamp - m.asUtc event.timestamp ≤ seconds m.overlapSeconds

def Returned (effects : List Effect) (event : Event) : Prop :=
  ∃ cursor table events, .polled cursor table events ∈ effects ∧ m.normalized event ∈ events

def Handled (effects : List Effect) (event : Event) : Prop :=
  ∃ subscription outcome, .handled (m.normalized event) subscription outcome ∈ effects

def withOverlap (overlapSeconds : ℤ) : PollingMonitor := { m with overlapSeconds }

variable {m}

theorem executeQuery_withOverlap (h : 0 ≤ m.overlapSeconds) {overlap : ℤ} (hoverlap : 0 ≤ overlap)
    (cursor : Option Cursor) (now : ℤ) (table : List Event) :
    m.executeQuery ((m.withOverlap overlap).buildIncidentQuery cursor now) table =
      m.executeQuery (m.buildIncidentQuery cursor now) table := by
  cases cursor with
  | none => rfl
  | some cursor =>
    have hrow (row : Event) :
        m.InWindow ((m.withOverlap overlap).buildIncidentQuery (some cursor) now) row ∧
            m.PastCursor ((m.withOverlap overlap).buildIncidentQuery (some cursor) now) row ↔
          m.InWindow (m.buildIncidentQuery (some cursor) now) row ∧
            m.PastCursor (m.buildIncidentQuery (some cursor) now) row := by
      simp only [InWindow, PastCursor, buildIncidentQuery, withOverlap, seconds, Option.mem_def,
        Option.some.injEq, forall_eq']
      constructor <;> rintro ⟨⟨hlower, hupper⟩, hpast⟩ <;>
        exact ⟨⟨by omega, hupper⟩, hpast⟩
    simp only [executeQuery, hrow]
    rfl

theorem mem_executeQuery {query : IncidentQuery} {table : List Event} {row : Event}
    (h : row ∈ m.executeQuery query table) :
    row ∈ table ∧ m.InWindow query row ∧ m.PastCursor query row := by
  have hsorted := (List.mem_insertionSort _).mp (List.mem_of_mem_take h)
  rw [List.mem_filter, decide_eq_true_eq] at hsorted
  exact hsorted

def Past (time : ℤ) (state : MonitorState) : Prop :=
  ∃ cursor ∈ state.cursor, time < m.asUtc cursor.timestamp

def PastEffect (time : ℤ) : Effect → Prop
  | .handled event _ _ => time < m.asUtc event.timestamp
  | .polled _ _ events => ∀ event ∈ events, time < m.asUtc event.timestamp
  | .wrote _ => True

theorem poll_past {time : ℤ} {cursor : Cursor} (h : time < m.asUtc cursor.timestamp) (p : Poll) :
    ∀ event ∈ m.sortedEvents ((m.env p).poll (some cursor)), time < m.asUtc event.timestamp := by
  intro event hevent
  have hpolled := m.mem_sortedEvents.mp (m.mem_sortedEvents.mp hevent)
  obtain ⟨row, hrow, rfl⟩ := List.mem_map.mp hpolled
  obtain ⟨-, -, hcursor⟩ := mem_executeQuery hrow
  have hpast := hcursor _ rfl
  rw [normalized, m.asUtc_iso]
  rcases hpast with hlt | ⟨heq, -⟩
  · exact h.trans hlt
  · rwa [heq]

theorem process_smooth (p : Poll) (subscription : Subscription) {key : String} {item : Item}
    {state : MonitorState} (hp : state.pending = [(key, item)]) (n : ℕ) :
    m.process (m.env p) subscription key state n =
      { effects := [.handled item.event subscription .successful, .wrote (m.settled key item state)]
        state := m.settled key item state
        proceed := true } := by
  simp only [Monitor.process, MonitorState.item?_of_single hp, env, Outcome.errorType]
  rfl

def handledState (m : PollingMonitor) (event : Event) (state : MonitorState) : MonitorState :=
  { state with cursor := some (m.fromEvent event), pending := [] }

theorem handledState_past {time : ℤ} {event : Event} (h : time < m.asUtc event.timestamp)
    (state : MonitorState) : m.Past time (m.handledState event state) := by
  refine ⟨m.fromEvent event, rfl, ?_⟩
  rw [Monitor.fromEvent, m.asUtc_iso]
  exact h

theorem consume_taken (p : Poll) (subscription : Subscription) {event : Event}
    (events : List Event) {cursor : Option Cursor} (hafter : After cursor (m.fromEvent event))
    {state : MonitorState} (hp : state.pending = []) (n : ℕ) :
    m.consume (m.env p) subscription (event :: events) cursor state n =
      (m.consume (m.env p) subscription events (some (m.fromEvent event))
        (m.handledState event state) (n + 3)).after
          [.wrote (m.queued event state), .handled event subscription .successful,
            .wrote (m.handledState event state)] := by
  have hlost : (m.env p).leaseLost n = false := rfl
  have hqueue : state.setItem (pendingKey (m.fromEvent event)) ⟨event, 0⟩ = m.queued event state :=
    MonitorState.setItem_of_nil hp ..
  have hsingle : (m.queued event state).pending =
      [(pendingKey (m.fromEvent event), ⟨event, 0⟩)] := rfl
  have hsettled : m.settled (pendingKey (m.fromEvent event)) ⟨event, 0⟩ (m.queued event state) =
      m.handledState event state := Monitor.settled_of_single hsingle
  simp only [Monitor.consume, hlost, hafter, Bool.false_eq_true, if_false, if_true, hqueue,
    process_smooth p subscription hsingle, hsettled, Progress.after]
  rfl

theorem consume_smooth (p : Poll) (subscription : Subscription) (events : List Event)
    (cursor : Option Cursor) {state : MonitorState} (hp : state.pending = []) (n : ℕ) :
    let result := m.consume (m.env p) subscription events cursor state n
    result.state.pending = [] ∧
      ∀ time, (∀ event ∈ events, time < m.asUtc event.timestamp) → m.Past time state →
        (∀ effect ∈ result.effects, m.PastEffect time effect) ∧ m.Past time result.state := by
  induction events generalizing cursor state n with
  | nil => exact ⟨hp, fun _ _ hpast => ⟨fun _ h => (List.not_mem_nil h).elim, hpast⟩⟩
  | cons event events ih =>
    by_cases hafter : After cursor (m.fromEvent event)
    · rw [consume_taken p subscription events hafter hp n]
      have hdone : (m.handledState event state).pending = [] := rfl
      obtain ⟨hnil, hrest⟩ := ih (some (m.fromEvent event)) hdone (n + 3)
      refine ⟨hnil, fun time hevents _ => ?_⟩
      obtain ⟨hevent, hevents⟩ := List.forall_mem_cons.mp hevents
      obtain ⟨heffects, hstate⟩ := hrest time hevents (handledState_past hevent state)
      refine ⟨fun effect heffect => ?_, hstate⟩
      rcases List.mem_append.mp heffect with hfirst | hlater
      · simp only [List.mem_cons, List.not_mem_nil, or_false] at hfirst
        rcases hfirst with rfl | rfl | rfl
        · trivial
        · exact hevent
        · trivial
      · exact heffects effect hlater
    · have hlost : (m.env p).leaseLost n = false := rfl
      simp only [Monitor.consume, hlost, hafter, Bool.false_eq_true, if_false]
      obtain ⟨hnil, hrest⟩ := ih cursor hp n
      exact ⟨hnil, fun time hevents => hrest time (List.forall_mem_cons.mp hevents).2⟩

theorem runOnce_smooth (p : Poll) {state : MonitorState} (hp : state.pending = []) :
    let result := m.runOnce (m.env p) (some state)
    result.state.pending = [] ∧ ∀ time, m.Past time state →
      (∀ effect ∈ result.effects, m.PastEffect time effect) ∧ m.Past time result.state := by
  cases hsub : p.subscription with
  | none =>
    have hnone : (m.env p).subscription = none := hsub
    simp only [Monitor.runOnce, hnone]
    exact ⟨hp, fun _ hpast => ⟨fun _ h => (List.not_mem_nil h).elim, hpast⟩⟩
  | some subscription =>
    have hsome : (m.env p).subscription = some subscription := hsub
    have hkeys : m.sortedKeys state.pending = [] := by rw [hp]; rfl
    simp only [Monitor.runOnce, hsome, Option.getD_some, hkeys, Monitor.replay, if_true,
      Progress.after]
    obtain ⟨hnil, hrest⟩ := consume_smooth p subscription
      (m.sortedEvents ((m.env p).poll state.cursor)) state.cursor hp 1
    refine ⟨hnil, fun time hpast => ?_⟩
    obtain ⟨cursor, hcursor, htime⟩ := id hpast
    have hevents := poll_past htime p
    rw [← Option.mem_def.mp hcursor] at hevents
    obtain ⟨heffects, hstate⟩ := hrest time hevents hpast
    refine ⟨fun effect heffect => ?_, hstate⟩
    rcases List.mem_cons.mp heffect with rfl | hlater
    · exact hevents
    · exact heffects effect hlater

theorem poll_durable {w : World} (hp : w.durable.pending = []) (p : Poll) :
    (m.poll w p).durable = (m.runOnce (m.env p) (some w.durable)).state :=
  (Monitor.runOnce_follows (m := m.toMonitor) (w := w.restart) rfl
    (by rw [World.restart, hp]; exact Nat.zero_le 1)).durable

theorem run_pending {w : World} (hp : w.durable.pending = []) (ps : List Poll) :
    (Trace.run m.poll w ps).durable.pending = [] := by
  induction ps generalizing w with
  | nil => exact hp
  | cons p ps ih =>
    rw [Trace.run_cons]
    refine ih ?_
    rw [poll_durable hp p]
    exact (runOnce_smooth p hp).1

theorem effects_past {time : ℤ} {w : World} (hp : w.durable.pending = [])
    (hpast : m.Past time w.durable) (ps : List Poll) :
    ∀ effect ∈ m.effects w ps, m.PastEffect time effect := by
  induction ps generalizing w with
  | nil => exact fun _ h => (List.not_mem_nil h).elim
  | cons p ps ih =>
    obtain ⟨hnil, hrest⟩ := runOnce_smooth p hp
    obtain ⟨heffects, hstate⟩ := hrest time hpast
    rw [← poll_durable hp p] at hstate hnil
    intro effect heffect
    rcases List.mem_append.mp heffect with hfirst | hlater
    · exact heffects effect hfirst
    · exact ih hnil hstate effect hlater

theorem lost_of_late {w : World} (hp : w.durable.pending = []) {event : Event}
    (hlate : m.Late w event) (ps : List Poll) :
    ¬ m.Returned (m.effects w ps) event ∧ ¬ m.Handled (m.effects w ps) event := by
  obtain ⟨cursor, hcursor, hpassed, -⟩ := hlate
  have hpast := effects_past hp ⟨cursor, hcursor, hpassed⟩ ps
  have hself : m.asUtc (m.normalized event).timestamp = m.asUtc event.timestamp := m.asUtc_iso _
  constructor
  · rintro ⟨cursor', table, events, hpolled, hevent⟩
    have hlater := hpast _ hpolled _ hevent
    omega
  · rintro ⟨subscription, outcome, hhandled⟩
    have hlater : m.asUtc event.timestamp < m.asUtc (m.normalized event).timestamp :=
      hpast _ hhandled
    omega

theorem late_event_is_lost (m : PollingMonitor) (before after : List Poll) (event : Event)
    (hlate : m.Late (Trace.run m.poll {} before) event) :
    ¬ m.Returned (m.effects (Trace.run m.poll {} before) after) event ∧
      ¬ m.Handled (m.effects (Trace.run m.poll {} before) after) event :=
  lost_of_late (run_pending rfl before) hlate after

section Example

def digits (cs : List Char) (start count : ℕ) : ℤ :=
  ((cs.drop start).take count).foldl (fun n c => n * 10 + (c.toNat - '0'.toNat : ℕ)) 0

def daysBeforeMonth (month : ℤ) : ℤ :=
  [0, 31, 59, 90, 120, 151, 181, 212, 243, 273, 304, 334].getD (month.toNat - 1) 0

def isLeap (year : ℤ) : Bool := year % 4 = 0 && (year % 100 ≠ 0 || year % 400 = 0)

def toordinal (year month day : ℤ) : ℤ :=
  (year - 1) * 365 + (year - 1) / 4 - (year - 1) / 100 + (year - 1) / 400 +
    daysBeforeMonth month + (if 2 < month ∧ isLeap year then 1 else 0) + day

-- The instant of a text such as 2026-01-01T00:00:30.000000Z.
def fromisoformat (timestamp : String) : ℤ :=
  let cs := timestamp.toList
  seconds (toordinal (digits cs 0 4) (digits cs 5 2) (digits cs 8 2) * 86400 +
    digits cs 11 2 * 3600 + digits cs 14 2 * 60 + digits cs 17 2) + digits cs 20 6

def monitor : PollingMonitor where
  toMonitor := Monitor.demo
  asUtc := fromisoformat
  asUtc_iso _ := rfl

def subscription : Subscription := ⟨"conversation", "operator", "Operator"⟩

def onTime : Event := ⟨"2026-01-01T00:00:30.000000Z", "INC-2", "link down"⟩

def arrivesLate : Event := ⟨"2026-01-01T00:00:20.000000Z", "INC-1", "fibre cut"⟩

def firstPoll : Poll :=
  ⟨some subscription, [onTime], fromisoformat "2026-01-01T00:00:40.000000Z"⟩

def secondPoll : Poll :=
  ⟨some subscription, [onTime, arrivesLate], fromisoformat "2026-01-01T00:01:10.000000Z"⟩

theorem arrivesLate_late : monitor.Late (Trace.run monitor.poll {} [firstPoll]) arrivesLate :=
  ⟨⟨"2026-01-01T00:00:30.000000Z", "INC-2"⟩, by decide +kernel, by decide +kernel,
    by decide +kernel⟩

theorem late_event_is_lost_example :
    ¬ monitor.Returned (monitor.effects (Trace.run monitor.poll {} [firstPoll]) [secondPoll])
        arrivesLate ∧
      ¬ monitor.Handled (monitor.effects (Trace.run monitor.poll {} [firstPoll]) [secondPoll])
        arrivesLate :=
  late_event_is_lost monitor [firstPoll] [secondPoll] arrivesLate arrivesLate_late

theorem overlap_recovers_nothing :
    monitor.Late (Trace.run monitor.poll {} [firstPoll]) arrivesLate ∧
      arrivesLate ∈ secondPoll.table ∧
      monitor.InWindow (monitor.buildIncidentQuery
        (Trace.run monitor.poll {} [firstPoll]).durable.cursor secondPoll.now) arrivesLate ∧
      ∀ after : List Poll, ¬ monitor.Returned (monitor.effects
          (Trace.run monitor.poll {} [firstPoll]) (secondPoll :: after)) arrivesLate ∧
        ¬ monitor.Handled (monitor.effects
          (Trace.run monitor.poll {} [firstPoll]) (secondPoll :: after)) arrivesLate := by
  refine ⟨arrivesLate_late, by decide +kernel, by decide +kernel, fun after => ?_⟩
  exact lost_of_late (run_pending rfl [firstPoll]) arrivesLate_late (secondPoll :: after)

end Example

end PollingMonitor

end IncidentMonitor
