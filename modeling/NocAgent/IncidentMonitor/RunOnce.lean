import NocAgent.IncidentMonitor.State
import Mathlib.Data.List.Sort

namespace IncidentMonitor

inductive Outcome where
  | successful
  | incomplete
  | raised (errorType : String)
deriving DecidableEq, Repr

def Outcome.errorType : Outcome → Option String
  | .successful => none
  | .incomplete => some "RuntimeError"
  | .raised errorType => some errorType

inductive Effect where
  | handled (event : Event) (subscription : Subscription) (outcome : Outcome)
  | polled (cursor : Option Cursor) (table events : List Event)
  | wrote (state : MonitorState)
deriving DecidableEq, Repr

-- What one call of run_once meets: the n-th entry of `outcome` and of `leaseLost` is what holds
-- after n awaited effects; `table` is the content of the queried window.
structure Env where
  subscription : Option Subscription
  outcome : ℕ → Outcome
  leaseLost : ℕ → Bool
  table : List Event
  poll : Option Cursor → List Event

structure Progress where
  effects : List Effect
  state : MonitorState
  proceed : Bool
deriving DecidableEq, Repr

def Progress.after (effects : List Effect) (p : Progress) : Progress :=
  { p with effects := effects ++ p.effects }

namespace Monitor
variable (m : Monitor)

def sortedEvents (events : List Event) : List Event :=
  events.insertionSort fun a b => m.fromEvent a ≤ m.fromEvent b

theorem mem_sortedEvents {events : List Event} {e : Event} :
    e ∈ m.sortedEvents events ↔ e ∈ events := List.mem_insertionSort _

theorem sortedEvents_pairwise (events : List Event) :
    (m.sortedEvents events).Pairwise fun a b => m.fromEvent a ≤ m.fromEvent b := by
  have : Std.Total fun a b => m.fromEvent a ≤ m.fromEvent b :=
    ⟨fun a b => le_total (m.fromEvent a) (m.fromEvent b)⟩
  have : IsTrans Event fun a b => m.fromEvent a ≤ m.fromEvent b :=
    ⟨fun _ _ _ => le_trans⟩
  exact List.pairwise_insertionSort _ events

def sortedKeys (pending : List (String × Item)) : List String :=
  (pending.insertionSort fun a b => m.fromEvent a.2.event ≤ m.fromEvent b.2.event).map (·.1)

def deadLetter (item : Item) (errorType : String) : DeadLetter where
  timestamp := (m.fromEvent item.event).timestamp
  incidentId := (m.fromEvent item.event).incidentId
  attempts := item.attempts
  errorType := errorType

def retried (key : String) (item : Item) (state : MonitorState) : MonitorState :=
  state.setItem key { item with attempts := item.attempts + 1 }

def settled (key : String) (item : Item) (state : MonitorState) : MonitorState :=
  (state.setCursor (m.fromEvent item.event)).delItem key

def abandoned (key : String) (item : Item) (errorType : String) (state : MonitorState) :
    MonitorState :=
  let item := { item with attempts := item.attempts + 1 }
  (((state.setItem key item).appendDeadLetter (m.deadLetter item errorType)).setCursor
    (m.fromEvent item.event)).delItem key

def process (env : Env) (subscription : Subscription) (key : String) (state : MonitorState)
    (n : ℕ) : Progress :=
  match state.item? key with
  | none => { effects := [], state := state, proceed := false }
  | some item =>
    let call := Effect.handled item.event subscription (env.outcome n)
    match (env.outcome n).errorType with
    | some errorType =>
      if item.attempts + 1 < m.config.maxAttempts then
        { effects := [call, .wrote (retried key item state)]
          state := retried key item state
          proceed := false }
      else
        { effects := [call, .wrote (m.abandoned key item errorType state)]
          state := m.abandoned key item errorType state
          proceed := true }
    | none =>
      if env.leaseLost (n + 1) then { effects := [call], state := state, proceed := false }
      else
        { effects := [call, .wrote (m.settled key item state)]
          state := m.settled key item state
          proceed := true }

def replay (env : Env) (subscription : Subscription) :
    List String → MonitorState → ℕ → Progress
  | [], state, _ => { effects := [], state := state, proceed := true }
  | key :: keys, state, n =>
    if env.leaseLost n then { effects := [], state := state, proceed := false }
    else
      let step := m.process env subscription key state n
      if step.proceed then
        (replay env subscription keys step.state (n + step.effects.length)).after step.effects
      else step

def consume (env : Env) (subscription : Subscription) :
    List Event → Option Cursor → MonitorState → ℕ → Progress
  | [], _, state, _ => { effects := [], state := state, proceed := true }
  | event :: events, cursor, state, n =>
    if env.leaseLost n then { effects := [], state := state, proceed := false }
    else if After cursor (m.fromEvent event) then
      let key := pendingKey (m.fromEvent event)
      let state := state.setItem key { event := event, attempts := 0 }
      let step := (m.process env subscription key state (n + 1)).after [.wrote state]
      if step.proceed then
        (consume env subscription events (some (m.fromEvent event)) step.state
          (n + step.effects.length)).after step.effects
      else step
    else consume env subscription events cursor state n

def runOnce (env : Env) (stored : Option MonitorState) : Progress :=
  let state := stored.getD {}
  match env.subscription with
  | none => { effects := [], state := state, proceed := false }
  | some subscription =>
    let resumed := m.replay env subscription (m.sortedKeys state.pending) state 0
    if resumed.proceed then
      let cursor := resumed.state.cursor
      let events := m.sortedEvents (env.poll cursor)
      let polled := resumed.effects ++ [.polled cursor env.table events]
      (m.consume env subscription events cursor resumed.state polled.length).after polled
    else resumed

end Monitor

end IncidentMonitor
