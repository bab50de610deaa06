import NocAgent.IncidentMonitor.RunOnce
import NocAgent.Library.Trace

namespace IncidentMonitor

structure Call where
  event : Event
  outcome : Outcome
  state : MonitorState
deriving DecidableEq, Repr

-- The durable blob and the history around it; `call` is a handler result that no write has
-- followed yet.
structure World where
  durable : MonitorState := {}
  call : Option Outcome := none
  batch : List Event := []
  handled : List Call := []
  offered : List Event := []
  visible : List Event := []
  written : List MonitorState := []
deriving DecidableEq, Repr

namespace Monitor
variable (m : Monitor)

def apply (w : World) : Effect → World
  | .handled event _ outcome =>
    { w with call := some outcome, handled := ⟨event, outcome, w.durable⟩ :: w.handled }
  | .polled cursor table events =>
    { w with
      batch := events
      offered := table.filter (fun e => After cursor (m.fromEvent e)) ++ w.offered
      visible := table ++ w.visible }
  | .wrote state => { w with durable := state, call := none, written := state :: w.written }

def answered (key : String) (item : Item) (outcome : Outcome) (state : MonitorState) :
    MonitorState :=
  match outcome.errorType with
  | none => m.settled key item state
  | some errorType =>
    if item.attempts + 1 < m.config.maxAttempts then retried key item state
    else m.abandoned key item errorType state

def queued (event : Event) (state : MonitorState) : MonitorState :=
  { state with pending := [(pendingKey (m.fromEvent event), ⟨event, 0⟩)] }

inductive Legal (env : Env) (w : World) : Effect → Prop
  | handle {key : String} {item : Item} (hcall : w.call = none)
      (hp : w.durable.pending = [(key, item)]) (subscription : Subscription) (outcome : Outcome) :
    Legal env w (.handled item.event subscription outcome)
  | poll (hcall : w.call = none) (hp : w.durable.pending = []) :
    Legal env w
      (.polled w.durable.cursor env.table (m.sortedEvents (env.poll w.durable.cursor)))
  | enqueue {event : Event} (hcall : w.call = none) (hp : w.durable.pending = [])
      (hmem : event ∈ w.batch) (hafter : After w.durable.cursor (m.fromEvent event))
      (hleast : ∀ e ∈ w.batch, After w.durable.cursor (m.fromEvent e) →
        m.fromEvent event ≤ m.fromEvent e) :
    Legal env w (.wrote (m.queued event w.durable))
  | answer {key : String} {item : Item} {outcome : Outcome} (hcall : w.call = some outcome)
      (hp : w.durable.pending = [(key, item)]) :
    Legal env w (.wrote (m.answered key item outcome w.durable))

section Answered
variable {m} {key : String} {item : Item} {state : MonitorState}

theorem settled_of_single (hp : state.pending = [(key, item)]) :
    m.settled key item state =
      { state with cursor := some (m.fromEvent item.event), pending := [] } := by
  have hset : (state.setCursor (m.fromEvent item.event)).pending = [(key, item)] := hp
  rw [settled, MonitorState.delItem_of_single hset]
  rfl

theorem retried_of_single (hp : state.pending = [(key, item)]) :
    retried key item state =
      { state with pending := [(key, { item with attempts := item.attempts + 1 })] } := by
  rw [retried, MonitorState.setItem_of_single hp]

theorem abandoned_of_single (hp : state.pending = [(key, item)]) (errorType : String) :
    m.abandoned key item errorType state =
      { cursor := some (m.fromEvent item.event)
        pending := []
        deadLetters := state.deadLetters ++
          [m.deadLetter { item with attempts := item.attempts + 1 } errorType] } := by
  have hset : ((({ state with pending :=
      [(key, { item with attempts := item.attempts + 1 })] } : MonitorState).appendDeadLetter
        (m.deadLetter { item with attempts := item.attempts + 1 } errorType)).setCursor
          (m.fromEvent item.event)).pending =
      [(key, { item with attempts := item.attempts + 1 })] := rfl
  simp only [abandoned, MonitorState.setItem_of_single hp]
  rw [MonitorState.delItem_of_single hset]
  rfl

end Answered

-- A part of run_once, started in `w`, takes only legal steps and keeps its state as stored.
structure Follows (env : Env) (w : World) (p : Progress) : Prop where
  legal : Trace.Along m.apply (m.Legal env) w p.effects
  durable : (Trace.run m.apply w p.effects).durable = p.state
  proceed : p.proceed = true → p.state.pending = [] ∧ (Trace.run m.apply w p.effects).call = none
  closed : (∀ n, env.leaseLost n = false) → (Trace.run m.apply w p.effects).call = none

section Follows
variable {m} {env : Env} {w : World}

theorem Follows.stop {state : MonitorState} (hd : w.durable = state) (hcall : w.call = none) :
    m.Follows env w { effects := [], state := state, proceed := false } :=
  ⟨trivial, hd, (nomatch ·), fun _ => hcall⟩

theorem Follows.done (hcall : w.call = none) (hp : w.durable.pending = []) :
    m.Follows env w { effects := [], state := w.durable, proceed := true } :=
  ⟨trivial, rfl, fun _ => ⟨hp, hcall⟩, fun _ => hcall⟩

theorem Follows.after (effects : List Effect) {p : Progress}
    (hl : Trace.Along m.apply (m.Legal env) w effects)
    (h : m.Follows env (Trace.run m.apply w effects) p) : m.Follows env w (p.after effects) := by
  refine ⟨(Trace.along_append w effects p.effects).mpr ⟨hl, h.legal⟩, ?_, ?_, ?_⟩
  · change (Trace.run m.apply w (effects ++ p.effects)).durable = p.state
    rw [Trace.run_append, h.durable]
  · change p.proceed = true → _ ∧ (Trace.run m.apply w (effects ++ p.effects)).call = none
    rw [Trace.run_append]
    exact h.proceed
  · change _ → (Trace.run m.apply w (effects ++ p.effects)).call = none
    rw [Trace.run_append]
    exact h.closed

theorem process_follows (env : Env) (state : MonitorState) {key : String} {item : Item}
    (hd : w.durable = state) (hcall : w.call = none) (hp : state.pending = [(key, item)])
    (subscription : Subscription) (n : ℕ) :
    m.Follows env w (m.process env subscription key state n) ∧
      ((m.process env subscription key state n).proceed = true →
        (m.process env subscription key state n).state.cursor = some (m.fromEvent item.event)) ∧
      (Trace.run m.apply w (m.process env subscription key state n).effects).batch = w.batch := by
  subst hd
  have hhandle : m.Legal env w (.handled item.event subscription (env.outcome n)) :=
    .handle hcall hp subscription (env.outcome n)
  have hanswer : m.Legal env (m.apply w (.handled item.event subscription (env.outcome n)))
      (.wrote (m.answered key item (env.outcome n) w.durable)) := .answer rfl hp
  simp only [process, MonitorState.item?_of_single hp]
  cases ho : (env.outcome n).errorType with
  | none =>
    simp only [answered, ho] at hanswer
    cases hlost : env.leaseLost (n + 1) with
    | true =>
      refine ⟨⟨⟨hhandle, trivial⟩, rfl, fun h => ?_, fun h => ?_⟩, fun h => ?_, rfl⟩
      · cases h
      · rw [h] at hlost
        cases hlost
      · cases h
    | false =>
      rw [settled_of_single hp] at hanswer ⊢
      exact ⟨⟨⟨hhandle, hanswer, trivial⟩, rfl, fun _ => ⟨rfl, rfl⟩, fun _ => rfl⟩,
        fun _ => rfl, rfl⟩
  | some errorType =>
    simp only [answered, ho] at hanswer
    dsimp only
    split_ifs with hmax
    · rw [if_pos hmax] at hanswer
      refine ⟨⟨⟨hhandle, hanswer, trivial⟩, rfl, fun h => ?_, fun _ => rfl⟩, fun h => ?_, rfl⟩
      · cases h
      · cases h
    · rw [if_neg hmax] at hanswer
      rw [abandoned_of_single hp] at hanswer ⊢
      exact ⟨⟨⟨hhandle, hanswer, trivial⟩, rfl, fun _ => ⟨rfl, rfl⟩, fun _ => rfl⟩,
        fun _ => rfl, rfl⟩

theorem replay_follows (hcall : w.call = none) (hp : w.durable.pending.length ≤ 1)
    (subscription : Subscription) (n : ℕ) :
    m.Follows env w
      (m.replay env subscription (m.sortedKeys w.durable.pending) w.durable n) := by
  cases hpend : w.durable.pending with
  | nil => exact Follows.done hcall hpend
  | cons p ps =>
    obtain ⟨key, item⟩ := p
    have hps : ps = [] := by
      rw [hpend, List.length_cons] at hp
      exact List.length_eq_zero_iff.mp (by omega)
    rw [hps] at hpend ⊢
    obtain ⟨hfollows, -, -⟩ := process_follows (m := m) env w.durable rfl hcall hpend subscription n
    change m.Follows env w (m.replay env subscription [key] w.durable n)
    cases hlost : env.leaseLost n with
    | true =>
      simp only [replay, hlost, if_true]
      exact Follows.stop rfl hcall
    | false =>
      by_cases hproceed : (m.process env subscription key w.durable n).proceed = true
      · obtain ⟨hnil, hclosed⟩ := hfollows.proceed hproceed
        simp only [replay, hlost, hproceed, Bool.false_eq_true, if_false, if_true]
        refine Follows.after _ hfollows.legal ?_
        rw [← hfollows.durable] at hnil ⊢
        exact Follows.done hclosed hnil
      · simp only [replay, hlost, hproceed, Bool.false_eq_true, if_false]
        exact hfollows

theorem least_of_sorted {events done : List Event} {event : Event}
    (hle : ∀ e ∈ events, m.fromEvent event ≤ m.fromEvent e)
    (hbatch : w.batch = done ++ event :: events)
    (hdone : ∀ e ∈ done, ¬ After w.durable.cursor (m.fromEvent e)) :
    ∀ e ∈ w.batch, After w.durable.cursor (m.fromEvent e) → m.fromEvent event ≤ m.fromEvent e := by
  intro e he hae
  rw [hbatch] at he
  rcases List.mem_append.mp he with he | he
  · exact absurd hae (hdone e he)
  · rcases List.mem_cons.mp he with rfl | he
    · exact le_rfl
    · exact hle e he

theorem passed_of_taken {done : List Event} {event : Event} {cursor : Option Cursor}
    (hdone : ∀ e ∈ done, ¬ After cursor (m.fromEvent e))
    (hafter : After cursor (m.fromEvent event)) :
    ∀ e ∈ done ++ [event], ¬ After (some (m.fromEvent event)) (m.fromEvent e) := by
  intro e he hae
  rcases List.mem_append.mp he with he | he
  · exact hdone e he (hae.of_advances hafter.advances)
  · rw [List.mem_singleton.mp he, after_some] at hae
    exact lt_irrefl _ hae

theorem consume_follows {events done : List Event}
    (hsorted : events.Pairwise fun a b => m.fromEvent a ≤ m.fromEvent b)
    (hbatch : w.batch = done ++ events)
    (hdone : ∀ e ∈ done, ¬ After w.durable.cursor (m.fromEvent e))
    (hcall : w.call = none) (hp : w.durable.pending = []) (subscription : Subscription) (n : ℕ) :
    m.Follows env w (m.consume env subscription events w.durable.cursor w.durable n) := by
  induction events generalizing w done n with
  | nil => exact Follows.done hcall hp
  | cons event events ih =>
    obtain ⟨hle, hsorted⟩ := List.pairwise_cons.mp hsorted
    have hsplit : w.batch = (done ++ [event]) ++ events := by rw [hbatch, List.append_assoc]; rfl
    cases hlost : env.leaseLost n with
    | true =>
      simp only [consume, hlost, if_true]
      exact Follows.stop rfl hcall
    | false =>
      by_cases hafter : After w.durable.cursor (m.fromEvent event)
      · have henqueue : m.Legal env w (.wrote (m.queued event w.durable)) :=
          .enqueue hcall hp (by simp [hbatch]) hafter (least_of_sorted hle hbatch hdone)
        have hprocess :=
          process_follows (m := m) (w := m.apply w (.wrote (m.queued event w.durable)))
            env (m.queued event w.durable) rfl rfl rfl subscription (n + 1)
        have hqueue : w.durable.setItem (pendingKey (m.fromEvent event)) ⟨event, 0⟩ =
            m.queued event w.durable := MonitorState.setItem_of_nil hp ..
        simp only [consume, hlost, hafter, Bool.false_eq_true, if_false, if_true, hqueue]
        generalize m.process env subscription (pendingKey (m.fromEvent event))
          (m.queued event w.durable) (n + 1) = p at hprocess ⊢
        obtain ⟨hfollows, hcursor, hsame⟩ := hprocess
        have hfirst : m.Follows env w (p.after [.wrote (m.queued event w.durable)]) :=
          Follows.after [.wrote (m.queued event w.durable)] ⟨henqueue, trivial⟩ hfollows
        split_ifs with hproceed
        · refine Follows.after _ hfirst.legal ?_
          obtain ⟨hnil, hclosed⟩ := hfirst.proceed hproceed
          have hcur : p.state.cursor = some (m.fromEvent event) := hcursor hproceed
          have hdone' : ∀ e ∈ done ++ [event], ¬ After p.state.cursor (m.fromEvent e) := by
            rw [hcur]
            exact passed_of_taken hdone hafter
          have hrest := fun k => ih hsorted (hsame.trans hsplit)
            (by rw [hfollows.durable]; exact hdone') hclosed
            (by rw [hfollows.durable]; exact hnil) k
          simp only [hfollows.durable, hcur] at hrest
          exact hrest _
        · exact hfirst
      · simp only [consume, hlost, hafter, Bool.false_eq_true, if_false]
        refine ih hsorted hsplit (fun e he => ?_) hcall hp n
        rcases List.mem_append.mp he with he | he
        · exact hdone e he
        · rwa [List.mem_singleton.mp he]

theorem runOnce_follows (hcall : w.call = none) (hp : w.durable.pending.length ≤ 1) :
    m.Follows env w (m.runOnce env (some w.durable)) := by
  cases hsub : env.subscription with
  | none =>
    simp only [runOnce, hsub]
    exact Follows.stop rfl hcall
  | some subscription =>
    have hreplay : m.Follows env w
        (m.replay env subscription (m.sortedKeys w.durable.pending) w.durable 0) :=
      replay_follows hcall hp subscription 0
    simp only [runOnce, hsub, Option.getD_some]
    generalize m.replay env subscription (m.sortedKeys w.durable.pending) w.durable 0 = p
      at hreplay ⊢
    split_ifs with hproceed
    · obtain ⟨hnil, hclosed⟩ := hreplay.proceed hproceed
      rw [← hreplay.durable] at hnil ⊢
      refine Follows.after _ ((Trace.along_append _ _ _).mpr
        ⟨hreplay.legal, .poll hclosed hnil, trivial⟩) ?_
      rw [Trace.run_append]
      exact consume_follows (w := m.apply (Trace.run m.apply w p.effects) (.polled _ env.table _))
        (m.sortedEvents_pairwise _) (List.nil_append _).symm
        (fun e (h : e ∈ []) => absurd h List.not_mem_nil) hclosed hnil subscription _
    · exact hreplay

theorem single_of_legal (hs : w.durable.pending.length ≤ 1) {effect : Effect}
    (h : m.Legal env w effect) : (m.apply w effect).durable.pending.length ≤ 1 := by
  cases h with
  | handle => exact hs
  | poll => exact hs
  | enqueue => exact le_rfl
  | answer hcall hp =>
    change (m.answered _ _ _ w.durable).pending.length ≤ 1
    unfold answered
    split
    · simp [settled_of_single hp]
    · split_ifs
      · simp [retried_of_single hp]
      · simp [abandoned_of_single hp]

end Follows

end Monitor

def World.restart (w : World) : World := { w with call := none }

-- One run_once of a leader that is stopped after `cut` of its awaited effects.
structure Session where
  env : Env
  cut : ℕ

namespace Monitor
variable (m : Monitor)

def effectsOf (env : Env) (w : World) : List Effect := (m.runOnce env (some w.durable)).effects

def session (w : World) (s : Session) : World :=
  Trace.run m.apply w.restart ((m.effectsOf s.env w).take s.cut)

theorem session_legal {w : World} (hp : w.durable.pending.length ≤ 1) (s : Session) :
    Trace.Along m.apply (m.Legal s.env) w.restart ((m.effectsOf s.env w).take s.cut) := by
  have hfollows : m.Follows s.env w.restart (m.runOnce s.env (some w.restart.durable)) :=
    runOnce_follows rfl hp
  have hall := hfollows.legal
  change Trace.Along m.apply (m.Legal s.env) w.restart (m.effectsOf s.env w) at hall
  rw [← List.take_append_drop s.cut (m.effectsOf s.env w), Trace.along_append] at hall
  exact hall.1

theorem session_invariant {I : World → Prop} {w : World} {s : Session}
    (hp : w.durable.pending.length ≤ 1) (hi : I w.restart)
    (hstep : ∀ w effect, I w → m.Legal s.env w effect → I (m.apply w effect)) :
    I (m.session w s) := Trace.invariant hstep hi (m.session_legal hp s)

end Monitor

end IncidentMonitor
