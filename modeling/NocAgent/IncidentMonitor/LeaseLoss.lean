import NocAgent.IncidentMonitor.AtLeastOnce

namespace IncidentMonitor

-- An awaited effect with _lease_lost as it is when the await begins and when it ends.
structure Timed where
  lostBefore : Bool
  lostAfter : Bool
  effect : Effect
deriving DecidableEq

def timed (env : Env) : ℕ → List Effect → List Timed
  | _, [] => []
  | n, effect :: effects =>
    ⟨env.leaseLost n, env.leaseLost (n + 1), effect⟩ :: timed env (n + 1) effects

def lastWritten (stored : Option MonitorState) (effects : List Effect) : Option MonitorState :=
  effects.foldl (fun stored effect =>
    match effect with
    | .wrote state => some state
    | _ => stored) stored

-- One turn of the loop in run: the flag as the loop tests it, and what run_once then meets.
structure Round where
  lost : Bool
  env : Env

def Monitor.run (m : Monitor) : List Round → Option MonitorState → List Timed
  | [], _ => []
  | round :: rounds, stored =>
    if round.lost then []
    else
      let effects := (m.runOnce round.env stored).effects
      timed round.env 0 effects ++ m.run rounds (lastWritten stored effects)

def StopsWrites (run : List Timed) : Prop :=
  ∀ t ∈ run, ∀ state, t.effect = .wrote state → t.lostBefore = false

-- A handler call that ends with the flag set has not failed.
def NoLateFailure (run : List Timed) : Prop :=
  ∀ t ∈ run, ∀ event subscription outcome, t.effect = .handled event subscription outcome →
    t.lostAfter = true → outcome = .successful

def Exact (run : List Timed) : Prop := StopsWrites run ↔ NoLateFailure run

section Timed
variable {m : Monitor} {env : Env} {subscription : Subscription}

theorem timed_append (n : ℕ) (xs ys : List Effect) :
    timed env n (xs ++ ys) = timed env n xs ++ timed env (n + xs.length) ys := by
  induction xs generalizing n with
  | nil => rfl
  | cons x xs ih =>
    rw [List.cons_append, timed, ih, timed, List.length_cons, List.cons_append,
      Nat.add_assoc, Nat.add_comm 1]

theorem Exact.nil : Exact [] := iff_of_true (fun _ h => by cases h) fun _ h => by cases h

theorem Exact.append {xs ys : List Timed} (hxs : Exact xs) (hys : Exact ys) :
    Exact (xs ++ ys) := by
  rw [Exact, StopsWrites, NoLateFailure, List.forall_mem_append, List.forall_mem_append]
  exact and_congr hxs hys

theorem Exact.single {lostBefore lostAfter : Bool} {effect : Effect}
    (hwrite : ∀ state, effect = .wrote state → lostBefore = false)
    (hcall : ∀ event subscription outcome, effect = .handled event subscription outcome →
      outcome = .successful) : Exact [⟨lostBefore, lostAfter, effect⟩] := by
  refine iff_of_true (fun t ht => ?_) fun t ht event subscription outcome heffect _ => ?_
  · rwa [List.mem_singleton.mp ht]
  · rw [List.mem_singleton.mp ht] at heffect
    exact hcall event subscription outcome heffect

theorem Exact.wrote {lostAfter : Bool} (state : MonitorState) :
    Exact [⟨false, lostAfter, .wrote state⟩] :=
  .single (fun _ _ => rfl) fun _ _ _ h => by cases h

theorem Exact.polled {lostBefore lostAfter : Bool} (cursor : Option Cursor)
    (table events : List Event) : Exact [⟨lostBefore, lostAfter, .polled cursor table events⟩] :=
  .single (fun _ h => by cases h) fun _ _ _ h => by cases h

theorem Exact.successful {lostBefore lostAfter : Bool} (event : Event)
    (subscription : Subscription) :
    Exact [⟨lostBefore, lostAfter, .handled event subscription .successful⟩] :=
  .single (fun _ h => by cases h) fun _ _ _ h => by
    cases h
    rfl

theorem Exact.failed {lostBefore lost lostAfter : Bool} {event : Event} {outcome : Outcome}
    (hfailed : outcome ≠ .successful) (state : MonitorState) :
    Exact [⟨lostBefore, lost, .handled event subscription outcome⟩,
      ⟨lost, lostAfter, .wrote state⟩] := by
  cases lost with
  | false =>
    refine iff_of_true (fun t ht state' heffect => ?_)
      fun t ht event subscription outcome heffect hlost => ?_
    · rcases List.mem_pair.mp ht with rfl | rfl
      · cases heffect
      · rfl
    · rcases List.mem_pair.mp ht with rfl | rfl
      · cases hlost
      · cases heffect
  | true =>
    refine iff_of_false (fun h => ?_) fun h => ?_
    · have hwrite := h _ (List.mem_cons_of_mem _ List.mem_cons_self) state rfl
      cases hwrite
    · exact hfailed (h _ List.mem_cons_self event subscription outcome rfl rfl)

theorem exact_process (key : String) (state : MonitorState) (n : ℕ) :
    Exact (timed env n (m.process env subscription key state n).effects) := by
  rw [Monitor.process]
  cases state.item? key with
  | none => exact Exact.nil
  | some item =>
    dsimp only
    cases houtcome : env.outcome n with
    | successful =>
      dsimp only [Outcome.errorType]
      cases hlost : env.leaseLost (n + 1) with
      | true => exact Exact.successful item.event subscription
      | false =>
        refine (Exact.successful item.event subscription).append ?_
        simp only [hlost]
        exact Exact.wrote _
    | incomplete =>
      dsimp only [Outcome.errorType]
      split_ifs <;> exact Exact.failed (by simp) _
    | raised errorType =>
      dsimp only [Outcome.errorType]
      split_ifs <;> exact Exact.failed (by simp) _

theorem exact_after {effects : List Effect} {p : Progress} {n : ℕ}
    (heffects : Exact (timed env n effects))
    (hp : Exact (timed env (n + effects.length) p.effects)) :
    Exact (timed env n (p.after effects).effects) := by
  change Exact (timed env n (effects ++ p.effects))
  rw [timed_append]
  exact heffects.append hp

theorem exact_replay (keys : List String) (state : MonitorState) (n : ℕ) :
    Exact (timed env n (m.replay env subscription keys state n).effects) := by
  induction keys generalizing state n with
  | nil => exact Exact.nil
  | cons key keys ih =>
    have hstep : Exact (timed env n (m.process env subscription key state n).effects) :=
      exact_process key state n
    rw [Monitor.replay]
    split_ifs
    · exact Exact.nil
    · dsimp only
      split_ifs
      · exact exact_after hstep (ih _ _)
      · exact hstep

theorem exact_consume (events : List Event) (cursor : Option Cursor) (state : MonitorState)
    (n : ℕ) : Exact (timed env n (m.consume env subscription events cursor state n).effects) := by
  induction events generalizing cursor state n with
  | nil => exact Exact.nil
  | cons event events ih =>
    rw [Monitor.consume]
    split_ifs with hlost
    · exact Exact.nil
    · have hqueue (queued : MonitorState) : Exact (timed env n [.wrote queued]) := by
        rw [timed, Bool.eq_false_iff.mpr hlost]
        exact Exact.wrote queued
      dsimp only
      split_ifs
      · exact exact_after (exact_after (hqueue _) (exact_process _ _ _)) (ih _ _ _)
      · exact exact_after (hqueue _) (exact_process _ _ _)
    · exact ih cursor state n

theorem exact_runOnce (m : Monitor) (env : Env) (stored : Option MonitorState) :
    Exact (timed env 0 (m.runOnce env stored).effects) := by
  rw [Monitor.runOnce]
  cases env.subscription with
  | none => exact Exact.nil
  | some subscription =>
    have hreplay : Exact (timed env 0 (m.replay env subscription
        (m.sortedKeys (stored.getD {}).pending) (stored.getD {}) 0).effects) :=
      exact_replay _ _ _
    dsimp only
    split_ifs
    · refine exact_after ?_ ?_
      · rw [timed_append]
        exact hreplay.append (Exact.polled _ _ _)
      · rw [Nat.zero_add]
        exact exact_consume _ _ _ _
    · exact hreplay

end Timed

theorem lease_loss_stops_writes_iff (m : Monitor) (rounds : List Round)
    (stored : Option MonitorState) :
    StopsWrites (m.run rounds stored) ↔ NoLateFailure (m.run rounds stored) := by
  change Exact (m.run rounds stored)
  induction rounds generalizing stored with
  | nil => exact Exact.nil
  | cons round rounds ih =>
    rw [Monitor.run]
    split_ifs
    · exact Exact.nil
    · exact (exact_runOnce m round.env stored).append (ih _)

section Example
open Monitor

def lostInHandler : Round where
  lost := false
  env := { demoEnv fun _ => .incomplete with leaseLost := fun n => decide (1 ≤ n) }

def lastAttempt : MonitorState := { pending := [("key", ⟨firstIncident, 2⟩)] }

theorem failure_writes_after_lease_loss :
    ⟨true, true, .wrote (demo.abandoned "key" ⟨firstIncident, 2⟩ "RuntimeError" lastAttempt)⟩ ∈
        demo.run [lostInHandler] (some lastAttempt) ∧
      ¬ StopsWrites (demo.run [lostInHandler] (some lastAttempt)) := by
  have hwrite : ⟨true, true,
      .wrote (demo.abandoned "key" ⟨firstIncident, 2⟩ "RuntimeError" lastAttempt)⟩ ∈
        demo.run [lostInHandler] (some lastAttempt) := by decide +kernel
  refine ⟨hwrite, fun h => ?_⟩
  cases h _ hwrite _ rfl

end Example

end IncidentMonitor
