import NocAgent.IncidentMonitor.AtLeastOnce
import NocAgent.Library.LeaseRegister

namespace IncidentMonitor

structure Deployment extends Monitor where
  leaseSeconds : ℕ
  leaseSeconds_range : 15 ≤ leaseSeconds ∧ leaseSeconds ≤ 60

structure Turn where
  env : Env
  effects : List Effect
  taken : ℕ := 0

-- The task of one instance: it waits for the lease, leads with `lost` for _lease_lost, or is over.
inductive Node where
  | standby
  | leading (term : Term) (lost : Bool) (turn : Option Turn)
  | stopped

def Node.term : Node → Option Term
  | .leading term _ _ => some term
  | _ => none

structure Fleet (ι : Type) where
  register : LeaseRegister := {}
  world : World := {}
  node : ι → Node

namespace Fleet

inductive Request where
  | dropped | replyLost | served
deriving DecidableEq, Repr

inductive Label (ι : Type) where
  | tick (seconds : ℕ)
  | acquire (k : ι) (request : Request)
  | renew (k : ι) (request : Request)
  | begin (k : ι) (env : Env)
  | effect (k : ι)
  | leave (k : ι) (released : Bool)
  | restart (k : ι)

variable {ι : Type} [DecidableEq ι]

def start : Fleet ι := { node := fun _ => .standby }

def setNode (sys : Fleet ι) (register : LeaseRegister) (k : ι) (node : Node) : Fleet ι :=
  { sys with register := register, node := Function.update sys.node k node }

section Step
variable (d : Deployment) (sys : Fleet ι)

-- A conflict leaves the instance waiting; any other failure of the request ends its task.
def acquire (k : ι) (request : Request) : Fleet ι :=
  match sys.node k, request with
  | .standby, .dropped => sys.setNode sys.register k .stopped
  | .standby, .replyLost =>
    sys.setNode (sys.register.acquire d.leaseSeconds).1 k .stopped
  | .standby, .served =>
    match (sys.register.acquire d.leaseSeconds).2 with
    | none => sys
    | some term =>
      sys.setNode (sys.register.acquire d.leaseSeconds).1 k (.leading term false none)
  | _, _ => sys

def renew (k : ι) (request : Request) : Fleet ι :=
  match sys.node k, request with
  | .leading term false turn, .dropped => sys.setNode sys.register k (.leading term true turn)
  | .leading term false turn, .replyLost =>
    sys.setNode (sys.register.renew d.leaseSeconds term.id).1 k (.leading term true turn)
  | .leading term false turn, .served =>
    match (sys.register.renew d.leaseSeconds term.id).2 with
    | none => sys.setNode sys.register k (.leading term true turn)
    | some term' =>
      sys.setNode (sys.register.renew d.leaseSeconds term.id).1 k (.leading term' false turn)
  | _, _ => sys

def begin (k : ι) (env : Env) : Fleet ι :=
  match sys.node k with
  | .leading term false turn =>
    if turn.all fun t => t.effects.length ≤ t.taken then
      sys.setNode sys.register k
        (.leading term false (some ⟨env, d.effectsOf env sys.world, 0⟩))
    else sys
  | _ => sys

def effect (k : ι) : Fleet ι :=
  match sys.node k with
  | .leading term lost (some turn) =>
    match turn.effects[turn.taken]? with
    | none => sys
    | some effect =>
      { sys.setNode sys.register k
          (.leading term lost (some { turn with taken := turn.taken + 1 })) with
        world := d.apply (if turn.taken = 0 then sys.world.restart else sys.world) effect }
  | _ => sys

def leave (k : ι) (released : Bool) : Fleet ι :=
  match sys.node k with
  | .leading term _ _ =>
    sys.setNode (if released then sys.register.release term.id else sys.register) k .stopped
  | _ => sys

def step : Label ι → Fleet ι
  | .tick seconds => { sys with register := sys.register.tick seconds }
  | .acquire k request => sys.acquire d k request
  | .renew k request => sys.renew d k request
  | .begin k env => sys.begin d k env
  | .effect k => sys.effect d k
  | .leave k released => sys.leave k released
  | .restart k => sys.setNode sys.register k .standby

end Step

def InTerm (sys : Fleet ι) (k : ι) : Prop :=
  ∃ term, (sys.node k).term = some term ∧ sys.register.now < term.expires

instance (sys : Fleet ι) (k : ι) : Decidable (sys.InTerm k) :=
  inferInstanceAs (Decidable (∃ t ∈ (sys.node k).term, sys.register.now < t.expires))

-- No instance acts past its term; a poll finds what earlier ones found.
def Prompt (d : Deployment) (sys : Fleet ι) : Label ι → Prop
  | .begin _ env => d.Admissible sys.world ⟨env, 0⟩
  | .effect k => sys.InTerm k
  | _ => True

def Played (d : Deployment) (w : World) : Prop :=
  ∃ sessions, Trace.Along d.session d.Admissible {} sessions ∧ w = Trace.run d.session {} sessions

def Current (d : Deployment) (w : World) (t : Turn) : Prop :=
  ∃ before, Played d before ∧ d.Admissible before ⟨t.env, 0⟩ ∧
    t.effects = d.effectsOf t.env before ∧
      w = if t.taken = 0 then before else d.session before ⟨t.env, t.taken⟩

structure Led (d : Deployment) (sys : Fleet ι) : Prop where
  sound : sys.register.Sound d.leaseSeconds fun k => (sys.node k).term
  played : Played d sys.world
  turn : ∀ k term lost t, sys.node k = .leading term lost (some t) →
    sys.register.Holds term.id → Current d sys.world t

section Session
variable {d : Deployment} {w : World}

theorem Played.init : Played d {} := ⟨[], trivial, rfl⟩

theorem Played.session (h : Played d w) {s : Session} (hs : d.Admissible w s) :
    Played d (d.session w s) := by
  obtain ⟨sessions, halong, rfl⟩ := h
  refine ⟨sessions ++ [s], ?_, ?_⟩
  · exact (Trace.along_append _ sessions [s]).mpr ⟨halong, hs, trivial⟩
  · rw [Trace.run_append]
    rfl

theorem Played.delivering (h : Played d w) : d.Delivering w := by
  obtain ⟨sessions, halong, rfl⟩ := h
  exact Trace.invariant (fun _ _ h hs => h.session hs) Monitor.Delivering.init halong

theorem session_succ {env : Env} {taken : ℕ} {effect : Effect}
    (he : (d.effectsOf env w)[taken]? = some effect) :
    d.session w ⟨env, taken + 1⟩ = d.apply (d.session w ⟨env, taken⟩) effect := by
  simp only [Monitor.session, List.take_add_one, he, Option.toList_some, Trace.run_append]
  rfl

theorem Current.played {t : Turn} (h : Current d w t) : Played d w := by
  obtain ⟨before, hplayed, hadm, -, rfl⟩ := h
  split_ifs
  · exact hplayed
  · exact hplayed.session ⟨hadm.poll, hadm.window⟩

theorem Current.take {t : Turn} (h : Current d w t) {effect : Effect}
    (he : t.effects[t.taken]? = some effect) :
    Current d (d.apply (if t.taken = 0 then w.restart else w) effect)
      { t with taken := t.taken + 1 } := by
  obtain ⟨before, hplayed, hadm, heffects, hw⟩ := h
  refine ⟨before, hplayed, hadm, heffects, ?_⟩
  rw [heffects] at he
  simp only [Nat.add_one_ne_zero, if_false, session_succ he]
  congr 1
  by_cases hzero : t.taken = 0
  · rw [if_pos hzero] at hw ⊢
    rw [hw, hzero]
    rfl
  · rw [if_neg hzero] at hw ⊢
    exact hw

end Session

section Led
variable {d : Deployment} {sys : Fleet ι}

omit [DecidableEq ι] in
theorem Led.start : Led d (Fleet.start : Fleet ι) where
  sound := .init
  played := .init
  turn _ _ _ _ h := by cases h

theorem term_update (node : ι → Node) (k : ι) (n : Node) :
    (fun j => (Function.update node k n j).term) =
      Function.update (fun j => (node j).term) k n.term := by
  funext j
  by_cases hj : j = k
  · rw [hj, Function.update_self, Function.update_self]
  · rw [Function.update_of_ne hj, Function.update_of_ne hj]

theorem Led.setNode (h : Led d sys) {register : LeaseRegister} {k : ι} {n : Node}
    (hsound : register.Sound d.leaseSeconds
      (Function.update (fun j => (sys.node j).term) k n.term))
    (hholds : ∀ j term, j ≠ k → (sys.node j).term = some term → register.Holds term.id →
      sys.register.Holds term.id)
    (hk : ∀ term lost t, n = .leading term lost (some t) → register.Holds term.id →
      Current d sys.world t) : Led d (sys.setNode register k n) := by
  refine ⟨?_, h.played, fun j term lost t hj hheld => ?_⟩
  · change register.Sound d.leaseSeconds fun j => (Function.update sys.node k n j).term
    rw [term_update]
    exact hsound
  · change Function.update sys.node k n j = _ at hj
    by_cases hjk : j = k
    · subst hjk
      rw [Function.update_self] at hj
      exact hk term lost t hj hheld
    · rw [Function.update_of_ne hjk] at hj
      exact h.turn j term lost t hj (hholds j term hjk (by rw [hj]; rfl) hheld)

theorem Led.stop (h : Led d sys) (k : ι) {n : Node} (hn : n.term = none) :
    Led d (sys.setNode sys.register k n) := by
  refine h.setNode ?_ (fun _ _ _ _ hheld => hheld) fun term lost t ht _ => ?_
  · rw [hn]
    exact h.sound.drop k
  · rw [ht] at hn
    cases hn

theorem Led.acquire (h : Led d sys) (k : ι) (request : Request) :
    Led d (sys.acquire d k request) := by
  have hothers : ∀ j term, j ≠ k → (sys.node j).term = some term →
      LeaseRegister.Holds ⟨sys.register.now, some (sys.register.fresh d.leaseSeconds),
        sys.register.issued + 1⟩ term.id → sys.register.Holds term.id := by
    rintro j term - hj ⟨t, ht, hid⟩
    cases ht
    exact absurd hid.symm (h.sound.issued j term hj).ne
  unfold Fleet.acquire
  split
  · exact h.stop k rfl
  · unfold LeaseRegister.acquire
    split_ifs with hfree
    · exact h.setNode (h.sound.acquire hfree k (.inl rfl)) hothers fun _ _ _ ht => by cases ht
    · exact h.stop k rfl
  · unfold LeaseRegister.acquire
    split_ifs with hfree
    · exact h.setNode (h.sound.acquire hfree k (.inr rfl)) hothers fun _ _ _ ht => by cases ht
    · exact h
  · exact h

theorem Led.unanswered (h : Led d sys) {k : ι} {term : Term} {lost lost' : Bool}
    {turn : Option Turn} (hk : sys.node k = .leading term lost turn) :
    Led d (sys.setNode sys.register k (.leading term lost' turn)) := by
  have hterm : (sys.node k).term = some term := by rw [hk]; rfl
  refine h.setNode ?_ (fun _ _ _ _ hheld => hheld) fun term' _ t ht hheld => ?_
  · change LeaseRegister.Sound _ _ (Function.update _ k (some term))
    rw [← hterm, Function.update_eq_self]
    exact h.sound
  · cases ht
    exact h.turn k term lost t hk hheld

theorem Led.extend (h : Led d sys) {k : ι} {term term' : Term} {lost lost' : Bool}
    {turn : Option Turn} (hk : sys.node k = .leading term lost turn)
    (hheld : sys.register.Holds term.id)
    (hterm' : term' = term ∨ term' = sys.register.extended d.leaseSeconds term.id) :
    Led d (sys.setNode
      { sys.register with current := some (sys.register.extended d.leaseSeconds term.id) } k
      (.leading term' lost' turn)) := by
  have hterm : (sys.node k).term = some term := by rw [hk]; rfl
  refine h.setNode (h.sound.renew hterm hheld hterm') ?_ fun term₂ _ t ht _ => ?_
  · rintro j termj - - ⟨t, ht, hid⟩
    cases ht
    exact hid ▸ hheld
  · cases ht
    exact h.turn k term lost t hk hheld

theorem Led.renew (h : Led d sys) (k : ι) (request : Request) :
    Led d (sys.renew d k request) := by
  unfold Fleet.renew LeaseRegister.renew
  split
  · rename_i hk
    exact h.unanswered hk
  · rename_i hk
    split_ifs with hheld
    · exact h.extend hk hheld (.inl rfl)
    · exact h.unanswered hk
  · rename_i hk
    split_ifs with hheld
    · exact h.extend hk hheld (.inr rfl)
    · exact h.unanswered hk
  · exact h

theorem Led.begin (h : Led d sys) {k : ι} {env : Env} (hadm : d.Admissible sys.world ⟨env, 0⟩) :
    Led d (sys.begin d k env) := by
  unfold Fleet.begin
  split
  · rename_i term turn hk
    have hterm : (sys.node k).term = some term := by rw [hk]; rfl
    split_ifs
    · refine h.setNode ?_ (fun _ _ _ _ hheld => hheld) fun term' _ t ht _ => ?_
      · change LeaseRegister.Sound _ _ (Function.update _ k (some term))
        rw [← hterm, Function.update_eq_self]
        exact h.sound
      · cases ht
        exact ⟨sys.world, h.played, hadm, rfl, rfl⟩
    · exact h
  · exact h

theorem Led.leave (h : Led d sys) (k : ι) (released : Bool) : Led d (sys.leave k released) := by
  unfold Fleet.leave
  split
  · rename_i term lost turn hk
    have hterm : (sys.node k).term = some term := by rw [hk]; rfl
    cases released with
    | false => exact h.stop k rfl
    | true =>
      refine h.setNode (h.sound.release hterm) (fun j termj _ _ hheld => ?_)
        fun term' _ t ht _ => by cases ht
      simp only [if_true, LeaseRegister.release] at hheld
      split_ifs at hheld
      · obtain ⟨t, ht, -⟩ := hheld
        cases ht
      · exact hheld
  · exact h

theorem Led.effect (h : Led d sys) {k : ι} (hterm : sys.InTerm k) : Led d (sys.effect d k) := by
  unfold Fleet.effect
  split
  · rename_i term lost turn hk
    obtain ⟨term', hterm', hnow⟩ := hterm
    have hnode : (sys.node k).term = some term := by rw [hk]; rfl
    cases hnode.symm.trans hterm'
    have hheld : sys.register.Holds term.id := h.sound.holds hnode hnow
    have hcurrent := h.turn k term lost turn hk hheld
    split
    · exact h
    · rename_i effect heffect
      have htake := hcurrent.take heffect
      refine ⟨?_, htake.played, fun j termj lostj t hj hheldj => ?_⟩
      · have hsame : (fun j => (Function.update sys.node k
            (.leading term lost (some { turn with taken := turn.taken + 1 })) j).term) =
              fun j => (sys.node j).term := by
          rw [term_update]
          change Function.update (fun j => (sys.node j).term) k (some term) = _
          rw [← hnode, Function.update_eq_self]
        change LeaseRegister.Sound _ _ (fun j => (Function.update sys.node k _ j).term)
        rw [hsame]
        exact h.sound
      · change Function.update sys.node k _ j = _ at hj
        by_cases hjk : j = k
        · subst hjk
          rw [Function.update_self] at hj
          cases hj
          exact htake
        · rw [Function.update_of_ne hjk] at hj
          have hid : termj.id = term.id := by
            obtain ⟨x, hx, hxid⟩ := hheldj
            obtain ⟨y, hy, hyid⟩ := hheld
            change x ∈ sys.register.current at hx
            cases hx.symm.trans hy
            exact hxid.symm.trans hyid
          exact absurd (h.sound.distinct j k termj term (by rw [hj]; rfl) hnode hid) hjk
  · exact h

theorem Led.step (h : Led d sys) {l : Label ι} (hl : Prompt d sys l) : Led d (sys.step d l) := by
  cases l with
  | tick seconds =>
    exact ⟨h.sound.tick seconds, h.played, fun k term lost t hk hheld =>
      h.turn k term lost t hk hheld⟩
  | acquire k request => exact h.acquire k request
  | renew k request => exact h.renew k request
  | begin k env => exact h.begin hl
  | effect k => exact h.effect hl
  | leave k released => exact h.leave k released
  | restart k => exact h.stop k rfl

end Led

theorem fleet_plays_sessions (d : Deployment) {ls : List (Label ι)}
    (hs : Trace.Along (step d) (Prompt d) Fleet.start ls) :
    Trace.Always (step d)
      (fun sys =>
        (∀ j k, sys.InTerm j → sys.InTerm k → j = k) ∧
        (∃ sessions, Trace.Along d.session d.Admissible {} sessions ∧
          sys.world = Trace.run d.session {} sessions) ∧
        (∀ e ∈ sys.world.offered, ¬ After sys.world.durable.cursor (d.fromEvent e) →
          d.Accounted sys.world e) ∧
        (sys.world.written.Pairwise fun later earlier => Advances earlier.cursor later.cursor) ∧
        (sys.register.tick d.leaseSeconds).Free)
      Fleet.start ls := by
  rintro pre post rfl
  have hpre := ((Trace.along_append _ pre post).mp hs).1
  have h : Led d (Trace.run (step d) Fleet.start pre) :=
    Trace.invariant (fun _ _ h hl => h.step hl) Led.start hpre
  refine ⟨?_, h.played, h.played.delivering.accounted, h.played.delivering.monotone,
    h.sound.free_tick⟩
  rintro j k ⟨t, hj, ht⟩ ⟨u, hk, hu⟩
  exact h.sound.exclusive hj hk ht hu

section Example
open Monitor

def demoDeployment : Deployment := { demo with leaseSeconds := 60, leaseSeconds_range := by simp }

def demoBegin (k : Bool) : Label Bool := .begin k (demoEnv fun _ => .successful)

def failover : List (Label Bool) :=
  [.acquire true .served, .acquire false .served, demoBegin true, .effect true, .effect true,
    .effect true, .restart true, .tick 60, .acquire false .served, demoBegin false, .effect false,
    .effect false]

theorem fleet_plays_sessions_failover :
    (Trace.run (step demoDeployment) Fleet.start failover).world.handled.map Call.event =
        [firstIncident, firstIncident] ∧
      (Trace.run (step demoDeployment) Fleet.start failover).world.written.Pairwise
        fun later earlier => Advances earlier.cursor later.cursor := by
  have hprompt :
      Trace.Along (step demoDeployment) (Prompt demoDeployment) Fleet.start failover := by
    refine ⟨trivial, trivial, ⟨fun _ => rfl, by decide +kernel⟩, ?_, ?_, ?_, trivial, trivial,
      trivial, ⟨fun _ => rfl, by decide +kernel⟩, ?_, ?_, trivial⟩
    all_goals
      simp only [Prompt]
      decide +kernel
  refine ⟨by decide +kernel, ?_⟩
  exact (fleet_plays_sessions demoDeployment hprompt failover [] (List.append_nil _).symm).2.2.2.1

-- The lease does not fence the state blob: a leader that stalls past its term and then writes
-- takes the cursor back.
def stalled : List (Label Bool) :=
  [.acquire true .served, demoBegin true, .effect true, .effect true, .effect true, .tick 60,
    .acquire false .served, demoBegin false, .effect false, .effect false, .effect false,
    .effect false, .effect false, .effect false, .effect true]

theorem late_write_goes_back :
    (Trace.run (step demoDeployment) Fleet.start stalled).world.written.map
        (fun state => state.cursor.map Cursor.incidentId) =
      [some "INC-001", some "INC-002", some "INC-001", some "INC-001", none] := by
  decide +kernel

end Example

end Fleet

end IncidentMonitor
