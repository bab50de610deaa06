import NocAgent.RunLedger.Ceiling
import NocAgent.RunLedger.StaysStopped

namespace RunLedger

def RunHash.progress (h : RunHash) : (ℤ × ℤ × ℤ) × Option String × Option String :=
  (h.counters, h.halt, h.haltReason)

-- A stored run that a create_run can answer for without falling back on its own body.
structure RunLedgerService.Joinable (svc : RunLedgerService) (body : RunCreateRequest)
    (h : RunHash) : Prop where
  budget : h.budgetMicros ≠ none
  policySet : h.policySet ≠ none
  named : h.policySet = some "" → orText body.policySet svc.settings.defaultPolicySet = ""

instance (svc : RunLedgerService) (body : RunCreateRequest) (h : RunHash) :
    Decidable (svc.Joinable body h) :=
  decidable_of_iff
    (h.budgetMicros ≠ none ∧ h.policySet ≠ none ∧
      (h.policySet = some "" → orText body.policySet svc.settings.defaultPolicySet = ""))
    ⟨fun ⟨hb, hp, hn⟩ => ⟨hb, hp, hn⟩, fun ⟨hb, hp, hn⟩ => ⟨hb, hp, hn⟩⟩

structure AgreesWith (response : RunCreateResponse) (h : RunHash) : Prop where
  budget : h.budgetMicros = some response.budgetMicros
  policySet : h.policySet = some response.policySet
  tokenBudget : h.budgetMicros = some response.runToken.budgetMicros
  tokenPolicySet : h.policySet = some response.runToken.policySet

instance (response : RunCreateResponse) (h : RunHash) : Decidable (AgreesWith response h) :=
  decidable_of_iff
    (h.budgetMicros = some response.budgetMicros ∧ h.policySet = some response.policySet ∧
      h.budgetMicros = some response.runToken.budgetMicros ∧
        h.policySet = some response.runToken.policySet)
    ⟨fun ⟨hb, hp, htb, htp⟩ => ⟨hb, hp, htb, htp⟩, fun ⟨hb, hp, htb, htp⟩ => ⟨hb, hp, htb, htp⟩⟩

namespace RunLedgerService
variable (svc : RunLedgerService) {body : RunCreateRequest} {h : RunHash}

theorem joinable_freshRun (body : RunCreateRequest) : svc.Joinable body (svc.freshRun body) where
  budget := Option.some_ne_none _
  policySet := Option.some_ne_none _
  named := Option.some.inj

theorem agreesWith_createResponse {current : RunHash} (hj : svc.Joinable body current)
    (hid : h.identity = current.identity) (now : ℕ) :
    AgreesWith (svc.createResponse body current now) h := by
  have hbudget : h.budgetMicros = current.budgetMicros := congrArg Prod.fst hid
  have hpolicy : h.policySet = current.policySet := (List.cons.inj (congrArg Prod.snd hid)).1
  obtain ⟨b, hb⟩ := Option.ne_none_iff_exists'.mp hj.budget
  obtain ⟨p, hp⟩ := Option.ne_none_iff_exists'.mp hj.policySet
  have htext : orText p (orText body.policySet svc.settings.defaultPolicySet) = p := by
    by_cases he : p = ""
    · rw [he, orText, if_pos rfl]
      exact hj.named (he ▸ hp)
    · rw [orText, if_neg he]
  have hb' : h.budgetMicros = some (current.budgetMicros.getD body.budgetMicros) := by
    rw [hbudget, hb, Option.getD_some]
  have hp' : h.policySet = some (orText (current.policySet.getD "")
      (orText body.policySet svc.settings.defaultPolicySet)) := by
    rw [hpolicy, hp, Option.getD_some, htext]
  exact ⟨hb', hp', hb', hp'⟩

end RunLedgerService

namespace Client

def creates : Client → Option String
  | .createRun body _ => some body.runId
  | _ => none

def initialises : Client → Option String
  | .createRun body .initialising => some body.runId
  | _ => none

def Joins (svc : RunLedgerService) (s : Redis) : Client → Prop
  | .createRun body .start => ∀ h ∈ s.run body.runId, svc.Joinable body h
  | .createRun body .initialising => s.run body.runId = none
  | _ => True

instance (svc : RunLedgerService) (s : Redis) : (c : Client) → Decidable (c.Joins svc s)
  | .createRun body .start =>
    inferInstanceAs (Decidable (∀ h ∈ s.run body.runId, svc.Joinable body h))
  | .createRun body .initialising => inferInstanceAs (Decidable (s.run body.runId = none))
  | .createRun _ (.refreshing _) | .createRun _ (.done _) => isTrue trivial
  | .precall _ _ | .postcall _ _ => isTrue trivial

def Agrees (s : Redis) : Client → Prop
  | .createRun body (.done response) => ∃ h ∈ s.run body.runId, AgreesWith response h
  | _ => True

instance (s : Redis) : (c : Client) → Decidable (c.Agrees s)
  | .createRun body (.done response) =>
    inferInstanceAs (Decidable (∃ h ∈ s.run body.runId, AgreesWith response h))
  | .createRun _ .start | .createRun _ .initialising | .createRun _ (.refreshing _) =>
    isTrue trivial
  | .precall _ _ | .postcall _ _ => isTrue trivial

-- Besides what has been answered, what a create_run between its commands is about to answer.
def Joined (svc : RunLedgerService) (s : Redis) : Client → Prop
  | .createRun body (.refreshing current) => svc.Joinable body current ∧
      ∃ h, s.run body.runId = some h ∧ h.identity = current.identity
  | c => c.Agrees s

theorem Joined.agrees {svc : RunLedgerService} {s : Redis} {c : Client} (h : c.Joined svc s) :
    c.Agrees s := by
  cases c with
  | createRun body pc =>
    cases pc with
    | refreshing current => trivial
    | _ => exact h
  | _ => exact h

theorem Joined.extend {svc : RunLedgerService} {s t : Redis} {c : Client} (h : c.Joined svc s)
    (hkept : ∀ R run, s.run R = some run →
      ∃ run', t.run R = some run' ∧ run'.identity = run.identity) : c.Joined svc t := by
  cases c with
  | createRun body pc =>
    cases pc with
    | start => trivial
    | initialising => trivial
    | refreshing current =>
      obtain ⟨hj, run, hrun, hid⟩ := h
      obtain ⟨run', hrun', hid'⟩ := hkept _ run hrun
      exact ⟨hj, run', hrun', hid'.trans hid⟩
    | done response =>
      obtain ⟨run, hrun, ha⟩ := h
      obtain ⟨run', hrun', hid'⟩ := hkept _ run hrun
      have hbudget : run'.budgetMicros = run.budgetMicros := congrArg Prod.fst hid'
      have hpolicy : run'.policySet = run.policySet := (List.cons.inj (congrArg Prod.snd hid')).1
      exact ⟨run', hrun', hbudget.trans ha.budget, hpolicy.trans ha.policySet,
        hbudget.trans ha.tokenBudget, hpolicy.trans ha.tokenPolicySet⟩
  | precall body pc => trivial
  | postcall body pc => trivial

theorem Joined.stepClient {svc : RunLedgerService} {s : Redis} {c : Client} (h : c.Joined svc s)
    (hj : c.Joins svc s) (uuid : String) :
    (svc.stepClient uuid s c).2.Joined svc (svc.stepClient uuid s c).1 := by
  cases c with
  | createRun body pc =>
    cases pc with
    | start =>
      simp only [RunLedgerService.stepClient, RunLedgerService.stepCreate]
      cases hget : s.hgetall (runKey body.runId) with
      | none => trivial
      | some current => exact ⟨hj current hget, current, hget, rfl⟩
    | initialising =>
      refine ⟨svc.joinable_freshRun body, svc.freshRun body, ?_, rfl⟩
      have hnone : s.runs.get (runKey body.runId) = none := hj
      simp only [RunLedgerService.stepClient, RunLedgerService.stepCreate, Redis.run,
        Redis.get_runs_hset, if_true, hnone]
      rfl
    | refreshing current =>
      obtain ⟨hjoin, run, hrun, hid⟩ := h
      refine ⟨run, ?_, svc.agreesWith_createResponse hjoin hid _⟩
      simpa [RunLedgerService.stepClient, RunLedgerService.stepCreate, Redis.run] using hrun
    | done response => exact h
  | precall body pc => trivial
  | postcall body pc => trivial

end Client

namespace System
variable {ι : Type}

def Initialises (R : String) (sys : System ι) (l : ι × String) : Prop :=
  (sys.client l.1).initialises = some R

instance (R : String) (sys : System ι) (l : ι × String) : Decidable (sys.Initialises R l) :=
  inferInstanceAs (Decidable (_ = _))

def Joins (svc : RunLedgerService) (sys : System ι) (l : ι × String) : Prop :=
  (sys.client l.1).Joins svc sys.redis

instance (svc : RunLedgerService) (sys : System ι) (l : ι × String) : Decidable (sys.Joins svc l) :=
  inferInstanceAs (Decidable ((sys.client l.1).Joins svc sys.redis))

structure Settled (svc : RunLedgerService) (sys : System ι) : Prop where
  joined : ∀ k, (sys.client k).Joined svc sys.redis
  committed : ∀ c ∈ sys.commits, sys.redis.run c.body.runId ≠ none

theorem settled_start (svc : RunLedgerService) (redis : Redis) {client : ι → Client}
    (hc : ∀ k, (client k).Starting) : (start redis client).Settled svc where
  joined k := by
    have hk := hc k
    change (client k).Joined svc redis
    generalize client k = c at hk ⊢
    cases hk with
    | createRun body => trivial
    | precall body => trivial
    | postcall body => trivial
  committed _ h := by cases h

variable [DecidableEq ι]

def Resets (svc : RunLedgerService) (sys : System ι) (l : ι × String) : Prop :=
  ∃ R ∈ (sys.client l.1).creates, (∃ c ∈ sys.commits, c.body.runId = R) ∧
    ((sys.step svc l).redis.run R).map RunHash.progress ≠
      (sys.redis.run R).map RunHash.progress

instance (svc : RunLedgerService) (sys : System ι) (l : ι × String) :
    Decidable (sys.Resets svc l) := inferInstanceAs (Decidable (∃ R ∈ _, _))

section Step
variable {svc : RunLedgerService} {sys : System ι} {l : ι × String}

theorem identity_step (hj : sys.Joins svc l) {R : String} {run : RunHash}
    (hrun : sys.redis.run R = some run) :
    ∃ run', (sys.step svc l).redis.run R = some run' ∧ run'.identity = run.identity := by
  have heffect := effect_step svc sys l
  generalize (sys.step svc l).redis = t at heffect ⊢
  unfold Joins at hj
  generalize sys.client l.1 = c at heffect hj
  cases heffect with
  | idle => exact ⟨run, hrun, rfl⟩
  | initialise body =>
    have hne : R ≠ body.runId := by
      rintro rfl
      exact absurd (hj.symm.trans hrun) (by simp)
    exact ⟨run, by simpa [Redis.run, hne] using hrun, rfl⟩
  | refresh body current => exact ⟨run, by simpa [Redis.run] using hrun, rfl⟩
  | commit body current hashes d =>
    rw [svc.run_reserve]
    split_ifs with hR
    · rw [← hR, hrun]
      exact ⟨_, rfl, rfl⟩
    · exact ⟨run, hrun, rfl⟩
  | settle body r =>
    rw [svc.run_settle]
    split_ifs with hR
    · rw [← hR, hrun]
      exact ⟨_, rfl, svc.settledHash_identity ..⟩
    · exact ⟨run, hrun, rfl⟩
  | halt body =>
    rw [RunLedgerService.run_hset_costHalt]
    split_ifs with hR
    · rw [← hR, hrun]
      exact ⟨_, rfl, rfl⟩
    · exact ⟨run, hrun, rfl⟩

theorem run_ne_none_step (hj : sys.Joins svc l) {R : String} (hR : sys.redis.run R ≠ none) :
    (sys.step svc l).redis.run R ≠ none := by
  obtain ⟨run, hrun⟩ := Option.ne_none_iff_exists'.mp hR
  obtain ⟨run', hrun', -⟩ := identity_step hj hrun
  simp [hrun']

theorem committed_step (hc : ∀ c ∈ sys.commits, sys.redis.run c.body.runId ≠ none)
    (hj : sys.Joins svc l) :
    ∀ c ∈ (sys.step svc l).commits, (sys.step svc l).redis.run c.body.runId ≠ none := by
  intro c hm
  rcases List.mem_append.mp hm with hm | hm
  · obtain ⟨hk, -, -, -⟩ := mem_commitOf.mp hm
    simp only [System.step, hk, RunLedgerService.stepClient, RunLedgerService.stepPrecall, if_true,
      svc.run_reserve]
    exact Option.some_ne_none _
  · exact run_ne_none_step hj (hc c hm)

theorem Settled.step (hs : sys.Settled svc) (hj : sys.Joins svc l) : (sys.step svc l).Settled svc where
  joined := forall_step_client (P := fun _ c => c.Joined svc (sys.step svc l).redis)
    ((hs.joined l.1).stepClient hj l.2)
    fun j _ => (hs.joined j).extend fun _ _ hrun => identity_step hj hrun
  committed := committed_step hs.committed hj

theorem Settled.not_resets (hs : sys.Settled svc) (hj : sys.Joins svc l) :
    ¬ sys.Resets svc l := by
  rintro ⟨R, hcreates, ⟨c, hc, rfl⟩, hne⟩
  refine hne ?_
  have heffect := effect_step svc sys l
  unfold Joins at hj
  generalize sys.client l.1 = k at hcreates heffect hj
  generalize (sys.step svc l).redis = t at heffect ⊢
  cases heffect with
  | idle => rfl
  | initialise body =>
    have hR : body.runId = c.body.runId := Option.some.inj hcreates
    have hstored : sys.redis.run body.runId ≠ none := hR ▸ hs.committed c hc
    exact absurd hj hstored
  | refresh => simp [Redis.run]
  | commit => cases hcreates
  | settle => cases hcreates
  | halt => cases hcreates

theorem initialises_once (hj : sys.Joins svc l) {R : String} (hi : sys.Initialises R l) :
    ¬ sys.redis.run R ≠ none ∧ (sys.step svc l).redis.run R ≠ none := by
  unfold Joins at hj
  unfold Initialises at hi
  cases hk : sys.client l.1 with
  | createRun body pc =>
    rw [hk] at hi hj
    cases pc with
    | initialising =>
      cases hi
      refine ⟨not_not.mpr hj, ?_⟩
      simp [System.step, hk, RunLedgerService.stepClient, RunLedgerService.stepCreate, Redis.run]
    | start => cases hi
    | refreshing current => cases hi
    | done response => cases hi
  | precall body pc =>
    rw [hk] at hi
    cases hi
  | postcall body pc =>
    rw [hk] at hi
    cases hi

end Step

end System

structure JoiningSafe {ι : Type} [DecidableEq ι] (svc : RunLedgerService) (sys : System ι)
    (schedule : List (ι × String)) : Prop where
  once : ∀ R, Trace.tally (System.step svc) (System.Initialises R) sys schedule ≤ 1
  keeps : Trace.Along (System.step svc) (fun sys l => ¬ sys.Resets svc l) sys schedule
  agrees : Trace.Always (System.step svc) (fun sys => ∀ k, (sys.client k).Agrees sys.redis) sys
    schedule

theorem RunLedgerService.joining_safe_of_joins {ι : Type} [DecidableEq ι] (svc : RunLedgerService)
    (redis : Redis) {client : ι → Client} (hc : ∀ k, (client k).Starting)
    {schedule : List (ι × String)}
    (hj : Trace.Along (System.step svc) (System.Joins svc) (System.start redis client) schedule) :
    JoiningSafe svc (System.start redis client) schedule := by
  have hall : Trace.Always (System.step svc) (System.Settled svc) (System.start redis client)
      schedule :=
    Trace.always_of_invariant (fun _ _ hs hj => hs.step hj) (System.settled_start svc redis hc) hj
  refine ⟨fun R => ?_, ?_, fun pre post hp k => ((hall pre post hp).joined k).agrees⟩
  · exact (Trace.tally_le_one (A := fun sys : System ι => sys.redis.run R ≠ none)
      (fun _ _ hj hR => System.run_ne_none_step hj hR)
      (fun _ _ hj hi => System.initialises_once hj hi) hj).1
  · rw [Trace.along_iff] at hj ⊢
    exact fun pre l post hls => (hall pre (l :: post) hls).not_resets (hj pre l post hls)

section Example

def joiners : Fin 3 → Client
  | 0 => .createRun demoRun .start
  | 1 => .createRun smallRun .start
  | 2 => .precall demoPrecall .start

theorem joiners_starting (k : Fin 3) : (joiners k).Starting :=
  match k with
  | 0 => .createRun demoRun
  | 1 => .createRun smallRun
  | 2 => .precall demoPrecall

def joinedInTurn : List (Fin 3 × String) :=
  [(0, "u"), (0, "u"), (1, "u"), (2, "u"), (2, "u"), (2, "u"), (2, "u"), (1, "u"), (0, "u")]

theorem joining_safe_in_turn :
    JoiningSafe demoService (System.start .empty joiners) joinedInTurn :=
  demoService.joining_safe_of_joins .empty joiners_starting (by decide +kernel)

def joinedAtOnce : List (Fin 3 × String) :=
  [(0, "u"), (1, "u"), (0, "u"), (0, "u"), (2, "u"), (2, "u"), (2, "u"), (2, "u"), (1, "u")]

theorem racing_creates_reset_run :
    ((Trace.run (System.step demoService) (System.start .empty joiners) joinedAtOnce).redis.run
        "a").map (fun h => (h.budgetMicros, h.inflightMicros, h.concurrent)) =
        some (some 1000, some 0, some 0) ∧
      Trace.tally (System.step demoService) (System.Initialises "a") (System.start .empty joiners)
        joinedAtOnce = 2 ∧
      ¬ Trace.Along (System.step demoService) (fun sys l => ¬ sys.Resets demoService l)
        (System.start .empty joiners) joinedAtOnce ∧
      ¬ Trace.Always (System.step demoService)
        (fun sys => ∀ k, (sys.client k).Agrees sys.redis) (System.start .empty joiners)
        joinedAtOnce := by
  have hdisagrees : ¬ ∀ k, ((Trace.run (System.step demoService) (System.start .empty joiners)
      joinedAtOnce).client k).Agrees (Trace.run (System.step demoService)
        (System.start .empty joiners) joinedAtOnce).redis := by decide +kernel
  refine ⟨by decide +kernel, by decide +kernel, by decide +kernel, fun h => hdisagrees ?_⟩
  exact h joinedAtOnce [] (List.append_nil _).symm

end Example

end RunLedger
