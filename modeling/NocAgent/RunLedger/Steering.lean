import NocAgent.Library.Trace
import NocAgent.RunLedger.Expiry

namespace RunLedger

section Decided
variable {run : RunState} {prices : Prices} {est : ℕ} {maxOut : Option ℕ} {promptHash : String}
  {pol : Policies} {d : Decision}

theorem costGuardModel_of_steers (h : steers run pol) :
    costGuardModel run pol = some pol.cheapModel := if_pos h

theorem costGuardModel_of_not_steers (h : ¬ steers run pol) : costGuardModel run pol = none :=
  if_neg h

theorem granted_modelOverride (prices : Prices) (est : ℕ) (maxOut : Option ℕ) (cap : ℕ) :
    (granted prices est maxOut (costGuardModel run pol) (costGuardInject run pol)
      cap).modelOverride = costGuardModel run pol := by
  by_cases hs : steers run pol
  · simp [granted, costGuardInject, hs, truthy]
  · simp only [granted, costGuardModel, costGuardInject, if_neg hs]
    split_ifs <;> rfl

theorem preCallWorstCase_modelOverride {cap : ℕ}
    (h : preCallWorstCase run prices est maxOut (costGuardModel run pol) (costGuardInject run pol)
      cap = .ok d) (ha : d.action.admits = true) : d.modelOverride = costGuardModel run pol := by
  unfold preCallWorstCase at h
  split_ifs at h
  · cases h
    cases ha
  · cases h
    exact granted_modelOverride ..
  · cases h
    exact granted_modelOverride ..

theorem decide_modelOverride (h : decide run prices est maxOut promptHash pol = .ok d)
    (ha : d.action.admits = true) :
    guardFires run promptHash pol ∧ d.modelOverride = none ∧ d.inject ≠ none ∨
      ¬ repeats run promptHash pol ∧ d.modelOverride = costGuardModel run pol := by
  have hproceeds := (decide_admitted h ha).1
  obtain ⟨hhalt, hspend, hsteps⟩ := hproceeds
  rw [decide, if_neg (by simp [hhalt]), if_neg hspend.not_ge, if_neg hsteps.not_ge] at h
  split_ifs at h with hrep hconc
  · cases h
    exact .inl ⟨⟨⟨hhalt, hspend, hsteps⟩, hrep⟩, rfl, by simp⟩
  · cases h
    cases ha
  · exact .inr ⟨hrep, preCallWorstCase_modelOverride h ha⟩

end Decided

namespace RunLedgerService
variable (svc : RunLedgerService)

@[simp] theorem settledHash_steered (body : PostcallRequest) (r : Reservation) (h : RunHash) :
    (svc.settledHash body r h).steered = h.steered := by
  unfold settledHash
  split_ifs <;> rfl

@[simp] theorem closedHash_steered (h : RunHash) : (closedHash h).steered = h.steered := by
  unfold closedHash
  split_ifs <;> rfl

end RunLedgerService

structure AdmittedCall where
  body : PrecallRequest
  run : RunState
  response : PrecallResponse
deriving DecidableEq, Repr

-- The store and the precalls it has admitted, newest first, each with the run it was decided on.
structure Steering where
  redis : Redis
  admitted : List AdmittedCall

namespace AdmittedCall

def Overrides (runId : String) (a : AdmittedCall) : Prop :=
  a.body.runId = runId ∧ a.response.modelOverride ≠ none

instance (runId : String) (a : AdmittedCall) : Decidable (a.Overrides runId) :=
  inferInstanceAs (Decidable (_ ∧ _))

def AtThreshold (pol : Policies) (runId : String) (a : AdmittedCall) : Prop :=
  a.body.runId = runId ∧ ¬ repeats a.run a.body.promptHash pol ∧
    a.run.budgetMicros * pol.guardThreshold ≤ a.run.spendMicros

end AdmittedCall

namespace Steering

def init : Steering := ⟨.empty, []⟩

def call (svc : RunLedgerService) (s : Steering) (body : PrecallRequest) (uuid : String)
    (current : RunHash) (d : Decision) : AdmittedCall where
  body := body
  run := mapRun current (svc.promptHashes s.redis body.runId) body.step
  response := RunLedgerService.precallResponse d (some uuid)

def record (svc : RunLedgerService) (s : Steering) : Op → List AdmittedCall
  | .precall body uuid =>
    match svc.admission body s.redis with
    | none => s.admitted
    | some (current, d) => s.call svc body uuid current d :: s.admitted
  | _ => s.admitted

def step (svc : RunLedgerService) (s : Steering) (op : Op) : Steering :=
  ⟨svc.apply s.redis op, s.record svc op⟩

def flag (s : Steering) (runId : String) : Option String := (s.redis.run runId).bind (·.steered)

def IsFlag (flag : Option String) : Prop := flag = none ∨ flag = some "0" ∨ flag = some "1"

def Clean (svc : RunLedgerService) (runId : String) (s : Steering) : Prop :=
  IsFlag (s.flag runId) ∧
    ∀ a ∈ s.admitted, a.Overrides runId → a.AtThreshold svc.settings.policies runId

structure SteersOnce (svc : RunLedgerService) (runId : String) (s : Steering) : Prop where
  flag : s.flag runId = some "1" ↔ ∃ a ∈ s.admitted, a.Overrides runId
  once : s.admitted.countP (fun a => a.Overrides runId) ≤ 1
  first : ∀ later a earlier, s.admitted = later ++ a :: earlier →
    a.AtThreshold svc.settings.policies runId →
    (∀ b ∈ earlier, ¬ b.AtThreshold svc.settings.policies runId) →
    a.response.modelOverride = some svc.settings.policies.cheapModel

def RunStays (runId : String) (s : Steering) : Op → Prop
  | .tick seconds => (s.redis.tick seconds).run runId = s.redis.run runId
  | _ => True

def GuardSpares (svc : RunLedgerService) (runId : String) (s : Steering) : Op → Prop
  | .precall body _ => body.runId = runId → ∀ current, s.redis.run runId = some current →
      guardFires (mapRun current (svc.promptHashes s.redis runId) body.step) body.promptHash
        svc.settings.policies →
      ¬ steers (mapRun current (svc.promptHashes s.redis runId) body.step) svc.settings.policies
  | _ => True

section Step
variable {svc : RunLedgerService} {runId : String} {s : Steering}

theorem toBool_flag {flag : Option String} (h : IsFlag flag) :
    toBool flag = true ↔ flag = some "1" := by
  rcases h with rfl | rfl | rfl <;> decide +kernel

theorem Clean.steered_iff (hc : s.Clean svc runId) {current : RunHash}
    (hrun : s.redis.run runId = some current) (hashes : List String) (step : String) :
    (mapRun current hashes step).steered = true ↔ s.flag runId = some "1" := by
  have hflag : s.flag runId = current.steered := by rw [Steering.flag, hrun, Option.bind_some]
  rw [← toBool_flag hc.1, hflag, mapRun]

theorem init_clean : Steering.init.Clean svc runId := ⟨.inl rfl, fun _ h => by cases h⟩

theorem init_steersOnce : SteersOnce svc runId Steering.init where
  flag := by
    have hnone : Steering.init.flag runId = none := rfl
    have hnil : Steering.init.admitted = [] := rfl
    simp [hnone, hnil]
  once := Nat.zero_le 1
  first later a earlier h := by simp [init] at h

theorem SteersOnce.same (h : SteersOnce svc runId s) {s' : Steering}
    (hflag : s'.flag runId = some "1" ↔ s.flag runId = some "1") (hadm : s'.admitted = s.admitted) :
    SteersOnce svc runId s' where
  flag := by rw [hflag, hadm, h.flag]
  once := hadm ▸ h.once
  first := hadm ▸ h.first

theorem flag_of_run {s' : Steering} (h : s'.redis.run runId = s.redis.run runId) :
    s'.flag runId = s.flag runId := congrArg (·.bind (·.steered)) h

theorem flag_createRun (svc : RunLedgerService) (body : RunCreateRequest) (s : Steering) :
    (s.step svc (.createRun body)).flag runId = some "1" ↔ s.flag runId = some "1" := by
  change ((svc.createRun body s.redis).1.run runId).bind _ = _ ↔ (s.redis.run runId).bind _ = _
  rw [svc.run_createRun]
  split_ifs with hR
  · subst hR
    cases s.redis.run body.runId with
    | none => simp [RunLedgerService.freshRun]
    | some current => rfl
  · rfl

theorem flag_postcall (svc : RunLedgerService) (body : PostcallRequest) (s : Steering) :
    (s.step svc (.postcall body)).flag runId = s.flag runId := by
  cases hr : s.redis.resv body.reservationId with
  | none => exact flag_of_run (by rw [step, RunLedgerService.apply, svc.postcall_of_resv_none hr])
  | some r =>
    change ((svc.postcall body s.redis).run runId).bind _ = (s.redis.run runId).bind _
    rw [svc.run_postcall hr]
    split_ifs with hR
    · subst hR
      rw [Option.bind_some, RunLedgerService.closedHash_steered,
        RunLedgerService.settledHash_steered]
      cases s.redis.run body.runId with
      | none => rfl
      | some current => rfl
    · rfl

theorem admitted_precall_none {body : PrecallRequest} (ha : svc.admission body s.redis = none)
    (uuid : String) : (s.step svc (.precall body uuid)).admitted = s.admitted := by
  simp only [step, record, ha]

theorem admitted_precall_some {body : PrecallRequest} {current : RunHash} {d : Decision}
    (ha : svc.admission body s.redis = some (current, d)) (uuid : String) :
    (s.step svc (.precall body uuid)).admitted =
      s.call svc body uuid current d :: s.admitted := by
  simp only [step, record, ha]

theorem flag_precall {body : PrecallRequest} {current : RunHash} {d : Decision}
    (ha : svc.admission body s.redis = some (current, d)) (uuid : String) :
    (s.step svc (.precall body uuid)).flag body.runId = some "1" ↔
      steers (mapRun current (svc.promptHashes s.redis body.runId) body.step)
          svc.settings.policies ∨ s.flag body.runId = some "1" := by
  obtain ⟨hrun, hd, hadm⟩ := svc.admission_eq_some.mp ha
  have hflag : (s.step svc (.precall body uuid)).flag body.runId =
      some (svc.nextSteered current (mapRun current (svc.promptHashes s.redis body.runId) body.step)
        d) := by
    rw [Steering.flag, step, RunLedgerService.apply, svc.precall_some ha, svc.run_reserve,
      if_pos rfl]
    rfl
  have hold : s.flag body.runId = current.steered := by
    rw [Steering.flag, hrun, Option.bind_some]
  rw [hflag, hold, Option.some.injEq, RunLedgerService.nextSteered]
  by_cases hs : steers (mapRun current (svc.promptHashes s.redis body.runId) body.step)
      svc.settings.policies
  · have hacts : d.modelOverride ≠ none ∨ d.inject ≠ none := by
      rcases decide_modelOverride hd hadm with ⟨-, -, hinject⟩ | ⟨-, hmodel⟩
      · exact .inr hinject
      · exact .inl (by rw [hmodel, costGuardModel_of_steers hs]; exact Option.some_ne_none _)
    rw [if_pos ⟨hs, hacts⟩]
    exact iff_of_true rfl (.inl hs)
  · rw [if_neg fun h => hs h.1, or_iff_right hs]
    cases current.steered with
    | none => simp
    | some flag => simp

theorem SteersOnce.cons (h : SteersOnce svc runId s) {s' : Steering} {a : AdmittedCall}
    (hadm : s'.admitted = a :: s.admitted)
    (hflag : s'.flag runId = some "1" ↔ a.Overrides runId ∨ s.flag runId = some "1")
    (hnew : a.Overrides runId → s.flag runId ≠ some "1")
    (hfirst : a.AtThreshold svc.settings.policies runId →
      (∀ b ∈ s.admitted, ¬ b.AtThreshold svc.settings.policies runId) →
      a.response.modelOverride = some svc.settings.policies.cheapModel) :
    SteersOnce svc runId s' where
  flag := by rw [hflag, h.flag, hadm, List.exists_mem_cons_iff]
  once := by
    rw [hadm, List.countP_cons]
    by_cases ha : a.Overrides runId
    · have hzero : s.admitted.countP (fun a => a.Overrides runId) = 0 := by
        refine List.countP_eq_zero.mpr fun b hb => ?_
        simpa using fun hover => hnew ha (h.flag.mpr ⟨b, hb, hover⟩)
      simp [hzero, ha]
    · simpa [ha] using h.once
  first later b earlier hsplit hb hnone := by
    rw [hadm] at hsplit
    cases later with
    | nil =>
      obtain ⟨rfl, rfl⟩ := List.cons.inj hsplit
      exact hfirst hb hnone
    | cons c later => exact h.first later b earlier (List.cons.inj hsplit).2 hb hnone

theorem Clean.not_steers_of_flag (hc : s.Clean svc runId) (hflag : s.flag runId = some "1")
    {current : RunHash} (hrun : s.redis.run runId = some current) (hashes : List String)
    (step : String) : ¬ steers (mapRun current hashes step) svc.settings.policies := by
  intro hs
  have htrue := (hc.steered_iff hrun hashes step).mpr hflag
  rw [hs.1] at htrue
  cases htrue

theorem SteersOnce.ordinary (h : SteersOnce svc runId s) (hc : s.Clean svc runId)
    {body : PrecallRequest} {current : RunHash} {d : Decision} (hR : body.runId = runId)
    (ha : svc.admission body s.redis = some (current, d)) (uuid : String)
    (hmodel : d.modelOverride =
      costGuardModel (mapRun current (svc.promptHashes s.redis body.runId) body.step)
        svc.settings.policies) :
    SteersOnce svc runId (s.step svc (.precall body uuid)) := by
  subst hR
  obtain ⟨hrun, -, -⟩ := svc.admission_eq_some.mp ha
  have hover : (s.call svc body uuid current d).Overrides body.runId ↔
      steers (mapRun current (svc.promptHashes s.redis body.runId) body.step)
        svc.settings.policies := by
    change body.runId = body.runId ∧ d.modelOverride ≠ none ↔ _
    rw [hmodel, costGuardModel]
    split_ifs with hs
    · simpa using hs
    · simpa using hs
  refine h.cons (admitted_precall_some ha uuid) ?_ (fun hnew hflag => ?_) fun hdue hnone => ?_
  · rw [flag_precall ha, hover]
  · exact hc.not_steers_of_flag hflag hrun _ _ (hover.mp hnew)
  · change d.modelOverride = _
    by_cases hs : steers (mapRun current (svc.promptHashes s.redis body.runId) body.step)
        svc.settings.policies
    · rw [hmodel, costGuardModel_of_steers hs]
    · have htrue : (mapRun current (svc.promptHashes s.redis body.runId) body.step).steered =
          true := by
        by_contra hfalse
        exact hs ⟨by simpa using hfalse, hdue.2.2⟩
      obtain ⟨b, hb, hsteered⟩ := h.flag.mp ((hc.steered_iff hrun _ _).mp htrue)
      exact absurd (hc.2 b hb hsteered) (hnone b hb)

theorem SteersOnce.guarded_iff (h : SteersOnce svc runId s) (hc : s.Clean svc runId)
    {body : PrecallRequest} {current : RunHash} {d : Decision} (hR : body.runId = runId)
    (ha : svc.admission body s.redis = some (current, d)) (uuid : String)
    (hrep : repeats (mapRun current (svc.promptHashes s.redis body.runId) body.step)
      body.promptHash svc.settings.policies) (hmodel : d.modelOverride = none) :
    SteersOnce svc runId (s.step svc (.precall body uuid)) ↔
      ¬ steers (mapRun current (svc.promptHashes s.redis body.runId) body.step)
        svc.settings.policies := by
  subst hR
  obtain ⟨hrun, -, -⟩ := svc.admission_eq_some.mp ha
  have hover : ¬ (s.call svc body uuid current d).Overrides body.runId := fun h => h.2 hmodel
  constructor
  · intro h' hs
    have hup := (flag_precall ha uuid).mpr (.inl hs)
    rw [h'.flag, admitted_precall_some ha, List.exists_mem_cons_iff, or_iff_right hover,
      ← h.flag] at hup
    exact hc.not_steers_of_flag hup hrun _ _ hs
  · intro hs
    refine h.cons (admitted_precall_some ha uuid) ?_ (fun hnew => absurd hnew hover)
      fun hdue => absurd hrep hdue.2.1
    rw [flag_precall ha, or_iff_right hs, or_iff_right hover]

theorem SteersOnce.other (h : SteersOnce svc runId s) {body : PrecallRequest} {current : RunHash}
    {d : Decision} (hR : body.runId ≠ runId)
    (ha : svc.admission body s.redis = some (current, d)) (uuid : String) :
    SteersOnce svc runId (s.step svc (.precall body uuid)) := by
  have hflag : (s.step svc (.precall body uuid)).flag runId = s.flag runId := by
    refine flag_of_run ?_
    rw [step, RunLedgerService.apply, svc.precall_some ha, svc.run_reserve, if_neg hR.symm]
  refine h.cons (admitted_precall_some ha uuid) ?_ (fun hover => absurd hover.1 hR)
    fun hdue => absurd hdue.1 hR
  rw [hflag, or_iff_right fun hover => hR hover.1]

theorem steersOnce_precall_iff (hc : s.Clean svc runId) (h : SteersOnce svc runId s)
    (body : PrecallRequest) (uuid : String) :
    SteersOnce svc runId (s.step svc (.precall body uuid)) ↔
      GuardSpares svc runId s (.precall body uuid) := by
  cases ha : svc.admission body s.redis with
  | none =>
    have hredis : (s.step svc (.precall body uuid)).redis = s.redis := svc.precall_none ha uuid
    refine iff_of_true (h.same (by rw [flag_of_run (congrArg (·.run runId) hredis)])
      (admitted_precall_none ha uuid)) ?_
    rintro rfl current hrun hguard
    obtain ⟨d, hd, hadm, -⟩ := decide_of_guardFires hguard (svc.settings.pricesFor body.model)
      body.estInputTokens body.maxOutputTokens
    rw [svc.admission_eq_some.mpr ⟨hrun, hd, hadm⟩] at ha
    cases ha
  | some p =>
    obtain ⟨current, d⟩ := p
    obtain ⟨hrun, hd, hadm⟩ := svc.admission_eq_some.mp ha
    by_cases hR : body.runId = runId
    · have hspares : GuardSpares svc runId s (.precall body uuid) ↔
          (guardFires (mapRun current (svc.promptHashes s.redis body.runId) body.step)
              body.promptHash svc.settings.policies →
            ¬ steers (mapRun current (svc.promptHashes s.redis body.runId) body.step)
              svc.settings.policies) := by
        subst hR
        simp only [GuardSpares, hrun, Option.some.injEq, forall_eq', true_implies]
      rw [hspares]
      rcases decide_modelOverride hd hadm with ⟨hguard, hmodel, -⟩ | ⟨hrep, hmodel⟩
      · rw [h.guarded_iff hc hR ha uuid hguard.2 hmodel]
        exact ⟨fun hs _ => hs, fun hs => hs hguard⟩
      · exact iff_of_true (h.ordinary hc hR ha uuid hmodel) fun hguard => absurd hguard.2 hrep
    · exact iff_of_true (h.other hR ha uuid) fun hself => absurd hself hR

theorem steersOnce_step_iff (hc : s.Clean svc runId) (h : SteersOnce svc runId s) {op : Op}
    (hs : s.RunStays runId op) :
    SteersOnce svc runId (s.step svc op) ↔ GuardSpares svc runId s op := by
  cases op with
  | createRun body => exact iff_of_true (h.same (flag_createRun svc body s) rfl) trivial
  | precall body uuid => exact steersOnce_precall_iff hc h body uuid
  | postcall body => exact iff_of_true (h.same (by rw [flag_postcall]) rfl) trivial
  | tick seconds =>
    have hrun : (s.step svc (.tick seconds)).redis.run runId = s.redis.run runId := hs
    exact iff_of_true (h.same (by rw [flag_of_run hrun]) rfl) trivial

theorem isFlag_nextSteered (svc : RunLedgerService) {current : RunHash}
    (h : IsFlag current.steered) (run : RunState) (d : Decision) :
    IsFlag (some (svc.nextSteered current run d)) := by
  unfold RunLedgerService.nextSteered
  split_ifs
  · exact .inr (.inr rfl)
  · rcases h with h | h | h
    · exact .inr (.inl (by rw [h]; rfl))
    · exact .inr (.inl (by rw [h]; rfl))
    · exact .inr (.inr (by rw [h]; rfl))

theorem Clean.flag_step (hc : s.Clean svc runId) {op : Op} (hs : s.RunStays runId op) :
    IsFlag ((s.step svc op).flag runId) := by
  cases op with
  | createRun body =>
    change IsFlag (((svc.createRun body s.redis).1.run runId).bind (·.steered))
    rw [svc.run_createRun]
    split_ifs with hR
    · subst hR
      cases hrun : s.redis.run body.runId with
      | none => exact .inr (.inl rfl)
      | some current =>
        have hold := hc.1
        rw [Steering.flag, hrun] at hold
        exact hold
    · exact hc.1
  | precall body uuid =>
    cases ha : svc.admission body s.redis with
    | none =>
      rw [flag_of_run (congrArg (·.run runId) (svc.precall_none ha uuid))]
      exact hc.1
    | some p =>
      obtain ⟨current, d⟩ := p
      change IsFlag (((svc.precall body uuid s.redis).1.run runId).bind (·.steered))
      rw [svc.precall_some ha, svc.run_reserve]
      split_ifs with hR
      · subst hR
        have hold := hc.1
        rw [Steering.flag, (svc.admission_eq_some.mp ha).1] at hold
        exact isFlag_nextSteered svc hold _ d
      · exact hc.1
  | postcall body =>
    rw [flag_postcall]
    exact hc.1
  | tick seconds =>
    have hrun : (s.step svc (.tick seconds)).redis.run runId = s.redis.run runId := hs
    rw [flag_of_run hrun]
    exact hc.1

theorem atThreshold_of_overrides {body : PrecallRequest} {current : RunHash} {d : Decision}
    (ha : svc.admission body s.redis = some (current, d)) {uuid : String}
    (h : (s.call svc body uuid current d).Overrides runId) :
    (s.call svc body uuid current d).AtThreshold svc.settings.policies runId := by
  obtain ⟨-, hd, hadm⟩ := svc.admission_eq_some.mp ha
  have hover : d.modelOverride ≠ none := h.2
  rcases decide_modelOverride hd hadm with ⟨-, hmodel, -⟩ | ⟨hrep, hmodel⟩
  · exact absurd hmodel hover
  · refine ⟨h.1, hrep, ?_⟩
    by_contra hbelow
    exact hover (hmodel.trans (costGuardModel_of_not_steers fun hs => hbelow hs.2))

theorem Clean.step (hc : s.Clean svc runId) {op : Op} (hs : s.RunStays runId op) :
    (s.step svc op).Clean svc runId := by
  refine ⟨hc.flag_step hs, ?_⟩
  cases op with
  | precall body uuid =>
    cases ha : svc.admission body s.redis with
    | none =>
      rw [admitted_precall_none ha]
      exact hc.2
    | some p =>
      obtain ⟨current, d⟩ := p
      rw [admitted_precall_some ha]
      exact List.forall_mem_cons.mpr ⟨atThreshold_of_overrides ha, hc.2⟩
  | _ => exact hc.2

end Step

theorem steers_once_iff_guard_spares (svc : RunLedgerService) (runId : String) {ops : List Op}
    (hs : Trace.Along (step svc) (RunStays runId) init ops) :
    Trace.Always (step svc) (SteersOnce svc runId) init ops ↔
      Trace.Along (step svc) (GuardSpares svc runId) init ops :=
  Trace.always_iff_along (J := Clean svc runId) (fun _ _ hc hs => hc.step hs)
    (fun _ _ hc h hs => steersOnce_step_iff hc h hs) init_clean init_steersOnce hs

section Example

theorem steers_once_iff_guard_spares_settled :
    Trace.Always (step demoService) (SteersOnce demoService "a") init
        [.createRun demoRun, .precall demoPrecall "u", .postcall demoPostcall] ↔
      Trace.Along (step demoService) (GuardSpares demoService "a") init
        [.createRun demoRun, .precall demoPrecall "u", .postcall demoPostcall] :=
  steers_once_iff_guard_spares demoService "a" ⟨trivial, trivial, trivial, trivial⟩

def dueCalls : List Op :=
  [.createRun demoRun, .precall demoPrecall "u1", .precall demoPrecall "u2",
    .precall demoPrecall "u3",
    .postcall { demoPostcall with reservationId := "u1", inputTokens := 400000 },
    .precall demoPrecall "u4", .precall { demoPrecall with promptHash := "q" } "u5"]

theorem guard_spends_the_flag :
    (Trace.run (step demoService) init dueCalls).flag "a" = some "1" ∧
      (∀ a ∈ (Trace.run (step demoService) init dueCalls).admitted,
        a.response.modelOverride = none) ∧
      (Trace.run (step demoService) init dueCalls).admitted.map (·.run.spendMicros) =
        [400100, 400100, 0, 0, 0] ∧
      ¬ Trace.Always (step demoService) (SteersOnce demoService "a") init dueCalls := by
  have hflag : (Trace.run (step demoService) init dueCalls).flag "a" = some "1" := by
    decide +kernel
  have hnone : ∀ a ∈ (Trace.run (step demoService) init dueCalls).admitted,
      a.response.modelOverride = none := by decide +kernel
  refine ⟨hflag, hnone, by decide +kernel, fun h => ?_⟩
  obtain ⟨a, ha, -, hover⟩ := (h dueCalls [] (List.append_nil _).symm).flag.mp hflag
  exact hover (hnone a ha)

end Example

end Steering

end RunLedger
