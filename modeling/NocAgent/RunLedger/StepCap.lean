import NocAgent.RunLedger.Steering

namespace RunLedger

section Capped
variable {run : RunState} {prices : Prices} {est : ℕ} {maxOut : Option ℕ} {promptHash : String}
  {pol : Policies} {d : Decision}

-- The run with no step taken, so that the step cap is not what stops it.
def RunState.uncapped (run : RunState) : RunState := { run with steps := 0 }

def stepCapHalt : Decision := { action := .halt, haltReason := some "step_cap" }

theorem decide_below_cap (hcap : 0 < pol.maxSteps) (hsteps : run.steps < pol.maxSteps) :
    decide run prices est maxOut promptHash pol =
      decide run.uncapped prices est maxOut promptHash pol := by
  have huncapped : ¬ pol.maxSteps ≤ run.uncapped.steps := not_le.mpr hcap
  rw [decide, decide, if_neg (not_le.mpr hsteps), if_neg huncapped]
  rfl

theorem decide_at_cap (hd : decide run.uncapped prices est maxOut promptHash pol = .ok d)
    (ha : d.action.admits = true) (hsteps : pol.maxSteps ≤ run.steps) :
    decide run prices est maxOut promptHash pol = .ok stepCapHalt := by
  obtain ⟨⟨hhalt, hspend, -⟩, -⟩ := decide_admitted hd ha
  have hhalted : ¬ truthy run.haltedReason = true := by
    rw [Bool.not_eq_true]
    exact hhalt
  have hspends : ¬ run.budgetMicros ≤ run.spendMicros + run.inflightMicros := not_le.mpr hspend
  rw [decide, if_neg hhalted, if_neg hspends, if_pos hsteps]
  rfl

end Capped

def Redis.storedSteps (s : Redis) (runId : String) : ℤ := toInt ((s.run runId).bind (·.steps))

structure SequentialCall where
  wait : ℕ
  body : PrecallRequest
  uuid : String
  report : PostcallRequest

abbrev Answer := Except PyError PrecallResponse

def Answer.admits : Answer → Bool
  | .ok response => response.action.admits
  | .error _ => false

def Answer.HaltedByCap (answer : Answer) : Prop :=
  answer = .ok (RunLedgerService.precallResponse stepCapHalt none)

namespace RunLedgerService
variable (svc : RunLedgerService)

def makeCall (s : Redis) (c : SequentialCall) : Redis × Answer :=
  let called := svc.precall c.body c.uuid (s.tick c.wait)
  (if Answer.admits called.2 then svc.postcall c.report called.1 else called.1, called.2)

def makeCalls (s : Redis) : List SequentialCall → List Answer
  | [] => []
  | c :: cs => (svc.makeCall s c).2 :: makeCalls (svc.makeCall s c).1 cs

def otherwiseAdmitted (s : Redis) (body : PrecallRequest) : Bool :=
  match s.run body.runId with
  | none => false
  | some current =>
    match decide (mapRun current (svc.promptHashes s body.runId) body.step).uncapped
        (svc.settings.pricesFor body.model) body.estInputTokens body.maxOutputTokens
        body.promptHash svc.settings.policies with
    | .error _ => false
    | .ok decision => decision.action.admits

def WithinBudget (s : Redis) (c : SequentialCall) : Prop :=
  svc.otherwiseAdmitted (s.tick c.wait) c.body = true

instance (s : Redis) (c : SequentialCall) : Decidable (svc.WithinBudget s c) :=
  inferInstanceAs (Decidable (_ = true))

end RunLedgerService

def Numbered (runId : String) : ℕ → List SequentialCall → Prop
  | _, [] => True
  | k, c :: cs => (c.body.runId = runId ∧ stepValue c.body.step = k) ∧ Numbered runId (k + 1) cs

instance (runId : String) : (k : ℕ) → (calls : List SequentialCall) →
    Decidable (Numbered runId k calls)
  | _, [] => isTrue trivial
  | k, _ :: cs =>
    @instDecidableAnd _ (Numbered runId (k + 1) cs) _ (instDecidableNumbered runId _ cs)

structure AdmitsFirst (maxSteps : ℤ) (answers : List Answer) : Prop where
  count : (answers.countP Answer.admits : ℤ) = min (answers.length : ℤ) maxSteps
  rest : ∀ answer ∈ answers, Answer.admits answer = false → answer.HaltedByCap

section Stored
variable {svc : RunLedgerService} {s : Redis} {runId : String}

theorem storedSteps_of_run {current : RunHash} (h : s.run runId = some current) :
    s.storedSteps runId = toInt current.steps := by
  rw [Redis.storedSteps, h, Option.bind_some]

theorem storedSteps_tick {seconds : ℕ} (h : (s.tick seconds).run runId ≠ none) :
    (s.tick seconds).storedSteps runId = s.storedSteps runId := by
  rw [Redis.storedSteps, Redis.storedSteps]
  rcases s.runs.get_purge _ (runKey runId) with hkept | hgone
  · exact congrArg (fun run : Option RunHash => toInt (run.bind (·.steps))) hkept
  · exact absurd hgone h

theorem steps_closed (body : PostcallRequest) (r : Reservation) (h : RunHash) :
    (RunLedgerService.closedHash (svc.settledHash body r h)).steps = h.steps := by
  rw [RunLedgerService.closedHash, RunLedgerService.settledHash]
  split_ifs <;> rfl

theorem storedSteps_postcall (body : PostcallRequest) :
    (svc.postcall body s).storedSteps runId = s.storedSteps runId := by
  cases hr : s.resv body.reservationId with
  | none => rw [svc.postcall_of_resv_none hr]
  | some r =>
    rw [Redis.storedSteps, Redis.storedSteps, svc.run_postcall hr]
    split_ifs with hR
    · rw [Option.bind_some, steps_closed, hR]
      cases s.run body.runId <;> rfl
    · rfl

theorem storedSteps_precall {body : PrecallRequest} {current : RunHash} {d : Decision}
    (ha : svc.admission body s = some (current, d)) (uuid : String) :
    (svc.precall body uuid s).1.storedSteps body.runId =
      max (s.storedSteps body.runId) (stepValue body.step) := by
  obtain ⟨hrun, -, -⟩ := svc.admission_eq_some.mp ha
  rw [svc.precall_some ha, Redis.storedSteps, svc.run_reserve, if_pos rfl, storedSteps_of_run hrun]
  rfl

end Stored

section Sequential
variable {svc : RunLedgerService} {s : Redis} {c : SequentialCall}

theorem otherwiseAdmitted_iff {body : PrecallRequest} :
    svc.otherwiseAdmitted s body = true ↔
      ∃ current d, s.run body.runId = some current ∧
        decide (mapRun current (svc.promptHashes s body.runId) body.step).uncapped
          (svc.settings.pricesFor body.model) body.estInputTokens body.maxOutputTokens
          body.promptHash svc.settings.policies = .ok d ∧ d.action.admits = true := by
  rw [RunLedgerService.otherwiseAdmitted]
  cases hrun : s.run body.runId with
  | none => simp
  | some current =>
    simp only [Option.some.injEq, exists_eq_left', exists_and_left]
    split
    · rename_i e hd
      simp [hd]
    · rename_i d hd
      simp [hd]

theorem makeCall_below (hcap : 0 < svc.settings.policies.maxSteps) (hbudget : svc.WithinBudget s c)
    (hsteps : max (s.storedSteps c.body.runId) (stepValue c.body.step) <
      svc.settings.policies.maxSteps) :
    Answer.admits (svc.makeCall s c).2 = true ∧
      (svc.makeCall s c).1.storedSteps c.body.runId =
        max (s.storedSteps c.body.runId) (stepValue c.body.step) := by
  obtain ⟨current, d, hrun, hd, hadm⟩ := otherwiseAdmitted_iff.mp hbudget
  have hstored : (s.tick c.wait).storedSteps c.body.runId = s.storedSteps c.body.runId :=
    storedSteps_tick (by rw [hrun]; exact Option.some_ne_none _)
  have hbelow : (mapRun current (svc.promptHashes (s.tick c.wait) c.body.runId)
      c.body.step).steps < svc.settings.policies.maxSteps := by
    rw [← hstored, storedSteps_of_run hrun] at hsteps
    exact hsteps
  have ha : svc.admission c.body (s.tick c.wait) = some (current, d) :=
    svc.admission_eq_some.mpr ⟨hrun, (decide_below_cap hcap hbelow).trans hd, hadm⟩
  have hanswer : Answer.admits (svc.precall c.body c.uuid (s.tick c.wait)).2 = true := by
    rw [svc.precall_some ha]
    exact hadm
  refine ⟨hanswer, ?_⟩
  rw [RunLedgerService.makeCall]
  dsimp only
  rw [if_pos hanswer, storedSteps_postcall, storedSteps_precall ha, hstored]

theorem makeCall_at_cap (hbudget : svc.WithinBudget s c)
    (hsteps : svc.settings.policies.maxSteps ≤
      max (s.storedSteps c.body.runId) (stepValue c.body.step)) :
    (svc.makeCall s c).2.HaltedByCap ∧
      (svc.makeCall s c).1.storedSteps c.body.runId = s.storedSteps c.body.runId := by
  obtain ⟨current, d, hrun, hd, hadm⟩ := otherwiseAdmitted_iff.mp hbudget
  have hstored : (s.tick c.wait).storedSteps c.body.runId = s.storedSteps c.body.runId :=
    storedSteps_tick (by rw [hrun]; exact Option.some_ne_none _)
  have hreached : svc.settings.policies.maxSteps ≤
      (mapRun current (svc.promptHashes (s.tick c.wait) c.body.runId) c.body.step).steps := by
    rw [← hstored, storedSteps_of_run hrun] at hsteps
    exact hsteps
  have hhalt : svc.decideOn c.body current (svc.promptHashes (s.tick c.wait) c.body.runId) =
      .ok stepCapHalt := decide_at_cap hd hadm hreached
  have hget : (s.tick c.wait).hgetall (runKey c.body.runId) = some current := hrun
  have hprecall : svc.precall c.body c.uuid (s.tick c.wait) =
      (s.tick c.wait, .ok (RunLedgerService.precallResponse stepCapHalt none)) := by
    simp only [RunLedgerService.precall, hget, hhalt]
    rfl
  rw [RunLedgerService.makeCall]
  simp only [hprecall]
  exact ⟨rfl, hstored⟩

theorem Answer.HaltedByCap.not_admits {answer : Answer} (h : answer.HaltedByCap) :
    ¬ Answer.admits answer = true := by
  rw [h]
  exact Bool.false_ne_true

theorem makeCalls_length (svc : RunLedgerService) (s : Redis) (calls : List SequentialCall) :
    (svc.makeCalls s calls).length = calls.length := by
  induction calls generalizing s with
  | nil => rfl
  | cons c cs ih => rw [RunLedgerService.makeCalls, List.length_cons, List.length_cons, ih]

theorem makeCalls_count {runId : String} {k : ℕ} {calls : List SequentialCall}
    (hcap : 1 ≤ svc.settings.policies.maxSteps)
    (hstored : s.storedSteps runId = min (k : ℤ) (svc.settings.policies.maxSteps - 1))
    (hnumbered : Numbered runId (k + 1) calls)
    (hbudget : Trace.Along (fun s c => (svc.makeCall s c).1) svc.WithinBudget s calls) :
    ((svc.makeCalls s calls).countP Answer.admits : ℤ) =
        min (calls.length : ℤ) (max 0 (svc.settings.policies.maxSteps - 1 - k)) ∧
      ∀ answer ∈ svc.makeCalls s calls, Answer.admits answer = false → answer.HaltedByCap := by
  induction calls generalizing s k with
  | nil =>
    refine ⟨?_, fun answer h => absurd h List.not_mem_nil⟩
    rw [RunLedgerService.makeCalls, List.countP_nil, List.length_nil]
    omega
  | cons c cs ih =>
    obtain ⟨⟨rfl, hstep⟩, hrest⟩ := hnumbered
    obtain ⟨hcall, hlater⟩ := hbudget
    rw [RunLedgerService.makeCalls, List.forall_mem_cons, List.length_cons]
    by_cases hbelow : (k : ℤ) + 1 < svc.settings.policies.maxSteps
    · obtain ⟨hadmits, hnext⟩ := makeCall_below (by omega) hcall (by rw [hstored, hstep]; omega)
      obtain ⟨hcount, hhalts⟩ := ih (k := k + 1) (by rw [hnext, hstored, hstep]; omega) hrest hlater
      rw [List.countP_cons_of_pos hadmits, Nat.cast_succ, hcount]
      refine ⟨by omega, fun hrefused => ?_, hhalts⟩
      rw [hadmits] at hrefused
      cases hrefused
    · obtain ⟨hhalt, hnext⟩ := makeCall_at_cap hcall (by rw [hstored, hstep]; omega)
      obtain ⟨hcount, hhalts⟩ := ih (k := k + 1) (by rw [hnext, hstored]; omega) hrest hlater
      rw [List.countP_cons_of_neg hhalt.not_admits, hcount]
      exact ⟨by omega, fun _ => hhalt, hhalts⟩

theorem storedSteps_created {run : RunCreateRequest} (h : s.run run.runId = none) :
    (svc.createRun run s).1.storedSteps run.runId = 0 := by
  rw [Redis.storedSteps, svc.run_createRun, if_pos rfl, h]
  rfl

end Sequential

def largestStep (runId : String) (admitted : List AdmittedCall) : ℤ :=
  ((admitted.filter (·.body.runId = runId)).map (stepValue ·.body.step)).foldr max 0

namespace Steering
variable {svc : RunLedgerService} {runId : String} {s : Steering}

-- A run that does not exist has admitted nothing yet.
structure CountsLargest (runId : String) (s : Steering) : Prop where
  steps : s.redis.storedSteps runId = largestStep runId s.admitted
  absent : s.redis.run runId = none → largestStep runId s.admitted = 0

theorem init_countsLargest : CountsLargest runId init := ⟨rfl, fun _ => rfl⟩

theorem CountsLargest.of_run (h : CountsLargest runId s) {s' : Steering}
    (hrun : s'.redis.run runId = s.redis.run runId) (hadm : s'.admitted = s.admitted) :
    CountsLargest runId s' where
  steps := by rw [Redis.storedSteps, hrun, hadm, ← h.steps, Redis.storedSteps]
  absent hnone := by
    rw [hadm]
    exact h.absent (hrun ▸ hnone)

theorem CountsLargest.createRun (h : CountsLargest runId s) (svc : RunLedgerService)
    (body : RunCreateRequest) : CountsLargest runId (s.step svc (.createRun body)) := by
  have hrun : (s.step svc (.createRun body)).redis.run runId =
      if runId = body.runId then some ((s.redis.run body.runId).getD (svc.freshRun body))
      else s.redis.run runId := svc.run_createRun body s.redis runId
  by_cases hR : runId = body.runId
  · subst hR
    rw [if_pos rfl] at hrun
    refine ⟨?_, fun hnone => by rw [hrun] at hnone; cases hnone⟩
    change _ = largestStep _ s.admitted
    rw [Redis.storedSteps, hrun]
    cases hbefore : s.redis.run body.runId with
    | none => exact (h.absent hbefore).symm
    | some current => exact (storedSteps_of_run hbefore).symm.trans h.steps
  · rw [if_neg hR] at hrun
    exact h.of_run hrun rfl

theorem largestStep_cons (runId : String) (a : AdmittedCall) (admitted : List AdmittedCall) :
    largestStep runId (a :: admitted) =
      if a.body.runId = runId then max (stepValue a.body.step) (largestStep runId admitted)
      else largestStep runId admitted := by
  rw [largestStep, largestStep, List.filter_cons]
  by_cases hR : a.body.runId = runId
  · simp [hR]
  · simp [hR]

theorem CountsLargest.precall (h : CountsLargest runId s) (svc : RunLedgerService)
    (body : PrecallRequest) (uuid : String) :
    CountsLargest runId (s.step svc (.precall body uuid)) := by
  cases ha : svc.admission body s.redis with
  | none =>
    refine h.of_run ?_ (admitted_precall_none ha uuid)
    exact congrArg (·.run runId) (svc.precall_none ha uuid)
  | some p =>
    obtain ⟨current, d⟩ := p
    have hadm := admitted_precall_some ha uuid
    have hbody : (s.call svc body uuid current d).body = body := rfl
    have hrun : (s.step svc (.precall body uuid)).redis.run runId =
        if runId = body.runId then
          some (svc.reservedHash body current (svc.promptHashes s.redis body.runId) d
            ((s.redis.run body.runId).getD {}))
        else s.redis.run runId := by
      rw [Steering.step, RunLedgerService.apply, svc.precall_some ha, svc.run_reserve]
    by_cases hR : runId = body.runId
    · subst hR
      rw [if_pos rfl] at hrun
      refine ⟨?_, fun hnone => by rw [hrun] at hnone; cases hnone⟩
      rw [hadm, largestStep_cons, hbody, if_pos rfl, max_comm, ← h.steps]
      exact storedSteps_precall ha uuid
    · rw [if_neg hR] at hrun
      have hlargest : largestStep runId (s.step svc (.precall body uuid)).admitted =
          largestStep runId s.admitted := by
        rw [hadm, largestStep_cons, hbody, if_neg (Ne.symm hR)]
      refine ⟨?_, fun hnone => ?_⟩
      · rw [hlargest, ← h.steps, Redis.storedSteps, hrun, Redis.storedSteps]
      · rw [hlargest]
        exact h.absent (hrun ▸ hnone)

theorem CountsLargest.postcall (h : CountsLargest runId s) (svc : RunLedgerService)
    (body : PostcallRequest) : CountsLargest runId (s.step svc (.postcall body)) where
  steps := (storedSteps_postcall body).trans h.steps
  absent hnone := by
    refine h.absent ?_
    change (svc.postcall body s.redis).run runId = none at hnone
    cases hr : s.redis.resv body.reservationId with
    | none => rwa [svc.postcall_of_resv_none hr] at hnone
    | some r =>
      rw [svc.run_postcall hr] at hnone
      split_ifs at hnone with hR
      exact hnone

theorem CountsLargest.step (h : CountsLargest runId s) {op : Op} (hs : s.RunStays runId op) :
    CountsLargest runId (s.step svc op) := by
  cases op with
  | createRun body => exact h.createRun svc body
  | precall body uuid => exact h.precall svc body uuid
  | postcall body => exact h.postcall svc body
  | tick seconds => exact h.of_run hs rfl

end Steering

theorem step_cap_exact_iff {svc : RunLedgerService} {s : Redis} {run : RunCreateRequest}
    {calls : List SequentialCall} (hcap : 1 ≤ svc.settings.policies.maxSteps)
    (habsent : s.run run.runId = none) (hnumbered : Numbered run.runId 1 calls)
    (hbudget : Trace.Along (fun s c => (svc.makeCall s c).1) svc.WithinBudget
      (svc.createRun run s).1 calls) :
    (AdmitsFirst svc.settings.policies.maxSteps (svc.makeCalls (svc.createRun run s).1 calls) ↔
      (calls.length : ℤ) < svc.settings.policies.maxSteps) ∧
    ∀ runId ops, Trace.Along (Steering.step svc) (Steering.RunStays runId) .init ops →
      Trace.Always (Steering.step svc)
        (fun s => s.redis.storedSteps runId = largestStep runId s.admitted) .init ops := by
  obtain ⟨hcount, hhalts⟩ := makeCalls_count (k := 0) hcap
    (by rw [storedSteps_created habsent]; omega) hnumbered hbudget
  refine ⟨⟨fun h => ?_, fun h => ⟨?_, hhalts⟩⟩, fun runId ops hops pre post hsplit => ?_⟩
  · have hfirst := h.count
    rw [hcount, makeCalls_length] at hfirst
    omega
  · rw [hcount, makeCalls_length]
    omega
  · have halways := Trace.always_of_invariant (I := Steering.CountsLargest runId)
      (fun s op hi hs => hi.step hs) Steering.init_countsLargest hops
    exact (halways pre post hsplit).steps

section Example

def numberedCall (step promptHash uuid : String) : SequentialCall where
  wait := 1
  body := { demoPrecall with step := step, promptHash := promptHash }
  uuid := uuid
  report := { demoPostcall with reservationId := uuid }

def threeCalls : List SequentialCall :=
  [numberedCall "1" "p" "u1", numberedCall "2" "q" "u2", numberedCall "3" "r" "u3"]

def cappedService (maxSteps : ℤ) : RunLedgerService :=
  { demoService with settings := { demoService.settings with policies := { maxSteps } } }

theorem three_calls_below_cap :
    AdmitsFirst 4 ((cappedService 4).makeCalls ((cappedService 4).createRun demoRun .empty).1
      threeCalls) :=
  (@step_cap_exact_iff (cappedService 4) .empty demoRun threeCalls (by decide) (by decide +kernel)
    (by decide +kernel) (by decide +kernel)).1.mpr (by decide)

theorem third_of_three_halted :
    Numbered "a" 1 threeCalls ∧
      Trace.Along (fun s c => ((cappedService 3).makeCall s c).1) (cappedService 3).WithinBudget
        ((cappedService 3).createRun demoRun .empty).1 threeCalls ∧
      ((cappedService 3).makeCalls ((cappedService 3).createRun demoRun .empty).1 threeCalls).map
        Answer.admits = [true, true, false] ∧
      ¬ AdmitsFirst 3 ((cappedService 3).makeCalls
        ((cappedService 3).createRun demoRun .empty).1 threeCalls) := by
  refine ⟨by decide +kernel, by decide +kernel, by decide +kernel, fun h => ?_⟩
  exact absurd h.count (by decide +kernel)

end Example

end RunLedger
