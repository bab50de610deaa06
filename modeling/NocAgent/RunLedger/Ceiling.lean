import NocAgent.RunLedger.Settlement

namespace RunLedger

def Ceiling (runId : String) (budget : ℤ) (s : Redis) : Prop :=
  ∃ h, s.run runId = some h ∧ h.budgetMicros = some budget ∧
    toInt h.spendMicros + toInt h.inflightMicros ≤ budget

theorem Ceiling.of_run_eq {runId : String} {budget : ℤ} {s t : Redis} (hs : Ceiling runId budget s)
    (h : t.run runId = s.run runId) : Ceiling runId budget t := by
  rwa [Ceiling, h]

namespace RunLedgerService
variable (svc : RunLedgerService)

def CostCovered (s : Redis) : Op → Prop
  | .postcall body =>
    ∀ r, s.resv body.reservationId = some r → svc.settleCost body r ≤ r.reservedMicros
  | _ => True

def AdmitsWithin (runId : String) (budget : ℤ) (s : Redis) : Op → Prop
  | .precall body _ => body.runId = runId → ∀ current d, svc.admission body s = some (current, d) →
      toInt current.spendMicros + toInt current.inflightMicros + d.reserveMicros ≤ budget
  | _ => True

def GuardFits (runId : String) (s : Redis) : Op → Prop
  | .precall body _ => body.runId = runId → ∀ current, s.run runId = some current →
      guardFires (mapRun current (svc.promptHashes s runId) body.step) body.promptHash
        svc.settings.policies →
      worstCaseMicros body.estInputTokens svc.settings.policies.defaultMaxOutput
          (svc.settings.pricesFor body.model) ≤
        (mapRun current (svc.promptHashes s runId) body.step).remaining
  | _ => True

theorem ceiling_createRun_of_none (body : RunCreateRequest) {s : Redis}
    (hs : s.run body.runId = none) :
    Ceiling body.runId body.budgetMicros (svc.createRun body s).1 := by
  refine ⟨svc.freshRun body, ?_, rfl, ?_⟩
  · rw [run_createRun, if_pos rfl, hs, Option.getD_none]
  · change (0 : ℤ) + 0 ≤ body.budgetMicros
    have := body.budget_pos
    omega

section Step
variable {svc} {runId : String} {budget : ℤ} {s : Redis}

theorem admitsWithin_iff_guardFits (hp : svc.settings.PricesNonneg) (hs : Ceiling runId budget s)
    (op : Op) : svc.AdmitsWithin runId budget s op ↔ svc.GuardFits runId s op := by
  cases op with
  | precall body uuid =>
    obtain ⟨h, hrun, hb, -⟩ := hs
    constructor
    · rintro hwithin rfl current hcur hguard
      rw [hrun] at hcur
      cases hcur
      obtain ⟨d, hd, ha, hres⟩ := decide_of_guardFires hguard (svc.settings.pricesFor body.model)
        body.estInputTokens body.maxOutputTokens
      have hle := hwithin rfl h d (svc.admission_eq_some.mpr ⟨hrun, hd, ha⟩)
      change _ ≤ toInt h.budgetMicros - toInt h.spendMicros - toInt h.inflightMicros
      rw [hb, ← hres]
      change _ ≤ budget - _ - _
      omega
    · rintro hfits rfl current d hadm
      obtain ⟨hcur, hd, ha⟩ := svc.admission_eq_some.mp hadm
      rw [hrun] at hcur
      cases hcur
      have hle : d.reserveMicros ≤
          (mapRun h (svc.promptHashes s body.runId) body.step).remaining := by
        obtain ⟨-, -, ⟨hguard, hres⟩ | ⟨-, -, hfit⟩⟩ := decide_admitted hd ha
        · rw [hres]
          exact hfits rfl h hrun hguard
        · exact hfit (hp body.model).2
      change _ ≤ toInt h.budgetMicros - toInt h.spendMicros - toInt h.inflightMicros at hle
      rw [hb] at hle
      change _ ≤ budget - _ - _ at hle
      omega
  | _ => exact Iff.rfl

theorem ceiling_reserve (hs : Ceiling runId budget s) {body : PrecallRequest} {uuid : String}
    {current : RunHash} {d : Decision} (hadm : svc.admission body s = some (current, d))
    (hle : body.runId = runId →
      toInt current.spendMicros + toInt current.inflightMicros + d.reserveMicros ≤ budget) :
    Ceiling runId budget (svc.reserve body uuid current (svc.promptHashes s body.runId) d s) := by
  by_cases hR : runId = body.runId
  · subst hR
    obtain ⟨h, hrun, hb, -⟩ := hs
    have hcur := (svc.admission_eq_some.mp hadm).1
    rw [hrun] at hcur
    cases hcur
    refine ⟨svc.reservedHash body current (svc.promptHashes s body.runId) d current, ?_, hb, ?_⟩
    · rw [run_reserve, if_pos rfl, hrun, Option.getD_some]
    · rw [reservedHash_spend, reservedHash_inflight, ← add_assoc]
      exact hle rfl
  · exact hs.of_run_eq (by rw [run_reserve, if_neg hR])

theorem ceiling_postcall (hs : Ceiling runId budget s) {body : PostcallRequest}
    (hc : svc.CostCovered s (.postcall body)) : Ceiling runId budget (svc.postcall body s) := by
  cases hr : s.resv body.reservationId with
  | none => rwa [svc.postcall_of_resv_none hr]
  | some r =>
    by_cases hR : runId = body.runId
    · obtain ⟨h, hrun, hb, hle⟩ := hs
      have hcost := hc r hr
      refine ⟨closedHash (svc.settledHash body r h), ?_, by simp [hb], ?_⟩
      · rw [svc.run_postcall hr, if_pos hR, ← hR, hrun, Option.getD_some]
      · simp only [closedHash_spend, closedHash_inflight, settledHash_spend, settledHash_inflight]
        omega
    · exact hs.of_run_eq (by rw [svc.run_postcall hr, if_neg hR])

theorem ceiling_apply (hs : Ceiling runId budget s) {op : Op} (hc : svc.CostCovered s op)
    (hr : RunsSurvive s op) (hw : svc.AdmitsWithin runId budget s op) :
    Ceiling runId budget (svc.apply s op) := by
  cases op with
  | createRun body =>
    obtain ⟨h, hrun, hrest⟩ := hs
    refine ⟨h, ?_, hrest⟩
    rw [apply, run_createRun]
    split_ifs with hR
    · rw [← hR, hrun, Option.getD_some]
    · exact hrun
  | precall body uuid =>
    cases ha : svc.admission body s with
    | none => rwa [apply, svc.precall_none ha]
    | some p =>
      rw [apply, svc.precall_some ha]
      exact ceiling_reserve hs ha fun hR => hw hR p.1 p.2 ha
  | postcall body => exact ceiling_postcall hs hc
  | tick seconds => exact hs.of_run_eq (hr runId)

end Step

theorem budget_ceiling_iff_guard_fits (hp : svc.settings.PricesNonneg) (created : RunCreateRequest)
    {s : Redis} (hs : s.run created.runId = none) {ops : List Op}
    (hD : Trace.Along svc.apply (fun s op => svc.CostCovered s op ∧ RunsSurvive s op)
      (svc.createRun created s).1 ops) :
    (Trace.Along svc.apply (svc.AdmitsWithin created.runId created.budgetMicros)
          (svc.createRun created s).1 ops ∧
        Trace.Always svc.apply (Ceiling created.runId created.budgetMicros)
          (svc.createRun created s).1 ops) ↔
      Trace.Along svc.apply (svc.GuardFits created.runId) (svc.createRun created s).1 ops :=
  Trace.along_and_always_iff (fun _ op hi _ => admitsWithin_iff_guardFits hp hi op)
    (fun _ _ hi hd hw => ceiling_apply hi hd.1 hd.2 hw) (svc.ceiling_createRun_of_none created hs) hD

end RunLedgerService

section Example

def smallRun : RunCreateRequest := { demoRun with budgetMicros := 1000, budget_pos := by norm_num }

def smallStore : Redis := (demoService.createRun smallRun .empty).1

def loopingCalls : List Op :=
  [.precall demoPrecall "u1", .precall demoPrecall "u2", .precall demoPrecall "u3",
    .precall demoPrecall "u4"]

theorem budget_ceiling_iff_guard_fits_settled :
    (Trace.Along demoService.apply (demoService.AdmitsWithin "a" 1000) smallStore
          [.precall demoPrecall "u", .postcall demoPostcall] ∧
        Trace.Always demoService.apply (Ceiling "a" 1000) smallStore
          [.precall demoPrecall "u", .postcall demoPostcall]) ↔
      Trace.Along demoService.apply (demoService.GuardFits "a") smallStore
        [.precall demoPrecall "u", .postcall demoPostcall] := by
  refine demoService.budget_ceiling_iff_guard_fits demoService_pricesNonneg smallRun rfl
    ⟨⟨trivial, trivial⟩, ⟨fun r hr => ?_, trivial⟩, trivial⟩
  have hone : some r = some (⟨"a", 200, "gpt"⟩ : Reservation) := by
    rw [← hr]
    decide +kernel
  cases hone
  decide +kernel

theorem guard_reserves_over_budget :
    Trace.Along demoService.apply (fun s op => demoService.CostCovered s op ∧ RunsSurvive s op)
        smallStore loopingCalls ∧
      ((Trace.run demoService.apply smallStore loopingCalls).run "a").map
        (fun h => (h.budgetMicros, h.spendMicros, h.inflightMicros)) =
        some (some 1000, some 0, some 2748) ∧
      ¬ Trace.Along demoService.apply (demoService.AdmitsWithin "a" 1000) smallStore loopingCalls ∧
      ¬ Trace.Always demoService.apply (Ceiling "a" 1000) smallStore loopingCalls := by
  have hD : Trace.Along demoService.apply
      (fun s op => demoService.CostCovered s op ∧ RunsSurvive s op) smallStore loopingCalls := by
    unfold loopingCalls
    exact ⟨⟨trivial, trivial⟩, ⟨trivial, trivial⟩, ⟨trivial, trivial⟩, ⟨trivial, trivial⟩, trivial⟩
  have hend : ((Trace.run demoService.apply smallStore loopingCalls).run "a").map
      (fun h => (h.budgetMicros, h.spendMicros, h.inflightMicros)) =
      some (some 1000, some 0, some 2748) := by decide +kernel
  have hover : ¬ Trace.Always demoService.apply (Ceiling "a" 1000) smallStore loopingCalls := by
    intro h
    obtain ⟨run, hrun, -, hle⟩ := h _ [] (List.append_nil _).symm
    rw [hrun, Option.map_some, Option.some.injEq, Prod.mk.injEq, Prod.mk.injEq] at hend
    rw [hend.2.1, hend.2.2] at hle
    exact absurd hle (by decide)
  refine ⟨hD, hend, fun hA => hover ?_, hover⟩
  exact Trace.always_of_invariant
    (fun _ _ hi h => RunLedgerService.ceiling_apply hi h.1.1 h.1.2 h.2)
    (demoService.ceiling_createRun_of_none smallRun rfl) (hD.and hA)

end Example

end RunLedger
