import NocAgent.RunLedger.DoubleSettlement
import NocAgent.RunLedger.Linearization

namespace RunLedger

structure RunHash.Progress (h h' : RunHash) : Prop where
  budget : h'.budgetMicros = h.budgetMicros
  spend : toInt h.spendMicros ≤ toInt h'.spendMicros
  halt : h'.halt = h.halt ∧ h'.haltReason = h.haltReason ∨
    h'.halt = some "1" ∧ h'.haltReason = some "cost_budget"

theorem RunHash.Progress.refl (h : RunHash) : h.Progress h := ⟨rfl, le_rfl, .inl ⟨rfl, rfl⟩⟩

def Spent (R : String) (s : Redis) : Prop :=
  ∃ h, s.run R = some h ∧ toInt h.budgetMicros ≤ toInt h.spendMicros

def Halted (R : String) (s : Redis) : Prop :=
  ∃ h, s.run R = some h ∧ h.halt = some "1" ∧ h.haltReason = some "cost_budget"

def ReportedOnce {ι : Type} (client : ι → Client) : Prop :=
  ∀ k k' body body' pc pc', client k = .postcall body pc → client k' = .postcall body' pc' →
    body.reservationId = body'.reservationId → k = k'

def Client.ReadsOwn (s : Redis) : Client → Prop
  | .postcall body .start => ∀ r ∈ s.resv body.reservationId, r.runId = body.runId
  | _ => True

instance (s : Redis) : (c : Client) → Decidable (c.ReadsOwn s)
  | .postcall body .start =>
    inferInstanceAs (Decidable (∀ r ∈ s.resv body.reservationId, r.runId = body.runId))
  | .postcall _ (.found _) | .postcall _ .settled | .postcall _ .halting | .postcall _ .done =>
    isTrue trivial
  | .createRun _ _ | .precall _ _ => isTrue trivial

namespace System
variable {ι : Type}

def IdFree (sys : System ι) (l : ι × String) : Prop := sys.redis.resv l.2 = none

def ReadsOwn (sys : System ι) (l : ι × String) : Prop := (sys.client l.1).ReadsOwn sys.redis

instance (sys : System ι) (l : ι × String) : Decidable (sys.IdFree l) :=
  inferInstanceAs (Decidable (sys.redis.resv l.2 = none))

instance (sys : System ι) (l : ι × String) : Decidable (sys.ReadsOwn l) :=
  inferInstanceAs (Decidable ((sys.client l.1).ReadsOwn sys.redis))

structure Guarded [DecidableEq ι] (svc : RunLedgerService) (R : String) (budget : Option ℤ)
    (sys : System ι) : Prop where
  coherent : Coherent svc sys
  run : ∃ h, sys.redis.run R = some h ∧ h.budgetMicros = budget
  balanced : BalancedAt R sys.redis
  covered : Covered sys.redis
  found : ∀ k body r, sys.client k = .postcall body (.found r) →
    sys.redis.resv body.reservationId = some r ∧ r.runId = body.runId
  created : ∀ k body, sys.client k = .createRun body .initialising → body.runId ≠ R
  once : ReportedOnce sys.client

variable [DecidableEq ι] {svc : RunLedgerService} {R : String} {budget : Option ℤ}
  {sys : System ι}

theorem effect_step (svc : RunLedgerService) (sys : System ι) (l : ι × String) :
    svc.Effect l.2 sys.redis (sys.client l.1) (sys.step svc l).redis :=
  svc.effect_stepClient l.2 sys.redis (sys.client l.1)

theorem Guarded.progress (h : Guarded svc R budget sys) (hp : svc.settings.PricesNonneg)
    (l : ι × String) {run : RunHash} (hrun : sys.redis.run R = some run) :
    ∃ run', (sys.step svc l).redis.run R = some run' ∧ run.Progress run' := by
  have heffect := effect_step svc sys l
  generalize (sys.step svc l).redis = t at heffect ⊢
  generalize hk : sys.client l.1 = c at heffect
  cases heffect with
  | idle => exact ⟨run, hrun, .refl run⟩
  | initialise body =>
    have hne : R ≠ body.runId := (h.created l.1 body hk).symm
    exact ⟨run, by simpa [Redis.run, hne] using hrun, .refl run⟩
  | refresh body current => exact ⟨run, by simpa [Redis.run] using hrun, .refl run⟩
  | commit body current hashes d =>
    rw [svc.run_reserve]
    split_ifs with hR
    · rw [← hR, hrun]
      exact ⟨_, rfl, rfl, le_rfl, .inl ⟨rfl, rfl⟩⟩
    · exact ⟨run, hrun, .refl run⟩
  | settle body r =>
    rw [svc.run_settle]
    split_ifs with hR
    · have hcost := svc.settleCost_nonneg hp body r
      rw [← hR, hrun]
      refine ⟨_, rfl, by simp, ?_, .inl ⟨by simp, by simp⟩⟩
      rw [Option.getD_some, svc.settledHash_spend]
      omega
    · exact ⟨run, hrun, .refl run⟩
  | halt body =>
    rw [RunLedgerService.run_hset_costHalt]
    split_ifs with hR
    · rw [← hR, hrun]
      exact ⟨_, rfl, rfl, le_rfl, .inr ⟨rfl, rfl⟩⟩
    · exact ⟨run, hrun, .refl run⟩

theorem Guarded.balanced_step (h : Guarded svc R budget sys) {l : ι × String}
    (hfree : IdFree sys l) : BalancedAt R (sys.step svc l).redis := by
  obtain ⟨run, hrun, -⟩ := h.run
  have hex : sys.redis.run R ≠ none := by simp [hrun]
  have heffect := effect_step svc sys l
  generalize (sys.step svc l).redis = t at heffect ⊢
  generalize hk : sys.client l.1 = c at heffect
  cases heffect with
  | idle => exact h.balanced
  | initialise body =>
    have hne : R ≠ body.runId := (h.created l.1 body hk).symm
    intro h' hR
    exact h.balanced h' (by simpa [Redis.run, hne] using hR)
  | refresh body current =>
    intro h' hR
    rw [Redis.total_reservations_expire, Redis.total_reservations_expire]
    exact h.balanced h' (by simpa [Redis.run] using hR)
  | commit body current hashes d =>
    exact svc.balancedAt_reserve h.balanced hfree (fun _ => hex) current hashes d
  | settle body r =>
    obtain ⟨hr, hname⟩ := h.found l.1 body r hk
    exact svc.balancedAt_settle h.balanced hr hname fun _ => hex
  | halt body =>
    exact RunLedgerService.balancedAt_hset_costHalt h.balanced (fun hnone => absurd hnone hex)
      body.runId

theorem Guarded.covered_step (h : Guarded svc R budget sys) (hp : svc.settings.PricesNonneg)
    (l : ι × String) : Covered (sys.step svc l).redis := by
  have hs := h.coherent.snapshot l.1
  have heffect := effect_step svc sys l
  generalize (sys.step svc l).redis = t at heffect ⊢
  generalize sys.client l.1 = c at heffect hs
  cases heffect with
  | idle => exact h.covered
  | initialise body => exact h.covered
  | refresh body current =>
    exact h.covered.of_subset fun k r hk => (Redis.get_reservations_expire ..).symm.trans hk
  | commit body current hashes d =>
    obtain ⟨-, hd, ha, -⟩ := hs
    exact svc.covered_reserve h.covered (decide_reserveMicros_nonneg (hp body.model) hd ha) body
      l.2 current hashes
  | settle body r => exact svc.covered_settle h.covered body r
  | halt body => exact h.covered

theorem Guarded.resv_step (h : Guarded svc R budget sys) {l : ι × String} (hfree : IdFree sys l)
    {j : ι} (hj : j ≠ l.1) {body : PostcallRequest} {pc : PostcallPc}
    (hk : sys.client j = .postcall body pc) {r : Reservation}
    (hr : sys.redis.resv body.reservationId = some r) :
    (sys.step svc l).redis.resv body.reservationId = some r := by
  have heffect := effect_step svc sys l
  generalize (sys.step svc l).redis = t at heffect ⊢
  cases hc : sys.client l.1 with
  | createRun body' pc' =>
    rw [hc] at heffect
    cases heffect with
    | idle => exact hr
    | initialise => exact hr
    | refresh => rwa [Redis.resv, Redis.get_reservations_expire]
  | precall body' pc' =>
    rw [hc] at heffect
    cases heffect with
    | idle => exact hr
    | commit _ current hashes d =>
      have hne : body.reservationId ≠ l.2 := by
        intro he
        rw [he, hfree] at hr
        cases hr
      rw [Redis.resv, svc.reservations_reserve, if_neg (reservationKey_inj.not.mpr hne)]
      exact hr
  | postcall body' pc' =>
    rw [hc] at heffect
    cases heffect with
    | idle => exact hr
    | settle _ r' =>
      have hne : body.reservationId ≠ body'.reservationId :=
        fun he => hj (h.once j l.1 body body' _ _ hk hc he)
      rw [Redis.resv, svc.reservations_settle, if_neg (reservationKey_inj.not.mpr hne)]
      exact hr
    | halt => exact hr

theorem found_self {l : ι × String} (hown : ReadsOwn sys l) {body : PostcallRequest}
    {r : Reservation}
    (hc : (svc.stepClient l.2 sys.redis (sys.client l.1)).2 = .postcall body (.found r)) :
    (sys.step svc l).redis.resv body.reservationId = some r ∧ r.runId = body.runId := by
  obtain ⟨hk, hr, hsame⟩ := svc.found_of_stepClient hc
  change Redis.resv (svc.stepClient l.2 sys.redis (sys.client l.1)).1 _ = _ ∧ _
  unfold ReadsOwn at hown
  rw [hk] at hown
  rw [hsame]
  exact ⟨hr, hown r hr⟩

theorem Guarded.created_self (h : Guarded svc R budget sys) {l : ι × String}
    {body : RunCreateRequest}
    (hc : (svc.stepClient l.2 sys.redis (sys.client l.1)).2 = .createRun body .initialising) :
    body.runId ≠ R := by
  obtain ⟨run, hrun, -⟩ := h.run
  cases hk : sys.client l.1 with
  | createRun body' pc =>
    rw [hk] at hc
    obtain ⟨rfl, hpc⟩ : body' = body ∧
        (svc.stepCreate body' sys.redis pc).2 = .initialising := by
      simpa [RunLedgerService.stepClient] using hc
    cases pc with
    | start =>
      rintro rfl
      have hget : sys.redis.hgetall (runKey body'.runId) = some run := hrun
      simp only [RunLedgerService.stepCreate, hget] at hpc
      cases hpc
    | initialising => cases hpc
    | refreshing current => cases hpc
    | done response => cases hpc
  | precall body' pc => simp [hk, RunLedgerService.stepClient] at hc
  | postcall body' pc => simp [hk, RunLedgerService.stepClient] at hc

theorem reportedOnce_step {l : ι × String} (h : ReportedOnce sys.client) :
    ReportedOnce (sys.step svc l).client := by
  have hback : ∀ j body pc, (sys.step svc l).client j = .postcall body pc →
      ∃ pc', sys.client j = .postcall body pc' := by
    intro j body pc hj
    by_cases hjl : j = l.1
    · rw [hjl, step_client_self] at hj
      cases hk : sys.client l.1 with
      | postcall body' pc' =>
        rw [hk] at hj
        cases hj
        exact ⟨pc', by rw [hjl, hk]⟩
      | createRun body' pc' => simp [hk, RunLedgerService.stepClient] at hj
      | precall body' pc' => simp [hk, RunLedgerService.stepClient] at hj
    · rw [step_client_of_ne svc sys hjl] at hj
      exact ⟨pc, hj⟩
  intro k k' body body' pc pc' hk hk' hid
  obtain ⟨p, hp⟩ := hback k body pc hk
  obtain ⟨p', hp'⟩ := hback k' body' pc' hk'
  exact h k k' body body' p p' hp hp' hid

theorem Guarded.step (h : Guarded svc R budget sys) (hp : svc.settings.PricesNonneg)
    {l : ι × String} (hfree : IdFree sys l) (hown : ReadsOwn sys l) :
    Guarded svc R budget (sys.step svc l) where
  coherent := h.coherent.step l
  run := by
    obtain ⟨run, hrun, hb⟩ := h.run
    obtain ⟨run', hrun', hprog⟩ := h.progress hp l hrun
    exact ⟨run', hrun', hprog.budget.trans hb⟩
  balanced := h.balanced_step hfree
  covered := h.covered_step hp l
  found := by
    refine forall_step_client (P := fun _ c => ∀ body r, c = .postcall body (.found r) →
      (sys.step svc l).redis.resv body.reservationId = some r ∧ r.runId = body.runId)
      (fun body r hc => found_self hown hc) fun j hj body r hk => ?_
    obtain ⟨hr, hname⟩ := h.found j body r hk
    exact ⟨h.resv_step hfree hj hk hr, hname⟩
  created := forall_step_client (P := fun _ c => ∀ body, c = .createRun body .initialising →
      body.runId ≠ R) (fun _ hc => h.created_self hc) fun j _ => h.created j
  once := reportedOnce_step h.once

theorem Guarded.spent_step (h : Guarded svc R budget sys) (hp : svc.settings.PricesNonneg)
    (l : ι × String) (hs : Spent R sys.redis) : Spent R (sys.step svc l).redis := by
  obtain ⟨run, hrun, hle⟩ := hs
  obtain ⟨run', hrun', hprog⟩ := h.progress hp l hrun
  refine ⟨run', hrun', ?_⟩
  rw [hprog.budget]
  exact hle.trans hprog.spend

theorem Guarded.halted_step (h : Guarded svc R budget sys) (hp : svc.settings.PricesNonneg)
    (l : ι × String) (hs : Halted R sys.redis) : Halted R (sys.step svc l).redis := by
  obtain ⟨run, hrun, hhalt, hreason⟩ := hs
  obtain ⟨run', hrun', hprog⟩ := h.progress hp l hrun
  rcases hprog.halt with ⟨hh, hr⟩ | ⟨hh, hr⟩
  · exact ⟨run', hrun', hh.trans hhalt, hr.trans hreason⟩
  · exact ⟨run', hrun', hh, hr⟩

theorem Guarded.no_commit (h : Guarded svc R budget sys) (l : ι × String)
    (hs : Spent R sys.redis) :
    (sys.step svc l).commits.filter (·.body.runId = R) =
      sys.commits.filter (·.body.runId = R) := by
  change (sys.commitOf l.1 l.2 ++ sys.commits).filter _ = _
  rw [List.filter_append]
  suffices hnil : (sys.commitOf l.1 l.2).filter (·.body.runId = R) = [] by
    rw [hnil, List.nil_append]
  rw [List.filter_eq_nil_iff]
  intro c hc hR
  obtain ⟨run, hrun, hle⟩ := hs
  obtain ⟨hk, -⟩ := mem_commitOf.mp hc
  have hsnap := h.coherent.snapshot l.1
  rw [hk] at hsnap
  obtain ⟨-, hd, ha, hread⟩ := hsnap
  have hcur := (hread rfl).1
  have hR' : c.body.runId = R := by simpa using hR
  obtain rfl : run = c.current := by
    rw [hR', hrun] at hcur
    exact Option.some.inj hcur
  have hbelow := (decide_admitted hd ha).1.2.1
  change toInt c.current.spendMicros + toInt c.current.inflightMicros <
    toInt c.current.budgetMicros at hbelow
  have hinflight := (h.balanced c.current hrun).1
  have hnonneg := h.covered.total_inflightOf_nonneg R
  omega

theorem Guarded.start (hp : svc.settings.PricesNonneg) {ops : List Op}
    (ho : Trace.Along (World.step svc) Orderly World.init ops) {client : ι → Client}
    (hc : ∀ k, (client k).Starting) (honce : ReportedOnce client) {run : RunHash}
    (hrun : (World.after svc ops).redis.run R = some run) :
    Guarded svc R run.budgetMicros (System.start (World.after svc ops).redis client) where
  coherent := Coherent.start _ hc
  run := ⟨run, hrun, rfl⟩
  balanced := (Sound.of_run hp ho).balanced R
  covered := (Sound.of_run hp ho).covered
  found k body r hk := by
    have hstart := hc k
    change client k = _ at hk
    rw [hk] at hstart
    cases hstart
  created k body hk := by
    have hstart := hc k
    change client k = _ at hk
    rw [hk] at hstart
    cases hstart
  once := honce

end System

structure StaysStopped {ι : Type} (R : String) (budget : Option ℤ) (mid last : System ι) : Prop where
  budget : ∃ h, last.redis.run R = some h ∧ h.budgetMicros = budget
  refused : Spent R mid.redis →
    last.commits.filter (·.body.runId = R) = mid.commits.filter (·.body.runId = R)
  halted : Halted R mid.redis → Halted R last.redis

theorem System.Guarded.staysStopped {ι : Type} [DecidableEq ι] {svc : RunLedgerService}
    {R : String} {budget : Option ℤ} {sys : System ι} (h : Guarded svc R budget sys)
    (hp : svc.settings.PricesNonneg) {later : List (ι × String)}
    (hs : Trace.Along (System.step svc) (fun sys l => sys.IdFree l ∧ sys.ReadsOwn l) sys later) :
    StaysStopped R budget sys (Trace.run (System.step svc) sys later) := by
  have hstep : ∀ (s : System ι) (l : ι × String), Guarded svc R budget s →
      s.IdFree l ∧ s.ReadsOwn l → Guarded svc R budget (s.step svc l) :=
    fun _ _ hg hl => hg.step hp hl.1 hl.2
  refine ⟨(Trace.invariant hstep h hs).run, fun hspent => ?_, fun hhalted => ?_⟩
  · have hend := Trace.invariant
      (I := fun s : System ι => (Guarded svc R budget s ∧ Spent R s.redis) ∧
        s.commits.filter (·.body.runId = R) = sys.commits.filter (·.body.runId = R))
      (fun s l hi hl => ⟨⟨hstep s l hi.1.1 hl, hi.1.1.spent_step hp l hi.1.2⟩,
        (hi.1.1.no_commit l hi.1.2).trans hi.2⟩) ⟨⟨h, hspent⟩, rfl⟩ hs
    exact hend.2
  · have hend := Trace.invariant
      (I := fun s : System ι => Guarded svc R budget s ∧ Halted R s.redis)
      (fun s l hi hl => ⟨hstep s l hi.1 hl, hi.1.halted_step hp l hi.2⟩) ⟨h, hhalted⟩ hs
    exact hend.2

theorem RunLedgerService.spent_run_stays_stopped {ι : Type} [DecidableEq ι]
    (svc : RunLedgerService) (hp : svc.settings.PricesNonneg) {ops : List Op}
    (ho : Trace.Along (World.step svc) Orderly World.init ops) {client : ι → Client}
    (hc : ∀ k, (client k).Starting) (honce : ReportedOnce client) {R : String} {run : RunHash}
    (hrun : (World.after svc ops).redis.run R = some run) (before later : List (ι × String))
    (hs : Trace.Along (System.step svc) (fun sys l => sys.IdFree l ∧ sys.ReadsOwn l)
      (System.start (World.after svc ops).redis client) (before ++ later)) :
    StaysStopped R run.budgetMicros
      (Trace.run (System.step svc) (System.start (World.after svc ops).redis client) before)
      (Trace.run (System.step svc) (System.start (World.after svc ops).redis client)
        (before ++ later)) := by
  obtain ⟨hbefore, hlater⟩ := (Trace.along_append _ before later).mp hs
  rw [Trace.run_append]
  have hstart := System.Guarded.start (R := R) hp ho hc honce hrun
  have hmid := Trace.invariant (I := System.Guarded svc R run.budgetMicros)
    (fun _ _ hg hl => hg.step hp hl.1 hl.2) hstart hbefore
  exact hmid.staysStopped hp hlater

section Example

def costlyReport : PostcallRequest := { demoPostcall with inputTokens := 600000 }

def lastCalls : Bool → Client
  | false => .postcall costlyReport .start
  | true => .precall demoPrecall .start

-- The precall has decided before the report is settled; the flag is written at the very end.
def beforeSettlement : List (Bool × String) :=
  [(true, "v"), (true, "v"), (true, "v"), (false, "v"), (false, "v")]

def afterSettlement : List (Bool × String) :=
  [(true, "v"), (true, "v"), (true, "v"), (true, "v"), (false, "v"), (false, "v")]

theorem lastCalls_reportedOnce : ReportedOnce lastCalls := by
  intro k k' body body' pc pc' hk hk' _
  cases k <;> cases k'
  · rfl
  · cases hk'
  · cases hk
  · rfl

theorem spent_run_stays_stopped_at_the_last_call :
    (Trace.run (System.step demoService)
        (System.start (World.after demoService openCall).redis lastCalls)
        (beforeSettlement ++ afterSettlement)).commits.filter (·.body.runId = "a") = [] := by
  obtain ⟨run, hrun⟩ : ∃ run, (World.after demoService openCall).redis.run "a" = some run :=
    Option.isSome_iff_exists.mp (by decide +kernel)
  have hstarting : ∀ k, (lastCalls k).Starting
    | false => .postcall costlyReport
    | true => .precall demoPrecall
  have hstopped := demoService.spent_run_stays_stopped demoService_pricesNonneg openCall_orderly
    hstarting lastCalls_reportedOnce hrun beforeSettlement afterSettlement (by decide +kernel)
  have hspent : Spent "a" (Trace.run (System.step demoService)
      (System.start (World.after demoService openCall).redis lastCalls) beforeSettlement).redis := by
    obtain ⟨h, hsome, hle⟩ := (Option.any_eq_true RunLedgerService.overspent _).mp
      (by decide +kernel : ((Trace.run (System.step demoService)
        (System.start (World.after demoService openCall).redis lastCalls)
        beforeSettlement).redis.run "a").any RunLedgerService.overspent = true)
    exact ⟨h, hsome, of_decide_eq_true hle⟩
  rw [hstopped.refused hspent]
  exact List.isEmpty_iff.mp (by decide +kernel)

end Example

end RunLedger
