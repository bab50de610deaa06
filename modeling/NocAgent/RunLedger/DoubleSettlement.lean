import NocAgent.RunLedger.Clients
import NocAgent.RunLedger.Settlement

namespace RunLedger

def Settlement.charge {ι : Type} (svc : RunLedgerService) (R : String) (e : Settlement ι) :
    ℤ × ℤ × ℤ :=
  if e.body.runId = R then (-e.reservation.reservedMicros, -1, svc.settleCost e.body e.reservation)
  else 0

def CountersNonneg (s : Redis) : Prop :=
  ∀ R h, s.run R = some h → 0 ≤ toInt h.inflightMicros ∧ 0 ≤ toInt h.concurrent

namespace RunLedgerService
variable (svc : RunLedgerService)

theorem counters_settle (body : PostcallRequest) (r : Reservation) (s : Redis) (R : String) :
    (svc.settle body r s).counters R =
      s.counters R +
        if body.runId = R then (-r.reservedMicros, -1, svc.settleCost body r) else 0 := by
  by_cases hR : R = body.runId
  · simp [Redis.counters, run_settle, hR]
  · simp [Redis.counters, run_settle, hR, Ne.symm hR]

theorem counters_hset_costHalt (s : Redis) (runId R : String) :
    (s.hset (runKey runId) costHalt).counters R = s.counters R := by
  by_cases hR : R = runId
  · simp only [Redis.counters, run_hset_costHalt, hR, if_true]
    rfl
  · simp only [Redis.counters, run_hset_costHalt, if_neg hR]

theorem sound_hset_costHalt {s : Redis} (hs : Sound s) (runId : String) :
    Sound (s.hset (runKey runId) costHalt) where
  owned k r hk := by
    rw [run_hset_costHalt]
    split_ifs
    · simp
    · exact hs.owned k r hk
  balanced R := balancedAt_hset_costHalt (hs.balanced R) (total_eq_zero_of_run_none hs.owned) runId
  covered := hs.covered

end RunLedgerService

namespace System
variable {ι : Type} {svc : RunLedgerService} {sys : System ι}

def reporting (redis : Redis) (reports : ι → PostcallRequest) : System ι :=
  start redis fun k => .postcall (reports k) .start

def SettledOnce (sys : System ι) : Prop :=
  (sys.settlements.map fun e => e.body.reservationId).Nodup

def StillStored (sys : System ι) (l : ι × String) : Prop :=
  ∀ e ∈ sys.settlementOf l.1, sys.redis.resv e.body.reservationId ≠ none

def NamesOwn (sys : System ι) (l : ι × String) : Prop :=
  ∀ e ∈ sys.settlementOf l.1, e.reservation.runId = e.body.runId

instance (sys : System ι) (l : ι × String) : Decidable (sys.StillStored l) :=
  inferInstanceAs (Decidable (∀ e ∈ sys.settlementOf l.1,
    sys.redis.resv e.body.reservationId ≠ none))

instance (sys : System ι) (l : ι × String) : Decidable (sys.NamesOwn l) :=
  inferInstanceAs (Decidable (∀ e ∈ sys.settlementOf l.1, e.reservation.runId = e.body.runId))

structure Reporting (sys : System ι) : Prop where
  postcalls : ∀ k, ∃ body pc, sys.client k = .postcall body pc
  found : ∀ k body r, sys.client k = .postcall body (.found r) →
    sys.redis.resv body.reservationId = some r ∨
      ∃ e ∈ sys.settlements, e.body.reservationId = body.reservationId
  gone : ∀ e ∈ sys.settlements, sys.redis.resv e.body.reservationId = none

theorem Reporting.init (redis : Redis) (reports : ι → PostcallRequest) :
    Reporting (reporting redis reports) where
  postcalls k := ⟨reports k, .start, rfl⟩
  found _ _ _ h := by cases h
  gone _ h := by cases h

theorem settlementOf_of_found {k : ι} {body : PostcallRequest} {r : Reservation}
    (hk : sys.client k = .postcall body (.found r)) : sys.settlementOf k = [⟨k, body, r⟩] := by
  simp only [settlementOf, hk]

variable [DecidableEq ι]

theorem step_redis_cases (svc : RunLedgerService) (h : Reporting sys) (l : ι × String) :
    sys.settlementOf l.1 = [] ∧
        ((sys.step svc l).redis = sys.redis ∨
          ∃ runId, (sys.step svc l).redis =
            sys.redis.hset (runKey runId) RunLedgerService.costHalt) ∨
      ∃ body r, sys.client l.1 = .postcall body (.found r) ∧
        (sys.step svc l).redis = svc.settle body r sys.redis := by
  obtain ⟨body, pc, hk⟩ := h.postcalls l.1
  have hredis : (sys.step svc l).redis = (svc.stepPostcall body sys.redis pc).1 := by
    simp only [step, hk, RunLedgerService.stepClient]
  rw [hredis]
  cases pc with
  | start =>
    refine .inl ⟨by simp only [settlementOf, hk], .inl ?_⟩
    simp only [RunLedgerService.stepPostcall]
    split <;> rfl
  | found r => exact .inr ⟨body, r, hk, rfl⟩
  | settled =>
    refine .inl ⟨by simp only [settlementOf, hk], .inl ?_⟩
    simp only [RunLedgerService.stepPostcall]
    split
    · rfl
    · split_ifs <;> rfl
  | halting => exact .inl ⟨by simp only [settlementOf, hk], .inr ⟨body.runId, rfl⟩⟩
  | done => exact .inl ⟨by simp only [settlementOf, hk], .inl rfl⟩

theorem resv_step (svc : RunLedgerService) (h : Reporting sys) (l : ι × String) (id : String) :
    (∃ e ∈ sys.settlementOf l.1, e.body.reservationId = id) ∧
        (sys.step svc l).redis.resv id = none ∨
      (∀ e ∈ sys.settlementOf l.1, e.body.reservationId ≠ id) ∧
        (sys.step svc l).redis.resv id = sys.redis.resv id := by
  rcases step_redis_cases svc h l with ⟨hnil, hsame | ⟨runId, hset⟩⟩ | ⟨body, r, hk, hsettle⟩
  · exact .inr ⟨by simp [hnil], by rw [hsame]⟩
  · exact .inr ⟨by simp [hnil], by rw [hset]; rfl⟩
  · rw [settlementOf_of_found hk, hsettle, Redis.resv, svc.reservations_settle]
    by_cases hid : id = body.reservationId
    · exact .inl ⟨⟨_, List.mem_singleton_self _, hid.symm⟩, if_pos (by rw [hid])⟩
    · refine .inr ⟨fun e he => ?_, if_neg (by simpa using hid)⟩
      obtain rfl := List.mem_singleton.mp he
      exact Ne.symm hid

theorem Reporting.step (h : Reporting sys) (l : ι × String) : Reporting (sys.step svc l) where
  postcalls := by
    refine forall_step_client (P := fun _ c => ∃ body pc, c = .postcall body pc) ?_
      fun j _ => h.postcalls j
    obtain ⟨body, pc, hk⟩ := h.postcalls l.1
    rw [hk]
    exact ⟨body, _, rfl⟩
  found := by
    refine forall_step_client (P := fun _ c => ∀ body r, c = .postcall body (.found r) →
      (sys.step svc l).redis.resv body.reservationId = some r ∨
        ∃ e ∈ (sys.step svc l).settlements, e.body.reservationId = body.reservationId) ?_ ?_
    · intro body r hc
      obtain ⟨-, hr, hsame⟩ := svc.found_of_stepClient hc
      left
      change Redis.resv (svc.stepClient l.2 sys.redis (sys.client l.1)).1 _ = _
      rw [hsame, hr]
    · intro j _ body r hj
      rcases resv_step svc h l body.reservationId with ⟨⟨e, he, hid⟩, -⟩ | ⟨-, hsame⟩
      · exact .inr ⟨e, List.mem_append_left _ he, hid⟩
      · rw [hsame]
        refine (h.found j body r hj).imp_right fun ⟨e, he, hid⟩ => ?_
        exact ⟨e, List.mem_append_right _ he, hid⟩
  gone e he := by
    rcases resv_step svc h l e.body.reservationId with ⟨-, hnone⟩ | ⟨hne, hsame⟩
    · exact hnone
    · rcases List.mem_append.mp he with he | he
      · exact absurd rfl (hne e he)
      · rw [hsame]
        exact h.gone e he

theorem settledOnce_step_iff (h : Reporting sys) (hn : SettledOnce sys) (l : ι × String) :
    SettledOnce (sys.step svc l) ↔ StillStored sys l := by
  change ((sys.settlementOf l.1 ++ sys.settlements).map fun e => e.body.reservationId).Nodup ↔ _
  obtain ⟨body, pc, hk⟩ := h.postcalls l.1
  cases pc with
  | found r =>
    unfold StillStored
    rw [settlementOf_of_found hk, List.singleton_append, List.map_cons, List.nodup_cons,
      List.forall_mem_singleton]
    refine (and_iff_left hn).trans ?_
    constructor
    · intro hnew hnone
      rcases h.found l.1 body r hk with hr | ⟨e, he, hid⟩
      · rw [hnone] at hr
        cases hr
      · exact hnew (List.mem_map.mpr ⟨e, he, hid⟩)
    · intro hstored hold
      obtain ⟨e, he, hid⟩ := List.mem_map.mp hold
      exact hstored (hid ▸ h.gone e he)
  | _ =>
    have hnil : sys.settlementOf l.1 = [] := by simp only [settlementOf, hk]
    exact iff_of_true (by rwa [hnil]) (by simp [StillStored, hnil])

theorem sound_step (h : Reporting sys) (hs : Sound sys.redis) {l : ι × String}
    (hst : StillStored sys l) (hown : NamesOwn sys l) : Sound (sys.step svc l).redis := by
  rcases step_redis_cases svc h l with ⟨hnil, hsame | ⟨runId, hset⟩⟩ | ⟨body, r, hk, hsettle⟩
  · rwa [hsame]
  · rw [hset]
    exact RunLedgerService.sound_hset_costHalt hs runId
  · have hmem : (⟨l.1, body, r⟩ : Settlement ι) ∈ sys.settlementOf l.1 := by
      simp [settlementOf_of_found hk]
    have hr : sys.redis.resv body.reservationId = some r := by
      refine (h.found l.1 body r hk).resolve_right ?_
      rintro ⟨e, he, hid⟩
      exact hst _ hmem (hid ▸ h.gone e he)
    rw [hsettle]
    exact ⟨svc.owned_settle hs.owned body r,
      (svc.balanced_settle_iff hs.owned hs.balanced hr).mpr (hown _ hmem),
      svc.covered_settle hs.covered body r⟩

theorem counters_step (h : Reporting sys) (l : ι × String) (R : String) :
    (sys.step svc l).redis.counters R =
      sys.redis.counters R + ((sys.settlementOf l.1).map (Settlement.charge svc R)).sum := by
  rcases step_redis_cases svc h l with ⟨hnil, hsame | ⟨runId, hset⟩⟩ | ⟨body, r, hk, hsettle⟩
  · rw [hnil, hsame, List.map_nil, List.sum_nil, add_zero]
  · rw [hnil, hset, RunLedgerService.counters_hset_costHalt, List.map_nil, List.sum_nil, add_zero]
  · rw [settlementOf_of_found hk, hsettle, svc.counters_settle, List.map_singleton,
      List.sum_singleton, Settlement.charge]

theorem charged_step (h : Reporting sys) {c : ℤ × ℤ × ℤ} {R : String}
    (hc : sys.redis.counters R = c + (sys.settlements.map (Settlement.charge svc R)).sum)
    (l : ι × String) :
    (sys.step svc l).redis.counters R =
      c + ((sys.step svc l).settlements.map (Settlement.charge svc R)).sum := by
  have hlog : (sys.step svc l).settlements = sys.settlementOf l.1 ++ sys.settlements := rfl
  rw [counters_step h, hc, hlog, List.map_append, List.sum_append, add_assoc]
  congr 1
  exact add_comm _ _

end System

theorem RunLedgerService.settled_once_iff_still_stored {ι : Type} [DecidableEq ι]
    (svc : RunLedgerService) (hp : svc.settings.PricesNonneg) {ops : List Op}
    (ho : Trace.Along (World.step svc) Orderly World.init ops) (reports : ι → PostcallRequest)
    (schedule : List (ι × String)) :
    (Trace.Always (System.step svc) System.SettledOnce
          (System.reporting (World.after svc ops).redis reports) schedule ↔
        Trace.Along (System.step svc) System.StillStored
          (System.reporting (World.after svc ops).redis reports) schedule) ∧
      (Trace.Along (System.step svc) (fun sys l => sys.StillStored l ∧ sys.NamesOwn l)
          (System.reporting (World.after svc ops).redis reports) schedule →
        Trace.Always (System.step svc) (fun sys => CountersNonneg sys.redis)
          (System.reporting (World.after svc ops).redis reports) schedule) ∧
      Trace.Always (System.step svc)
        (fun sys => ∀ R, sys.redis.counters R = (World.after svc ops).redis.counters R +
          (sys.settlements.map (Settlement.charge svc R)).sum)
        (System.reporting (World.after svc ops).redis reports) schedule := by
  have hinit := System.Reporting.init (World.after svc ops).redis reports
  refine ⟨?_, fun hown => ?_, ?_⟩
  · exact Trace.always_iff_along (I := System.SettledOnce) (J := System.Reporting)
      (fun _ l h _ => h.step l) (fun _ l h hn _ => System.settledOnce_step_iff h hn l) hinit
      List.nodup_nil (Trace.along_trivial _ _)
  · have hsound := Trace.always_of_invariant
      (I := fun sys : System ι => sys.Reporting ∧ Sound sys.redis)
      (fun _ l h hl => ⟨h.1.step l, System.sound_step h.1 h.2 hl.1 hl.2⟩)
      ⟨hinit, Sound.of_run hp ho⟩ hown
    exact fun pre post hls R h hR => (hsound pre post hls).2.counters_nonneg hR
  · have hcharged := Trace.always_of_invariant
      (I := fun sys : System ι => sys.Reporting ∧ ∀ R, sys.redis.counters R =
        (World.after svc ops).redis.counters R +
          (sys.settlements.map (Settlement.charge svc R)).sum)
      (fun _ l h _ => ⟨h.1.step l, fun R => System.charged_step h.1 (h.2 R) l⟩)
      ⟨hinit, fun _ => (add_zero _).symm⟩ (Trace.along_trivial _ schedule)
    exact fun pre post hls => (hcharged pre post hls).2

section Example

def openCall : List Op := [.createRun demoRun, .precall demoPrecall "u"]

theorem openCall_orderly : Trace.Along (World.step demoService) Orderly World.init openCall := by
  unfold openCall
  refine ⟨trivial, ?_, trivial⟩
  change ∀ i ∈ (World.init.step demoService (.createRun demoRun)).book.issued,
    i.reservationId ≠ "u"
  decide +kernel

def twoReports (failed : Bool) : PostcallRequest := { demoPostcall with failed := failed }

def racingReports : List (Bool × String) := [(false, ""), (true, ""), (false, ""), (true, "")]

def reportsInTurn : List (Bool × String) :=
  List.replicate 4 (false, "") ++ List.replicate 4 (true, "")

theorem settled_once_iff_still_stored_in_turn :
    Trace.Always (System.step demoService) System.SettledOnce
        (System.reporting (World.after demoService openCall).redis twoReports) reportsInTurn ∧
      Trace.Always (System.step demoService) (fun sys => CountersNonneg sys.redis)
        (System.reporting (World.after demoService openCall).redis twoReports) reportsInTurn := by
  obtain ⟨hiff, hnonneg, -⟩ := demoService.settled_once_iff_still_stored demoService_pricesNonneg
    openCall_orderly twoReports reportsInTurn
  exact ⟨hiff.mpr (by decide +kernel), hnonneg (by decide +kernel)⟩

theorem racing_reports_settle_twice :
    (Trace.run (System.step demoService)
        (System.reporting (World.after demoService openCall).redis twoReports)
        racingReports).redis.counters "a" = (-200, -1, 200) ∧
      ¬ Trace.Always (System.step demoService) System.SettledOnce
        (System.reporting (World.after demoService openCall).redis twoReports) racingReports ∧
      ¬ Trace.Always (System.step demoService) (fun sys => CountersNonneg sys.redis)
        (System.reporting (World.after demoService openCall).redis twoReports) racingReports := by
  have hend : ((Trace.run (System.step demoService)
      (System.reporting (World.after demoService openCall).redis twoReports)
      racingReports).redis.run "a").map RunHash.counters = some (-200, -1, 200) := by decide +kernel
  refine ⟨by decide +kernel, fun h => ?_, fun h => ?_⟩
  · have hnodup := h racingReports [] (List.append_nil _).symm
    revert hnodup
    unfold System.SettledOnce
    decide +kernel
  · obtain ⟨run, hrun, hcounters⟩ := Option.map_eq_some_iff.mp hend
    have hnonneg := (h racingReports [] (List.append_nil _).symm "a" run hrun).1
    have hin : toInt run.inflightMicros = -200 := congrArg Prod.fst hcounters
    omega

end Example

end RunLedger
