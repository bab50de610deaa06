import NocAgent.RunLedger.Settlement

namespace RunLedger

def UuidFresh (w : World) : Op → Prop
  | .precall _ uuid => ∀ i ∈ w.book.issued, i.reservationId ≠ uuid
  | _ => True

namespace Issue

def Released (i : Issue) (s t : Redis) : Prop :=
  s.resv i.reservationId ≠ none ∧ t.resv i.reservationId = none

def Returned (i : Issue) (s t : Redis) : Prop :=
  (t.counters i.runId).1 = (s.counters i.runId).1 - i.reservedMicros ∧
    (t.counters i.runId).2.1 = (s.counters i.runId).2.1 - 1

structure Isolated (i : Issue) (s t : Redis) : Prop where
  others : ∀ R, R ≠ i.runId → t.counters R = s.counters R
  released_iff : i.Released s t ↔ i.Returned s t

end Issue

def Stamped (w : World) : Prop :=
  ∀ i ∈ w.book.issued, ∀ r, w.redis.resv i.reservationId = some r → r = i.payload

theorem stamped_init : Stamped World.init := fun _ h => by cases h

namespace RunLedgerService
variable (svc : RunLedgerService)

theorem stamped_precall {w : World} (hw : Stamped w) {body : PrecallRequest} {uuid : String}
    (hf : UuidFresh w (.precall body uuid)) : Stamped (w.step svc (.precall body uuid)) := by
  cases ha : svc.admission body w.redis with
  | none => rwa [World.step_precall_none ha]
  | some p =>
    obtain ⟨current, d⟩ := p
    rw [World.step_precall_some ha]
    intro i hi r hr
    rw [Redis.resv, reservations_reserve] at hr
    rcases List.mem_cons.mp hi with rfl | hi
    · rw [if_pos rfl] at hr
      cases hr
      rfl
    · rw [if_neg (reservationKey_inj.not.mpr (hf i hi))] at hr
      exact hw i hi r hr

theorem stamped_step {w : World} {op : Op} (hw : Stamped w) (hf : UuidFresh w op) :
    Stamped (w.step svc op) := by
  cases op with
  | createRun body =>
    intro i hi r hr
    change i ∈ (w.book.begin body).issued at hi
    rw [Book.begin_issued] at hi
    exact hw i hi r ((svc.reservations_createRun body w.redis _).symm.trans hr)
  | precall body uuid => exact svc.stamped_precall hw hf
  | postcall body =>
    intro i hi r hr
    change i ∈ (w.book.report body).issued at hi
    change (svc.postcall body w.redis).reservations.get _ = _ at hr
    rw [Book.report_issued] at hi
    rw [reservations_postcall] at hr
    split_ifs at hr
    exact hw i hi r hr
  | tick seconds =>
    intro i hi r hr
    exact hw i hi r (Keyspace.get_of_purge hr)

section Postcall
variable {s : Redis} {body : PostcallRequest} {r : Reservation}

theorem counters_postcall_of_ne (hr : s.resv body.reservationId = some r) {R : String}
    (hR : R ≠ body.runId) : (svc.postcall body s).counters R = s.counters R := by
  simp only [Redis.counters, svc.run_postcall hr, if_neg hR]

theorem counters_postcall_self (hr : s.resv body.reservationId = some r) :
    (svc.postcall body s).counters body.runId =
      s.counters body.runId + (-r.reservedMicros, -1, svc.settleCost body r) := by
  simp [Redis.counters, svc.run_postcall hr]

theorem isolated_postcall_iff {i : Issue} (hid : body.reservationId = i.reservationId)
    (hpay : ∀ r, s.resv i.reservationId = some r → r = i.payload) :
    i.Isolated s (svc.postcall body s) ↔
      (s.resv i.reservationId = none ∨ body.runId = i.runId) := by
  cases hr : s.resv i.reservationId with
  | none =>
    have hsame : svc.postcall body s = s := svc.postcall_of_resv_none (by rw [hid, hr])
    have hback : ¬ i.Returned s s := fun h => by
      have := h.2
      omega
    rw [hsame]
    exact iff_of_true ⟨fun _ _ => rfl, iff_of_false (fun h => h.1 hr) hback⟩ (.inl rfl)
  | some r =>
    obtain rfl := hpay r hr
    have hr' : s.resv body.reservationId = some i.payload := by rw [hid, hr]
    have hgone : (svc.postcall body s).resv i.reservationId = none := by
      rw [Redis.resv, svc.reservations_postcall, if_pos (by rw [hid])]
    have hreleased : i.Released s (svc.postcall body s) := ⟨by simp [hr], hgone⟩
    constructor
    · intro h
      right
      by_contra hne
      have hback := (h.released_iff.mp hreleased).2
      rw [svc.counters_postcall_of_ne hr' (Ne.symm hne)] at hback
      omega
    · rintro (h | hrun)
      · cases h
      · refine ⟨fun R hR => svc.counters_postcall_of_ne hr' (hrun ▸ hR),
          iff_of_true hreleased ?_⟩
        unfold Issue.Returned
        rw [← hrun, svc.counters_postcall_self hr']
        exact ⟨rfl, rfl⟩

end Postcall

theorem settlement_isolation_iff {ops : List Op}
    (hf : Trace.Along (World.step svc) UuidFresh World.init ops) {i : Issue}
    (hi : i ∈ (Trace.run (World.step svc) World.init ops).book.issued) {body : PostcallRequest}
    (hid : body.reservationId = i.reservationId) :
    i.Isolated (Trace.run (World.step svc) World.init ops).redis
        (svc.postcall body (Trace.run (World.step svc) World.init ops).redis) ↔
      ((Trace.run (World.step svc) World.init ops).redis.resv i.reservationId = none ∨
        body.runId = i.runId) :=
  svc.isolated_postcall_iff hid
    (Trace.invariant (fun _ _ hw hf => svc.stamped_step hw hf) stamped_init hf i hi)

end RunLedgerService

section Example

def otherRun : RunCreateRequest := { demoRun with runId := "b", runId_nonempty := by simp }

def twoRuns : List Op := [.createRun demoRun, .createRun otherRun, .precall demoPrecall "u"]

def demoIssue : Issue := ⟨"u", "a", "gpt", 200⟩

theorem twoRuns_fresh : Trace.Along (World.step demoService) UuidFresh World.init twoRuns := by
  unfold twoRuns
  refine ⟨trivial, trivial, ?_, trivial⟩
  change ∀ i ∈ (Trace.run (World.step demoService) World.init
    [.createRun demoRun, .createRun otherRun]).book.issued, i.reservationId ≠ "u"
  decide +kernel

theorem settlement_isolation_iff_settled :
    demoIssue.Isolated (Trace.run (World.step demoService) World.init twoRuns).redis
        (demoService.postcall demoPostcall
          (Trace.run (World.step demoService) World.init twoRuns).redis) ↔
      ((Trace.run (World.step demoService) World.init twoRuns).redis.resv "u" = none ∨
        "a" = "a") :=
  demoService.settlement_isolation_iff twoRuns_fresh (i := demoIssue) (by decide +kernel) rfl

theorem postcall_charges_the_named_run :
    Trace.Along (World.step demoService) UuidFresh World.init twoRuns ∧
      demoIssue ∈ (Trace.run (World.step demoService) World.init twoRuns).book.issued ∧
      (demoService.postcall { demoPostcall with runId := "b" }
        (Trace.run (World.step demoService) World.init twoRuns).redis).counters "a" =
          (200, 1, 0) ∧
      (demoService.postcall { demoPostcall with runId := "b" }
        (Trace.run (World.step demoService) World.init twoRuns).redis).counters "b" =
          (-200, -1, 200) ∧
      ¬ demoIssue.Isolated (Trace.run (World.step demoService) World.init twoRuns).redis
        (demoService.postcall { demoPostcall with runId := "b" }
          (Trace.run (World.step demoService) World.init twoRuns).redis) := by
  have hb : (demoService.postcall { demoPostcall with runId := "b" }
      (Trace.run (World.step demoService) World.init twoRuns).redis).counters "b" =
        (-200, -1, 200) := by decide +kernel
  have hb' : (Trace.run (World.step demoService) World.init twoRuns).redis.counters "b" =
      (0, 0, 0) := by decide +kernel
  refine ⟨twoRuns_fresh, by decide +kernel, by decide +kernel, hb, fun h => ?_⟩
  have hsame := h.others "b" (by decide)
  rw [hb, hb'] at hsame
  cases hsame

end Example

end RunLedger
