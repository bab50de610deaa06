import NocAgent.RunLedger.Settlement

namespace RunLedger

namespace Book

def openCalls (b : Book) (runId : String) : ℕ :=
  b.issued.countP fun i => i.runId = runId ∧ b.isSettled i.reservationId = false

variable {b : Book}

theorem openCalls_congr {b' : Book} (hi : b'.issued = b.issued) (hs : b'.settled = b.settled)
    (R : String) : b'.openCalls R = b.openCalls R := by
  unfold openCalls isSettled
  rw [hi, hs]

theorem openCalls_issue {i : Issue} (hfresh : ∀ j ∈ b.issued, j.reservationId ≠ i.reservationId)
    (hsettled : ∀ p ∈ b.settled, p.1 ∈ b.issued) (R : String) :
    (b.issue i).openCalls R = b.openCalls R + if i.runId = R then 1 else 0 := by
  have hopen : b.isSettled i.reservationId = false := by
    rw [isSettled, List.any_eq_false]
    intro p hp
    simpa using hfresh p.1 (hsettled p hp)
  have hs : ∀ id, (b.issue i).isSettled id = b.isSettled id := fun _ => rfl
  unfold openCalls
  simp only [hs]
  rw [issue, List.countP_cons]
  simp [hopen]

theorem openCalls_report {body : PostcallRequest} {i : Issue}
    (ho : b.outstanding body.reservationId = some i)
    (hids : (b.issued.map Issue.reservationId).Nodup) (R : String) :
    (b.report body).openCalls R + (if i.runId = R then 1 else 0) = b.openCalls R := by
  obtain ⟨hi, hid⟩ := outstanding_mem ho
  have hopen : b.isSettled i.reservationId = false := by
    rw [hid]
    unfold outstanding at ho
    split_ifs at ho with h
    simpa using h
  have hs : ∀ id, (b.report body).isSettled id =
      (Decidable.decide (i.reservationId = id) || b.isSettled id) := by
    intro id
    simp only [report, ho, isSettled, List.any_cons]
  have hperm := List.perm_cons_erase hi
  have hne : ∀ j ∈ b.issued.erase i, i.reservationId ≠ j.reservationId := by
    have hnodup := (hperm.map Issue.reservationId).nodup_iff.mp hids
    rw [List.map_cons, List.nodup_cons] at hnodup
    intro j hj he
    exact hnodup.1 (List.mem_map.mpr ⟨j, hj, he.symm⟩)
  unfold openCalls
  rw [report_issued, hperm.countP_eq, hperm.countP_eq, List.countP_cons, List.countP_cons]
  have hrest : (b.issued.erase i).countP
        (fun j => j.runId = R ∧ (b.report body).isSettled j.reservationId = false) =
      (b.issued.erase i).countP (fun j => j.runId = R ∧ b.isSettled j.reservationId = false) := by
    refine List.countP_congr fun j hj => ?_
    simp [hs, hne j hj]
  rw [hrest]
  simp [hs, hopen]

end Book

-- Reservation ids are new and no key expires.
def Lasting (w : World) : Op → Prop
  | .createRun _ | .postcall _ => True
  | .precall _ uuid => ∀ i ∈ w.book.issued, i.reservationId ≠ uuid
  | .tick seconds =>
    (∀ R, (w.redis.tick seconds).run R = w.redis.run R) ∧
      ∀ k, (w.redis.tick seconds).reservations.get k = w.redis.reservations.get k

structure Counted (svc : RunLedgerService) (w : World) : Prop where
  refines : Refines svc w
  distinct : (w.book.issued.map Issue.reservationId).Nodup
  counted : ∀ R, w.redis.reservations.total (countOf R) = w.book.openCalls R

namespace Counted
variable {svc : RunLedgerService} {w : World}

theorem init : Counted svc World.init where
  refines := Refines.init
  distinct := .nil
  counted _ := rfl

theorem precall (hw : Counted svc w) (body : PrecallRequest) {uuid : String}
    (hfresh : ∀ i ∈ w.book.issued, i.reservationId ≠ uuid) :
    Counted svc (w.step svc (.precall body uuid)) := by
  cases ha : svc.admission body w.redis with
  | none => rwa [World.step_precall_none ha]
  | some p =>
    obtain ⟨current, d⟩ := p
    have hnone : w.redis.resv uuid = none := by
      rw [hw.refines.stored, Book.outstanding_eq_none_of_not_issued hfresh, Option.map_none]
    have horderly : Orderly w (.precall body uuid) := hfresh
    refine ⟨hw.refines.step horderly, ?_, fun R => ?_⟩
    · rw [World.step_precall_some ha]
      refine List.nodup_cons.mpr ⟨fun hm => ?_, hw.distinct⟩
      obtain ⟨i, hi, he⟩ := List.mem_map.mp hm
      exact hfresh i hi he
    · rw [World.step_precall_some ha]
      change (svc.reserve body uuid current _ d w.redis).reservations.total (countOf R) =
        ((w.book.issue _).openCalls R : ℤ)
      rw [svc.total_reserve, hnone, Book.openCalls_issue hfresh hw.refines.settled, hw.counted R]
      simp [countOf]

theorem postcall (hw : Counted svc w) (body : PostcallRequest)
    (hname : ∀ i ∈ w.book.issued, i.reservationId = body.reservationId → i.runId = body.runId) :
    Counted svc (w.step svc (.postcall body)) := by
  have horderly : Orderly w (.postcall body) := hname
  refine ⟨hw.refines.step horderly, ?_, fun R => ?_⟩
  · change ((w.book.report body).issued.map _).Nodup
    rw [Book.report_issued]
    exact hw.distinct
  · change (svc.postcall body w.redis).reservations.total (countOf R) =
      ((w.book.report body).openCalls R : ℤ)
    cases ho : w.book.outstanding body.reservationId with
    | none =>
      rw [hw.refines.postcall_of_not_outstanding ho, hw.counted R]
      simp only [Book.report, ho]
    | some i =>
      have hr : w.redis.resv body.reservationId = some i.payload := by
        rw [hw.refines.stored, ho, Option.map_some]
      have hget : w.redis.get (reservationKey body.reservationId) = some i.payload := hr
      have hbook := Book.openCalls_report ho hw.distinct R
      have hcount := hw.counted R
      simp only [RunLedgerService.postcall, hget, RunLedgerService.reservations_haltIfOverspent,
        RunLedgerService.total_settle, hr, Option.elim_some, countOf]
      change _ - (if i.runId = R then 1 else 0) = _
      split_ifs at hbook ⊢
      · omega
      · omega

theorem step (hw : Counted svc w) {op : Op} (hl : Lasting w op)
    (hn : NamesOwnRun w.redis op) : Counted svc (w.step svc op) := by
  cases op with
  | createRun body =>
    refine ⟨hw.refines.step trivial, ?_, fun R => ?_⟩
    · change ((w.book.begin body).issued.map _).Nodup
      rw [Book.begin_issued]
      exact hw.distinct
    · change (svc.createRun body w.redis).1.reservations.total (countOf R) =
        ((w.book.begin body).openCalls R : ℤ)
      rw [Keyspace.total_congr _ (svc.reservations_createRun body w.redis), hw.counted R,
        Book.openCalls_congr (Book.begin_issued body) (Book.begin_settled body)]
  | precall body uuid => exact hw.precall body hl
  | postcall body =>
    cases ho : w.book.outstanding body.reservationId with
    | none =>
      have hsame : w.step svc (.postcall body) = w := by
        simp only [World.step, World.record, RunLedgerService.apply, Book.report, ho,
          hw.refines.postcall_of_not_outstanding ho]
      rwa [hsame]
    | some i =>
      obtain ⟨hi, hid⟩ := Book.outstanding_mem ho
      have hown : i.runId = body.runId :=
        hn i.payload (by rw [hw.refines.stored, ho, Option.map_some])
      refine hw.postcall body fun j hj hjid => ?_
      rwa [List.inj_on_of_nodup_map hw.distinct hj hi (hjid.trans hid.symm)]
  | tick seconds =>
    have horderly : Orderly w (.tick seconds) := hl
    exact ⟨hw.refines.step horderly, hw.distinct, fun R =>
      (Keyspace.total_congr _ hl.2).trans (hw.counted R)⟩

theorem concurrent (hw : Counted svc w) {R : String} {h : RunHash} (hR : w.redis.run R = some h) :
    toInt h.concurrent = w.book.openCalls R :=
  (hw.refines.balanced R h hR).2.trans (hw.counted R)

end Counted

namespace RunLedgerService
variable (svc : RunLedgerService)

def WithinCap (runId : String) (w : World) : Prop :=
  (w.book.openCalls runId : ℤ) ≤ svc.settings.policies.maxConcurrent

def GuardWaits (runId : String) (w : World) : Op → Prop
  | .precall body _ => body.runId = runId → ∀ current, w.redis.run runId = some current →
      guardFires (mapRun current (svc.promptHashes w.redis runId) body.step) body.promptHash
        svc.settings.policies →
      toInt current.concurrent < svc.settings.policies.maxConcurrent
  | _ => True

theorem withinCap_precall_iff {runId : String} {w : World} (hw : Counted svc w)
    (hcap : svc.WithinCap runId w) (body : PrecallRequest) {uuid : String}
    (hfresh : ∀ i ∈ w.book.issued, i.reservationId ≠ uuid) :
    svc.WithinCap runId (w.step svc (.precall body uuid)) ↔
      svc.GuardWaits runId w (.precall body uuid) := by
  cases ha : svc.admission body w.redis with
  | none =>
    rw [World.step_precall_none ha]
    refine iff_of_true hcap ?_
    rintro rfl current hcur hguard
    obtain ⟨d, hd, hadm, -⟩ := decide_of_guardFires hguard (svc.settings.pricesFor body.model)
      body.estInputTokens body.maxOutputTokens
    rw [svc.admission_eq_some.mpr ⟨hcur, hd, hadm⟩] at ha
    cases ha
  | some p =>
    obtain ⟨current, d⟩ := p
    obtain ⟨hrun, hd, hadm⟩ := svc.admission_eq_some.mp ha
    rw [World.step_precall_some ha, WithinCap, Book.openCalls_issue hfresh hw.refines.settled]
    by_cases hR : body.runId = runId
    · subst hR
      have hconc := hw.concurrent hrun
      have hbelow : ((w.book.openCalls body.runId + 1 : ℕ) : ℤ) ≤
          svc.settings.policies.maxConcurrent ↔
          toInt current.concurrent < svc.settings.policies.maxConcurrent := by omega
      rw [if_pos rfl, hbelow]
      constructor
      · rintro hlt - current' hcur -
        rw [hrun] at hcur
        cases hcur
        exact hlt
      · intro hwaits
        obtain ⟨-, -, ⟨hguard, -⟩ | ⟨-, hlt, -⟩⟩ := decide_admitted hd hadm
        · exact hwaits rfl current hrun hguard
        · exact hlt
    · rw [if_neg hR, add_zero]
      exact iff_of_true hcap fun h => absurd h hR

theorem withinCap_step_iff {runId : String} {w : World} (hw : Counted svc w)
    (hcap : svc.WithinCap runId w) {op : Op} (hl : Lasting w op) :
    svc.WithinCap runId (w.step svc op) ↔ svc.GuardWaits runId w op := by
  cases op with
  | createRun body =>
    refine iff_of_true ?_ trivial
    change ((w.book.begin body).openCalls runId : ℤ) ≤ _
    rw [Book.openCalls_congr (Book.begin_issued body) (Book.begin_settled body)]
    exact hcap
  | precall body uuid => exact svc.withinCap_precall_iff hw hcap body hl
  | postcall body =>
    refine iff_of_true ?_ trivial
    change ((w.book.report body).openCalls runId : ℤ) ≤ _
    cases hout : w.book.outstanding body.reservationId with
    | none =>
      simp only [Book.report, hout]
      exact hcap
    | some i =>
      have hbook := Book.openCalls_report hout hw.distinct runId
      rw [WithinCap] at hcap
      omega
  | tick seconds => exact iff_of_true hcap trivial

theorem withinCap_iff_guardWaits (runId : String) {ops : List Op}
    (hl : Trace.Along (World.step svc) Lasting World.init ops)
    (hn : Trace.Along (World.step svc) (fun w => NamesOwnRun w.redis) World.init ops) :
    Trace.Always (World.step svc) (svc.WithinCap runId) World.init ops ↔
      0 ≤ svc.settings.policies.maxConcurrent ∧
        Trace.Along (World.step svc) (svc.GuardWaits runId) World.init ops := by
  by_cases h0 : svc.WithinCap runId World.init
  · rw [and_iff_right (show 0 ≤ svc.settings.policies.maxConcurrent from h0)]
    exact Trace.always_iff_along (J := Counted svc) (fun _ _ hw h => hw.step h.1 h.2)
      (fun _ _ hw hcap h => svc.withinCap_step_iff hw hcap h.1) Counted.init h0 (hl.and hn)
  · exact iff_of_false (fun h => h0 (h [] ops rfl)) fun h => h0 h.1

theorem concurrency_cap_of_guard_waits (runId : String) {ops : List Op}
    (hl : Trace.Along (World.step svc) Lasting World.init ops) :
    (0 ≤ svc.settings.policies.maxConcurrent →
      Trace.Along (World.step svc)
        (fun w op => NamesOwnRun w.redis op ∧ svc.GuardWaits runId w op) World.init ops →
      Trace.Always (World.step svc) (svc.WithinCap runId) World.init ops) ∧
    (Trace.Along (World.step svc) (fun w => NamesOwnRun w.redis) World.init ops →
      Trace.Always (World.step svc) (svc.WithinCap runId) World.init ops →
      0 ≤ svc.settings.policies.maxConcurrent ∧
        Trace.Along (World.step svc) (svc.GuardWaits runId) World.init ops) := by
  constructor
  · intro h0 hboth
    have hn := hboth.mono fun _ _ h => h.1
    have hwaits := hboth.mono fun _ _ h => h.2
    exact (svc.withinCap_iff_guardWaits runId hl hn).mpr ⟨h0, hwaits⟩
  · intro hn hcap
    exact (svc.withinCap_iff_guardWaits runId hl hn).mp hcap

end RunLedgerService

section Example

-- The loop guard admits the fourth call, which finds two of the first three still open.
def guardedInTurn : List Op :=
  [.createRun demoRun, .precall demoPrecall "u1", .precall demoPrecall "u2",
    .precall demoPrecall "u3", .postcall { demoPostcall with reservationId := "u1" },
    .precall demoPrecall "u4"]

instance (svc : RunLedgerService) (runId : String) (w : World) :
    (op : Op) → Decidable (svc.GuardWaits runId w op)
  | .precall body _ =>
    inferInstanceAs (Decidable (body.runId = runId → ∀ current ∈ w.redis.run runId,
      guardFires (mapRun current (svc.promptHashes w.redis runId) body.step) body.promptHash
        svc.settings.policies →
      toInt current.concurrent < svc.settings.policies.maxConcurrent))
  | .createRun _ | .postcall _ | .tick _ => isTrue trivial

theorem guardedInTurn_lasting :
    Trace.Along (World.step demoService) Lasting World.init guardedInTurn := by
  refine ⟨trivial, ?_, ?_, ?_, trivial, ?_, trivial⟩
  all_goals
    simp only [Lasting]
    decide +kernel

theorem concurrency_cap_of_guard_waits_in_turn :
    Trace.Always (World.step demoService) (demoService.WithinCap "a") World.init
      guardedInTurn := by
  refine (demoService.concurrency_cap_of_guard_waits "a" guardedInTurn_lasting).1
    (by decide +kernel) ?_
  refine Trace.Along.and ?_ (by decide +kernel)
  refine ⟨trivial, trivial, trivial, trivial, ?_, trivial, trivial⟩
  change ∀ r ∈ (Trace.run (World.step demoService) World.init
    (guardedInTurn.take 4)).redis.resv "u1", r.runId = "a"
  decide +kernel

def repeatedCalls : List Op :=
  [.createRun demoRun, .precall demoPrecall "u1", .precall demoPrecall "u2",
    .precall demoPrecall "u3", .precall demoPrecall "u4", .precall demoPrecall "u5"]

theorem guard_admits_over_cap :
    Trace.Along (World.step demoService) Lasting World.init repeatedCalls ∧
      demoService.settings.policies.maxConcurrent = 4 ∧
      (Trace.run (World.step demoService) World.init repeatedCalls).book.openCalls "a" = 5 ∧
      ¬ Trace.Always (World.step demoService) (demoService.WithinCap "a") World.init
        repeatedCalls := by
  have hfive : (Trace.run (World.step demoService) World.init repeatedCalls).book.openCalls "a" =
      5 := by decide +kernel
  have hlasting : Trace.Along (World.step demoService) Lasting World.init repeatedCalls := by
    refine ⟨trivial, ?_, ?_, ?_, ?_, ?_, trivial⟩
    all_goals
      simp only [Lasting]
      decide +kernel
  refine ⟨hlasting, rfl, hfive, fun h => ?_⟩
  have hcap : (_ : ℤ) ≤ 4 := h repeatedCalls [] (List.append_nil _).symm
  rw [hfive] at hcap
  omega

end Example

end RunLedger
