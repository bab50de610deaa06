import NocAgent.RunLedger.Expiry

namespace RunLedger

def Issue.payload (i : Issue) : Reservation := ⟨i.runId, i.reservedMicros, i.model⟩

namespace Book
variable {b : Book}

theorem outstanding_mem {id : String} {i : Issue} (h : b.outstanding id = some i) :
    i ∈ b.issued ∧ i.reservationId = id := by
  unfold outstanding at h
  split_ifs at h
  exact ⟨List.mem_of_find?_eq_some h, by simpa using List.find?_some h⟩

theorem outstanding_eq_none_of_not_issued {id : String}
    (h : ∀ i ∈ b.issued, i.reservationId ≠ id) : b.outstanding id = none := by
  cases ho : b.outstanding id with
  | none => rfl
  | some i => exact absurd (outstanding_mem ho).2 (h i (outstanding_mem ho).1)

theorem outstanding_eq_none_of_settled {p : Issue × PostcallRequest} (h : p ∈ b.settled) :
    b.outstanding p.1.reservationId = none := by
  have hs : b.isSettled p.1.reservationId = true := List.any_eq_true.mpr ⟨p, h, by simp⟩
  rw [outstanding, if_pos hs]

theorem outstanding_issue {i : Issue} (hfresh : ∀ j ∈ b.issued, j.reservationId ≠ i.reservationId)
    (hsettled : ∀ p ∈ b.settled, p.1 ∈ b.issued) (id : String) :
    (b.issue i).outstanding id = if id = i.reservationId then some i else b.outstanding id := by
  have hs : (b.issue i).isSettled id = b.isSettled id := rfl
  split_ifs with hid
  · have hopen : b.isSettled i.reservationId = false := by
      rw [isSettled, List.any_eq_false]
      intro p hp
      simpa using hfresh p.1 (hsettled p hp)
    rw [outstanding, hs, hid, hopen]
    simp [issue]
  · have hne : ¬ i.reservationId = id := fun e => hid e.symm
    simp only [outstanding, hs]
    simp [issue, hne]

theorem outstanding_report (body : PostcallRequest) (id : String) :
    (b.report body).outstanding id =
      if id = body.reservationId then none else b.outstanding id := by
  unfold report
  cases ho : b.outstanding body.reservationId with
  | none =>
    split_ifs with hid
    · rw [hid, ho]
    · rfl
  | some i =>
    have hi : i.reservationId = body.reservationId := (outstanding_mem ho).2
    split_ifs with hid
    · subst hid
      simp [outstanding, isSettled, hi]
    · have hne : ¬ body.reservationId = id := fun e => hid e.symm
      have hs : ({ b with settled := (i, body) :: b.settled } : Book).isSettled id =
          b.isSettled id := by
        simp [isSettled, hi, hne]
      unfold outstanding
      rw [hs]

theorem spend_report_none {body : PostcallRequest} (h : b.outstanding body.reservationId = none)
    (svc : RunLedgerService) (R : String) : (b.report body).spend svc R = b.spend svc R := by
  simp only [report, h]

theorem spend_report_some {body : PostcallRequest} {i : Issue}
    (h : b.outstanding body.reservationId = some i) (svc : RunLedgerService) (R : String) :
    (b.report body).spend svc R =
      b.spend svc R + if i.runId = R then svc.settleCost body i.payload else 0 := by
  have hcost : svc.settleCost body i.payload =
      if body.failed = true then 0 else callCost svc (i, body) := rfl
  simp only [report, h, spend]
  by_cases hR : i.runId = R <;> cases hf : body.failed <;> simp [hR, hf, hcost, add_comm]

theorem mem_settled_report {body : PostcallRequest} {p : Issue × PostcallRequest}
    (hp : p ∈ (b.report body).settled) :
    p ∈ b.settled ∨ b.outstanding body.reservationId = some p.1 := by
  unfold report at hp
  cases ho : b.outstanding body.reservationId with
  | none =>
    rw [ho] at hp
    exact .inl hp
  | some i =>
    rw [ho] at hp
    rcases List.mem_cons.mp hp with rfl | hp
    · exact .inr rfl
    · exact .inl hp

@[simp] theorem begin_issued (body : RunCreateRequest) : (b.begin body).issued = b.issued := by
  unfold begin
  split <;> rfl

@[simp] theorem begin_settled (body : RunCreateRequest) : (b.begin body).settled = b.settled := by
  unfold begin
  split <;> rfl

@[simp] theorem report_issued (body : PostcallRequest) : (b.report body).issued = b.issued := by
  unfold report
  split <;> rfl

theorem outstanding_congr {b' : Book} (hi : b'.issued = b.issued) (hs : b'.settled = b.settled)
    (id : String) : b'.outstanding id = b.outstanding id := by
  unfold outstanding isSettled
  rw [hi, hs]

theorem spend_congr {b' : Book} (hs : b'.settled = b.settled) (svc : RunLedgerService)
    (R : String) : b'.spend svc R = b.spend svc R := by
  simp only [spend, hs]

theorem spend_eq_zero {svc : RunLedgerService} {R : String}
    (h : ∀ p ∈ b.settled, p.1.runId ≠ R) : b.spend svc R = 0 := by
  have hnil : (b.settled.filter fun p => p.1.runId = R ∧ p.2.failed = false) = [] := by
    rw [List.filter_eq_nil_iff]
    intro p hp
    simp [h p hp]
  simp only [spend, hnil, List.map_nil, List.sum_nil]

end Book

def Orderly (w : World) : Op → Prop
  | .createRun _ => True
  | .precall _ uuid => ∀ i ∈ w.book.issued, i.reservationId ≠ uuid
  | .postcall body =>
    ∀ i ∈ w.book.issued, i.reservationId = body.reservationId → i.runId = body.runId
  | .tick seconds =>
    (∀ R, (w.redis.tick seconds).run R = w.redis.run R) ∧
      ∀ k, (w.redis.tick seconds).reservations.get k = w.redis.reservations.get k

structure Refines (svc : RunLedgerService) (w : World) : Prop where
  owned : Owned w.redis
  balanced : Balanced w.redis
  stored : ∀ id, w.redis.resv id = (w.book.outstanding id).map Issue.payload
  settled : ∀ p ∈ w.book.settled, p.1 ∈ w.book.issued
  known : ∀ p ∈ w.book.settled, w.redis.run p.1.runId ≠ none
  spend : ∀ R h, w.redis.run R = some h → toInt h.spendMicros = w.book.spend svc R

namespace Refines
variable {svc : RunLedgerService} {w : World}

theorem init : Refines svc World.init where
  owned := RunLedgerService.owned_empty
  balanced := RunLedgerService.balanced_empty
  stored _ := rfl
  settled _ h := by cases h
  known _ h := by cases h
  spend _ _ h := by cases h

theorem createRun (hw : Refines svc w) (body : RunCreateRequest) :
    Refines svc (w.step svc (.createRun body)) where
  owned := svc.owned_createRun hw.owned body
  balanced := svc.balanced_createRun hw.owned hw.balanced body
  stored id := by
    have hb := Book.outstanding_congr (b := w.book) (Book.begin_issued body)
      (Book.begin_settled body) id
    change (svc.createRun body w.redis).1.reservations.get _ =
      ((w.book.begin body).outstanding id).map Issue.payload
    rw [svc.reservations_createRun, hb]
    exact hw.stored id
  settled := by simpa [World.step, World.record] using hw.settled
  known p hp := by
    have hknown := hw.known p (by simpa [World.step, World.record] using hp)
    change (svc.createRun body w.redis).1.run _ ≠ none
    rw [svc.run_createRun]
    split_ifs
    · simp
    · exact hknown
  spend R h hR := by
    change (svc.createRun body w.redis).1.run R = some h at hR
    change _ = (w.book.begin body).spend svc R
    rw [Book.spend_congr (Book.begin_settled body)]
    rw [svc.run_createRun] at hR
    split_ifs at hR with hRb
    · subst hRb
      cases hrun : w.redis.run body.runId with
      | none =>
        rw [hrun] at hR
        cases hR
        rw [Book.spend_eq_zero]
        · rfl
        · rintro p hp he
          exact hw.known p hp (by rw [he, hrun])
      | some h' =>
        rw [hrun] at hR
        cases hR
        exact hw.spend _ _ hrun
    · exact hw.spend R h hR

theorem precall (hw : Refines svc w) (body : PrecallRequest) {uuid : String}
    (hfresh : ∀ i ∈ w.book.issued, i.reservationId ≠ uuid) :
    Refines svc (w.step svc (.precall body uuid)) := by
  cases ha : svc.admission body w.redis with
  | none => rwa [World.step_precall_none ha]
  | some p =>
    obtain ⟨current, d⟩ := p
    obtain ⟨hrun, -, -⟩ := svc.admission_eq_some.mp ha
    have hnone : w.redis.resv uuid = none := by
      rw [hw.stored, Book.outstanding_eq_none_of_not_issued hfresh, Option.map_none]
    rw [World.step_precall_some ha]
    refine ⟨svc.owned_reserve hw.owned body uuid current _ d,
      svc.balanced_reserve hw.balanced hnone (by simp [hrun]) current _ d,
      fun id => ?_, fun p hp => List.mem_cons_of_mem _ (hw.settled p hp), fun p hp => ?_,
      fun R h hR => ?_⟩
    · rw [Book.outstanding_issue hfresh hw.settled, Redis.resv, svc.reservations_reserve]
      by_cases hid : id = uuid
      · simp [hid, Issue.payload]
      · simpa [hid, Redis.resv] using hw.stored id
    · rw [svc.run_reserve]
      split_ifs
      · simp
      · exact hw.known p hp
    · rw [svc.run_reserve] at hR
      split_ifs at hR with hRb
      · subst hRb
        rw [hrun] at hR
        cases hR
        change toInt current.spendMicros = _
        exact hw.spend _ _ hrun
      · exact hw.spend R h hR

theorem postcall (hw : Refines svc w) (body : PostcallRequest)
    (hname : ∀ i ∈ w.book.issued, i.reservationId = body.reservationId → i.runId = body.runId) :
    Refines svc (w.step svc (.postcall body)) := by
  change Refines svc ⟨svc.postcall body w.redis, w.book.report body⟩
  have hmem : ∀ p ∈ (w.book.report body).settled, p.1 ∈ w.book.issued := by
    intro p hp
    rcases Book.mem_settled_report hp with hp | hp
    · exact hw.settled p hp
    · exact (Book.outstanding_mem hp).1
  have howned : Owned (svc.postcall body w.redis) := svc.owned_postcall hw.owned body
  have hstored : ∀ id, (svc.postcall body w.redis).resv id =
      ((w.book.report body).outstanding id).map Issue.payload := by
    intro id
    rw [Book.outstanding_report, Redis.resv, svc.reservations_postcall]
    by_cases hid : id = body.reservationId
    · simp [hid]
    · simpa [hid, Redis.resv] using hw.stored id
  cases ho : w.book.outstanding body.reservationId with
  | none =>
    have hr : w.redis.resv body.reservationId = none := by rw [hw.stored, ho, Option.map_none]
    have hsame := svc.postcall_of_resv_none hr
    have hbook : w.book.report body = w.book := by simp only [Book.report, ho]
    rw [hsame, hbook]
    exact hw
  | some i =>
    have hr : w.redis.resv body.reservationId = some i.payload := by
      rw [hw.stored, ho, Option.map_some]
    obtain ⟨hi, hid⟩ := Book.outstanding_mem ho
    have hrunId : i.runId = body.runId := hname i hi hid
    obtain ⟨h₀, hrun⟩ := Option.ne_none_iff_exists'.mp (hw.owned _ i.payload hr)
    change w.redis.run i.runId = some h₀ at hrun
    refine ⟨howned, ?_, hstored, fun p hp => by simpa using hmem p hp, fun p hp => ?_,
      fun R h hR => ?_⟩
    · refine (svc.balanced_postcall_iff hw.owned hw.balanced body).mpr fun r hr' => ?_
      rw [hr] at hr'
      cases hr'
      exact hrunId
    · rw [svc.run_postcall hr]
      split_ifs with hp'
      · simp
      · rcases Book.mem_settled_report hp with hp | hp
        · exact hw.known p hp
        · rw [ho] at hp
          cases hp
          exact absurd hrunId hp'
    · rw [svc.run_postcall hr] at hR
      rw [Book.spend_report_some ho, hrunId]
      by_cases hRb : R = body.runId
      · subst hRb
        rw [if_pos rfl, ← hrunId, hrun] at hR
        cases hR
        rw [RunLedgerService.closedHash_spend, svc.settledHash_spend, Option.getD_some,
          hw.spend _ _ hrun, hrunId, if_pos rfl]
      · rw [if_neg hRb] at hR
        rw [if_neg (Ne.symm hRb), add_zero]
        exact hw.spend R h hR

theorem tick (hw : Refines svc w) {seconds : ℕ}
    (hruns : ∀ R, (w.redis.tick seconds).run R = w.redis.run R)
    (hres : ∀ k, (w.redis.tick seconds).reservations.get k = w.redis.reservations.get k) :
    Refines svc (w.step svc (.tick seconds)) where
  owned k r hk := by
    change (w.redis.tick seconds).run r.runId ≠ none
    rw [hruns]
    exact hw.owned k r (by rw [← hres]; exact hk)
  balanced := (balanced_tick_iff hw.owned hw.balanced hruns).mpr hres
  stored id := (hres _).trans (hw.stored id)
  settled := hw.settled
  known p hp := by
    change (w.redis.tick seconds).run p.1.runId ≠ none
    rw [hruns]
    exact hw.known p hp
  spend R h hR := hw.spend R h (by rw [← hruns]; exact hR)

theorem step (hw : Refines svc w) {op : Op} (ho : Orderly w op) : Refines svc (w.step svc op) := by
  cases op with
  | createRun body => exact hw.createRun body
  | precall body uuid => exact hw.precall body ho
  | postcall body => exact hw.postcall body ho
  | tick seconds => exact hw.tick ho.1 ho.2

theorem run {ops : List Op} (ho : Trace.Along (World.step svc) Orderly World.init ops) :
    Refines svc (Trace.run (World.step svc) World.init ops) :=
  Trace.invariant (fun _ _ hw ho => hw.step ho) init ho

theorem postcall_of_not_outstanding (hw : Refines svc w) {body : PostcallRequest}
    (h : w.book.outstanding body.reservationId = none) : svc.postcall body w.redis = w.redis :=
  svc.postcall_of_resv_none (by rw [hw.stored, h, Option.map_none])

end Refines

namespace RunLedgerService
variable (svc : RunLedgerService)

theorem settleCost_nonneg (hp : svc.settings.PricesNonneg) (body : PostcallRequest)
    (r : Reservation) : 0 ≤ svc.settleCost body r := by
  obtain ⟨hin, hout⟩ := hp (settleModel body r)
  unfold settleCost
  split_ifs
  · exact le_rfl
  · exact HalfEven.round_nonneg (by positivity)

theorem run_apply_ne_none {s : Redis} (op : Op) (hr : RunsSurvive s op) {R : String}
    (hR : s.run R ≠ none) : (svc.apply s op).run R ≠ none := by
  cases op with
  | createRun body =>
    rw [apply, run_createRun]
    split_ifs
    · simp
    · exact hR
  | precall body uuid =>
    cases ha : svc.admission body s with
    | none => rwa [apply, svc.precall_none ha]
    | some p =>
      rw [apply, svc.precall_some ha, run_reserve]
      split_ifs
      · simp
      · exact hR
  | postcall body =>
    cases hr : s.resv body.reservationId with
    | none => rwa [apply, svc.postcall_of_resv_none hr]
    | some r =>
      rw [apply, svc.run_postcall hr]
      split_ifs
      · simp
      · exact hR
  | tick seconds => rwa [apply, hr]

end RunLedgerService

theorem Book.spend_le_report {svc : RunLedgerService} (hp : svc.settings.PricesNonneg) (b : Book)
    (body : PostcallRequest) (R : String) : b.spend svc R ≤ (b.report body).spend svc R := by
  cases ho : b.outstanding body.reservationId with
  | none => rw [spend_report_none ho]
  | some i =>
    have hcost := svc.settleCost_nonneg hp body i.payload
    rw [spend_report_some ho]
    split_ifs <;> omega

theorem World.spend_le_record {svc : RunLedgerService} (hp : svc.settings.PricesNonneg) (w : World)
    (op : Op) (R : String) : w.book.spend svc R ≤ (w.record svc op).spend svc R := by
  cases op with
  | createRun body => exact (Book.spend_congr (Book.begin_settled body) svc R).ge
  | precall body uuid =>
    simp only [record]
    split
    · exact le_rfl
    · exact le_rfl
  | postcall body => exact w.book.spend_le_report hp body R
  | tick seconds => exact le_rfl

theorem Orderly.runsSurvive {w : World} {op : Op} (ho : Orderly w op) :
    RunsSurvive w.redis op := by
  cases op with
  | tick seconds => exact ho.1
  | _ => trivial

structure Sound (s : Redis) : Prop where
  owned : Owned s
  balanced : Balanced s
  covered : Covered s

theorem Sound.of_run {svc : RunLedgerService} (hp : svc.settings.PricesNonneg) {ops : List Op}
    (ho : Trace.Along (World.step svc) Orderly World.init ops) :
    Sound (Trace.run (World.step svc) World.init ops).redis := by
  have hw := Refines.run ho
  refine ⟨hw.owned, hw.balanced, ?_⟩
  exact Trace.invariant (I := fun w : World => Covered w.redis)
    (fun w op hc _ => svc.covered_apply hp hc op) (fun _ _ h => by cases h) ho

theorem Sound.counters_nonneg {s : Redis} (hs : Sound s) {R : String} {h : RunHash}
    (hR : s.run R = some h) : 0 ≤ toInt h.inflightMicros ∧ 0 ≤ toInt h.concurrent := by
  obtain ⟨hin, hco⟩ := hs.balanced R h hR
  rw [hin, hco]
  exact ⟨hs.covered.total_inflightOf_nonneg R,
    Keyspace.total_nonneg fun _ r _ => countOf_nonneg R r⟩

structure Accounts (svc : RunLedgerService) (w : World) : Prop where
  inflight : ∀ R h, w.redis.run R = some h →
    toInt h.inflightMicros = w.redis.reservations.total (inflightOf R)
  concurrent : ∀ R h, w.redis.run R = some h →
    toInt h.concurrent = w.redis.reservations.total (countOf R)
  spend : ∀ R h, w.redis.run R = some h → toInt h.spendMicros = w.book.spend svc R
  spend_le : ∀ op, Orderly w op → ∀ R h, w.redis.run R = some h →
    ∃ h', (w.step svc op).redis.run R = some h' ∧ toInt h.spendMicros ≤ toInt h'.spendMicros
  postcall_idle : ∀ body : PostcallRequest,
    (∀ i ∈ w.book.issued, i.reservationId ≠ body.reservationId) ∨
      (∃ p ∈ w.book.settled, p.1.reservationId = body.reservationId) →
    svc.postcall body w.redis = w.redis

theorem Refines.accounts {svc : RunLedgerService} (hp : svc.settings.PricesNonneg) {w : World}
    (hw : Refines svc w) : Accounts svc w where
  inflight R h hR := (hw.balanced R h hR).1
  concurrent R h hR := (hw.balanced R h hR).2
  spend := hw.spend
  spend_le op ho R h hR := by
    obtain ⟨h', hR'⟩ := Option.ne_none_iff_exists'.mp
      (svc.run_apply_ne_none op ho.runsSurvive (R := R) (by simp [hR]))
    refine ⟨h', hR', ?_⟩
    rw [hw.spend R h hR, (hw.step ho).spend R h' hR']
    exact w.spend_le_record hp op R
  postcall_idle body hbody := by
    refine hw.postcall_of_not_outstanding ?_
    rcases hbody with hnever | ⟨p, hmem, hid⟩
    · exact Book.outstanding_eq_none_of_not_issued hnever
    · rw [← hid]
      exact Book.outstanding_eq_none_of_settled hmem

theorem RunLedgerService.run_ledger_accounting (svc : RunLedgerService)
    (hp : svc.settings.PricesNonneg) {ops : List Op}
    (ho : Trace.Along (World.step svc) Orderly World.init ops) :
    Trace.Always (World.step svc) (Accounts svc) World.init ops := by
  rintro pre post rfl
  exact (Refines.run ((Trace.along_append _ pre post).mp ho).1).accounts hp

theorem demoService_pricesNonneg : demoService.settings.PricesNonneg := by
  intro model
  by_cases hm : model = "gpt" <;> norm_num [Settings.pricesFor, demoService, hm, Prices.Nonneg]

theorem settled_orderly :
    Trace.Along (World.step demoService) Orderly World.init
      [.createRun demoRun, .precall demoPrecall "u", .postcall demoPostcall] := by
  refine ⟨trivial, ?_, ?_, trivial⟩
  · change ∀ i ∈ (World.init.step demoService (.createRun demoRun)).book.issued,
      i.reservationId ≠ "u"
    decide +kernel
  · change ∀ i ∈ (Trace.run (World.step demoService) World.init
      [.createRun demoRun, .precall demoPrecall "u"]).book.issued, i.reservationId = "u" →
        i.runId = "a"
    decide +kernel

theorem run_ledger_accounting_settled :
    Trace.Always (World.step demoService) (Accounts demoService) World.init
      [.createRun demoRun, .precall demoPrecall "u", .postcall demoPostcall] :=
  demoService.run_ledger_accounting demoService_pricesNonneg settled_orderly

end RunLedger
