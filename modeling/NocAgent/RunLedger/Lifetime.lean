import NocAgent.RunLedger.Settlement

namespace RunLedger

def Tracked (w : World) : Prop := ∀ R, w.book.origin R ≠ none → w.redis.run R ≠ none

def CreatesNothing (svc : RunLedgerService) (w : World) : Op → Prop
  | .postcall body => ∀ R, w.redis.run R = none → (svc.postcall body w.redis).run R = none
  | _ => True

def StartsFresh (svc : RunLedgerService) (w : World) : Op → Prop
  | .createRun body => w.book.origin body.runId = none →
      (svc.createRun body w.redis).1.run body.runId = some (svc.freshRun body)
  | _ => True

def SettlesExistingRun (w : World) : Op → Prop
  | .postcall body =>
    w.redis.resv body.reservationId ≠ none → w.redis.run body.runId ≠ none
  | _ => True

def Initialised (svc : RunLedgerService) (w : World) : Prop :=
  ∀ R h, w.redis.run R = some h → ∃ body, w.book.origin R = some body ∧
    h.budgetMicros = some body.budgetMicros ∧ 0 < body.budgetMicros ∧
      h.identity = (svc.freshRun body).identity

section Step
variable {svc : RunLedgerService} {w : World}

theorem createsNothing_iff (op : Op) : CreatesNothing svc w op ↔ SettlesExistingRun w op := by
  cases op with
  | postcall body =>
    constructor
    · intro h hr hrun
      obtain ⟨r, hr⟩ := Option.ne_none_iff_exists'.mp hr
      have hgone := h body.runId hrun
      rw [svc.run_postcall hr, if_pos rfl] at hgone
      cases hgone
    · intro h R hR
      cases hr : w.redis.resv body.reservationId with
      | none => rwa [svc.postcall_of_resv_none hr]
      | some r =>
        have hne : R ≠ body.runId := by
          rintro rfl
          exact h (by simp [hr]) hR
        rwa [svc.run_postcall hr, if_neg hne]
  | _ => exact Iff.rfl

theorem begin_origin (b : Book) (body : RunCreateRequest) (R : String) :
    (b.begin body).origin R =
      if R = body.runId then some ((b.origin body.runId).getD body) else b.origin R := by
  unfold Book.begin
  by_cases hR : R = body.runId <;> cases ho : b.origin body.runId <;> simp [hR, ho]

theorem report_origin (b : Book) (body : PostcallRequest) : (b.report body).origin = b.origin := by
  unfold Book.report
  split <;> rfl

theorem record_origin_precall (body : PrecallRequest) (uuid : String) :
    (w.record svc (.precall body uuid)).origin = w.book.origin := by
  simp only [World.record]
  split <;> rfl

theorem run_precall (svc : RunLedgerService) (body : PrecallRequest) (uuid R : String) :
    (w.step svc (.precall body uuid)).redis.run R = w.redis.run R ∨
      ∃ h h', w.redis.run R = some h ∧ (w.step svc (.precall body uuid)).redis.run R = some h' ∧
        h'.identity = h.identity := by
  change (svc.precall body uuid w.redis).1.run R = w.redis.run R ∨ ∃ h h', w.redis.run R = some h ∧
    (svc.precall body uuid w.redis).1.run R = some h' ∧ h'.identity = h.identity
  cases ha : svc.admission body w.redis with
  | none => exact .inl (by rw [svc.precall_none ha])
  | some p =>
    have hrun := (svc.admission_eq_some.mp ha).1
    rw [svc.precall_some ha, svc.run_reserve]
    split_ifs with hR
    · rw [hR, hrun]
      exact .inr ⟨p.1, _, rfl, rfl, rfl⟩
    · exact .inl rfl

theorem Tracked.step (hw : Tracked w) (op : Op) : Tracked (w.step svc op) := by
  intro R ho
  cases op with
  | createRun body =>
    change (w.book.begin body).origin R ≠ none at ho
    change (svc.createRun body w.redis).1.run R ≠ none
    rw [begin_origin] at ho
    rw [svc.run_createRun]
    split_ifs at ho ⊢
    · simp
    · exact hw R ho
  | precall body uuid =>
    change (w.record svc (.precall body uuid)).origin R ≠ none at ho
    rw [record_origin_precall] at ho
    exact svc.run_apply_ne_none (.precall body uuid) trivial (hw R ho)
  | postcall body =>
    change (w.book.report body).origin R ≠ none at ho
    rw [report_origin] at ho
    exact svc.run_apply_ne_none (.postcall body) trivial (hw R ho)
  | tick seconds =>
    intro hrun
    exact ho (if_pos hrun)

theorem startsFresh (hi : Initialised svc w) (op : Op) : StartsFresh svc w op := by
  cases op with
  | createRun body =>
    intro ho
    rw [svc.run_createRun, if_pos rfl]
    cases hrun : w.redis.run body.runId with
    | none => rfl
    | some h =>
      obtain ⟨_, hsome, -⟩ := hi _ h hrun
      rw [ho] at hsome
      cases hsome
  | _ => trivial

theorem Initialised.createRun (hw : Tracked w) (hi : Initialised svc w) (body : RunCreateRequest) :
    Initialised svc (w.step svc (.createRun body)) := by
  intro R h hR
  change (svc.createRun body w.redis).1.run R = some h at hR
  change ∃ body', (w.book.begin body).origin R = some body' ∧ _
  rw [begin_origin]
  rw [svc.run_createRun] at hR
  split_ifs at hR ⊢
  · cases hrun : w.redis.run body.runId with
    | none =>
      have ho : w.book.origin body.runId = none := by
        by_contra ho
        exact hw _ ho hrun
      rw [hrun] at hR
      cases hR
      exact ⟨body, by rw [ho, Option.getD_none], rfl, body.budget_pos, rfl⟩
    | some h' =>
      rw [hrun] at hR
      cases hR
      obtain ⟨body', ho, hrest⟩ := hi _ h' hrun
      exact ⟨body', by rw [ho, Option.getD_some], hrest⟩
  · exact hi R h hR

theorem Initialised.precall (hi : Initialised svc w) (body : PrecallRequest) (uuid : String) :
    Initialised svc (w.step svc (.precall body uuid)) := by
  intro R h hR
  change ∃ body', (w.record svc (.precall body uuid)).origin R = some body' ∧ _
  rw [record_origin_precall]
  rcases run_precall svc body uuid R with hsame | ⟨h₀, h₁, hbefore, hafter, hid⟩
  · exact hi R h (hsame.symm.trans hR)
  · rw [hR] at hafter
    cases hafter
    obtain ⟨body', ho, hb, hpos, hident⟩ := hi R h₀ hbefore
    exact ⟨body', ho, (congrArg Prod.fst hid).trans hb, hpos, hid.trans hident⟩

theorem Initialised.postcall (hi : Initialised svc w) {body : PostcallRequest}
    (hex : SettlesExistingRun w (.postcall body)) :
    Initialised svc (w.step svc (.postcall body)) := by
  intro R h hR
  change (svc.postcall body w.redis).run R = some h at hR
  change ∃ body', (w.book.report body).origin R = some body' ∧ _
  rw [report_origin]
  cases hr : w.redis.resv body.reservationId with
  | none =>
    rw [svc.postcall_of_resv_none hr] at hR
    exact hi R h hR
  | some r =>
    rw [svc.run_postcall hr] at hR
    split_ifs at hR with hRb
    · obtain ⟨h₀, hrun⟩ := Option.ne_none_iff_exists'.mp (hex (by simp [hr]))
      rw [hrun] at hR
      cases hR
      obtain ⟨body', ho, hb, hpos, hident⟩ := hi _ h₀ hrun
      exact ⟨body', by rw [hRb, ho], by simp [hb], hpos, by simp [hident]⟩
    · exact hi R h hR

theorem settlesExistingRun_of_initialised (hw : Tracked w) {body : PostcallRequest}
    (hafter : Initialised svc (w.step svc (.postcall body))) :
    SettlesExistingRun w (.postcall body) := by
  intro hr hrun
  obtain ⟨r, hr⟩ := Option.ne_none_iff_exists'.mp hr
  have hmade : (w.step svc (.postcall body)).redis.run body.runId = some _ :=
    (svc.run_postcall hr body.runId).trans (if_pos rfl)
  obtain ⟨_, ho, -⟩ := hafter _ _ hmade
  change (w.book.report body).origin _ = _ at ho
  rw [report_origin] at ho
  exact hw body.runId (by simp [ho]) hrun

theorem Initialised.tick (hi : Initialised svc w) (seconds : ℕ) :
    Initialised svc (w.step svc (.tick seconds)) := by
  intro R h hR
  change (w.redis.tick seconds).run R = some h at hR
  change ∃ body', (w.book.forget (w.redis.tick seconds)).origin R = some body' ∧ _
  have ho : (w.book.forget (w.redis.tick seconds)).origin R = w.book.origin R :=
    if_neg (by simp [hR])
  rw [ho]
  exact hi R h (Keyspace.get_of_purge hR)

theorem Initialised.step_iff (hw : Tracked w) (hi : Initialised svc w) (op : Op) :
    Initialised svc (w.step svc op) ↔ SettlesExistingRun w op := by
  cases op with
  | createRun body => exact iff_of_true (hi.createRun hw body) trivial
  | precall body uuid => exact iff_of_true (hi.precall body uuid) trivial
  | postcall body => exact ⟨settlesExistingRun_of_initialised hw, hi.postcall⟩
  | tick seconds => exact iff_of_true (hi.tick seconds) trivial

end Step

theorem tracked_init : Tracked World.init := fun _ h => absurd rfl h

theorem initialised_init (svc : RunLedgerService) : Initialised svc World.init :=
  fun _ _ h => by cases h

theorem RunLedgerService.every_stored_run_created_iff (svc : RunLedgerService) (ops : List Op) :
    (Trace.Always (World.step svc) (Initialised svc) World.init ops ∧
        Trace.Along (World.step svc) (CreatesNothing svc) World.init ops ∧
          Trace.Along (World.step svc) (StartsFresh svc) World.init ops) ↔
      Trace.Along (World.step svc) SettlesExistingRun World.init ops := by
  have halways : Trace.Always (World.step svc) (Initialised svc) World.init ops ↔
      Trace.Along (World.step svc) SettlesExistingRun World.init ops :=
    Trace.always_iff_along (I := Initialised svc) (J := Tracked) (fun _ op hw _ => hw.step op)
      (fun _ op hw hi _ => hi.step_iff hw op) tracked_init (initialised_init svc)
      (Trace.along_trivial _ _)
  constructor
  · rintro ⟨h, -, -⟩
    exact halways.mp h
  · intro h
    have hi := halways.mpr h
    refine ⟨hi, h.mono fun _ op => (createsNothing_iff op).mpr, ?_⟩
    exact (Trace.along_iff _ _).mpr fun pre l post hls => startsFresh (hi pre (l :: post) hls) l

section Example

def briefRun : RunCreateRequest := { demoRun with ttlSeconds := some 60, ttl_pos := by simp }

def lateReport : List Op :=
  [.createRun briefRun, .precall demoPrecall "u", .createRun briefRun, .tick 60,
    .postcall demoPostcall]

theorem late_postcall_revives_run :
    ((Trace.run (World.step demoService) World.init lateReport).redis.run "a").map
        (fun h => (h.budgetMicros, h.inflightMicros, h.spendMicros)) =
        some (none, some (-200), some 200) ∧
      ((Trace.run (World.step demoService) World.init
          (lateReport ++ [.createRun demoRun])).redis.run "a").map RunHash.budgetMicros =
        some none ∧
      ¬ Trace.Always (World.step demoService) (Initialised demoService) World.init lateReport := by
  have hrun : ((Trace.run (World.step demoService) World.init lateReport).redis.run "a").map
      (fun h => (h.budgetMicros, h.inflightMicros, h.spendMicros)) =
      some (none, some (-200), some 200) := by decide +kernel
  refine ⟨hrun, by decide +kernel, fun h => ?_⟩
  obtain ⟨run, hsome, hfields⟩ := Option.map_eq_some_iff.mp hrun
  obtain ⟨body, -, hbudget, -⟩ := h _ [] (List.append_nil _).symm "a" run hsome
  have hnone : run.budgetMicros = none := congrArg Prod.fst hfields
  rw [hnone] at hbudget
  cases hbudget

end Example

end RunLedger
