import NocAgent.RunLedger.Accounting

namespace RunLedger

def Fresh (s : Redis) : Op → Prop
  | .precall _ uuid => s.resv uuid = none
  | _ => True

instance (s : Redis) : (op : Op) → Decidable (Fresh s op)
  | .precall _ uuid => inferInstanceAs (Decidable (s.resv uuid = none))
  | .createRun _ | .postcall _ | .tick _ => isTrue trivial

def RunsSurvive (s : Redis) : Op → Prop
  | .tick seconds => ∀ R, (s.tick seconds).run R = s.run R
  | _ => True

def ReservationsSurvive (s : Redis) : Op → Prop
  | .tick seconds => ∀ k, (s.tick seconds).reservations.get k = s.reservations.get k
  | _ => True

def NamesOwnRun (s : Redis) : Op → Prop
  | .postcall body => ∀ r, s.resv body.reservationId = some r → r.runId = body.runId
  | _ => True

theorem balanced_tick_iff {s : Redis} (ho : Owned s) (hb : Balanced s) {seconds : ℕ}
    (hruns : ∀ R, (s.tick seconds).run R = s.run R) :
    Balanced (s.tick seconds) ↔
      ∀ k, (s.tick seconds).reservations.get k = s.reservations.get k := by
  have hsub : ∀ k, (s.tick seconds).reservations.get k = s.reservations.get k ∨
      (s.tick seconds).reservations.get k = none := fun k => s.reservations.get_purge _ k
  constructor
  · intro hafter k
    rcases hsub k with hk | hk
    · exact hk
    · by_contra hlost
      rw [hk] at hlost
      obtain ⟨r, hr⟩ := Option.ne_none_iff_exists'.mp (Ne.symm hlost)
      obtain ⟨h, hrun⟩ := Option.ne_none_iff_exists'.mp (ho k r hr)
      have hbefore := (hb _ h hrun).2
      have hthen := (hafter _ h (by rw [hruns, hrun])).2
      have hlt : (s.tick seconds).reservations.total (countOf r.runId) <
          s.reservations.total (countOf r.runId) :=
        Keyspace.total_lt_of_lost (countOf_nonneg r.runId) hsub hr hk (by simp [countOf])
      omega
  · exact fun hres => hb.of_same (fun R h hR => ⟨h, by rw [← hruns, hR], rfl, rfl⟩) hres

namespace RunLedgerService
variable (svc : RunLedgerService)

theorem owned_apply {s : Redis} {op : Op} (ho : Owned s) (hr : RunsSurvive s op) :
    Owned (svc.apply s op) := by
  cases op with
  | createRun body => exact svc.owned_createRun ho body
  | precall body uuid =>
    cases ha : svc.admission body s with
    | none =>
      rw [apply, svc.precall_none ha]
      exact ho
    | some p =>
      rw [apply, svc.precall_some ha]
      exact svc.owned_reserve ho body uuid p.1 _ p.2
  | postcall body => exact svc.owned_postcall ho body
  | tick seconds =>
    intro k r hk
    rw [apply, hr]
    exact ho k r (Keyspace.get_of_purge hk)

theorem covered_apply (hp : svc.settings.PricesNonneg) {s : Redis} (hc : Covered s) (op : Op) :
    Covered (svc.apply s op) := by
  cases op with
  | createRun body =>
    exact hc.of_subset fun k r hk => (svc.reservations_createRun body s k).symm.trans hk
  | precall body uuid =>
    cases ha : svc.admission body s with
    | none => rwa [apply, svc.precall_none ha]
    | some p =>
      rw [apply, svc.precall_some ha]
      exact svc.covered_reserve hc (svc.admission_reserveMicros_nonneg hp ha) body uuid p.1 _
  | postcall body =>
    refine hc.of_subset fun k r hk => ?_
    rw [apply, reservations_postcall] at hk
    split_ifs at hk
    exact hk
  | tick seconds => exact hc.of_subset fun k r hk => Keyspace.get_of_purge hk

theorem balanced_apply_iff {s : Redis} {op : Op} (ho : Owned s) (hb : Balanced s)
    (hf : Fresh s op) (hr : RunsSurvive s op) :
    Balanced (svc.apply s op) ↔ ReservationsSurvive s op ∧ NamesOwnRun s op := by
  cases op with
  | createRun body =>
    simpa [apply, ReservationsSurvive, NamesOwnRun] using svc.balanced_createRun ho hb body
  | precall body uuid =>
    suffices Balanced (svc.precall body uuid s).1 by
      simpa [apply, ReservationsSurvive, NamesOwnRun] using this
    cases ha : svc.admission body s with
    | none => rwa [svc.precall_none ha]
    | some p =>
      rw [svc.precall_some ha]
      have hrun := (svc.admission_eq_some.mp ha).1
      exact svc.balanced_reserve hb hf (by simp [hrun]) p.1 _ p.2
  | postcall body =>
    simpa [apply, ReservationsSurvive, NamesOwnRun] using svc.balanced_postcall_iff ho hb body
  | tick seconds =>
    simpa [apply, ReservationsSurvive, NamesOwnRun] using balanced_tick_iff ho hb hr

theorem owned_empty : Owned Redis.empty := fun _ _ h => by cases h

theorem balanced_empty : Balanced Redis.empty := fun _ _ h => by cases h

theorem balanced_iff_no_reservation_expires {ops : List Op}
    (hD : Trace.Along svc.apply (fun s op => Fresh s op ∧ RunsSurvive s op) .empty ops) :
    Trace.Always svc.apply Balanced .empty ops ↔
      Trace.Along svc.apply (fun s op => ReservationsSurvive s op ∧ NamesOwnRun s op) .empty ops :=
  Trace.always_iff_along (fun _ _ ho hd => svc.owned_apply ho hd.2)
    (fun _ _ ho hb hd => svc.balanced_apply_iff ho hb hd.1 hd.2) owned_empty balanced_empty hD

end RunLedgerService

section Example

def demoService : RunLedgerService where
  settings := { modelPrices := fun model =>
    if model = "gpt" then some { prompt := some (1 / 1000), completion := some (2 / 1000) }
    else none }

def demoRun : RunCreateRequest where
  runId := "a"
  budgetMicros := 500000
  runId_nonempty := by simp
  budget_pos := by norm_num
  ttl_pos := by simp

def demoPrecall : PrecallRequest where
  runId := "a"
  step := "1"
  model := "gpt"
  estInputTokens := 100
  maxOutputTokens := some 50
  promptHash := "p"

def demoPostcall : PostcallRequest where
  runId := "a"
  reservationId := "u"
  inputTokens := 100
  outputTokens := 50

theorem balanced_iff_no_reservation_expires_settled :
    Trace.Always demoService.apply Balanced .empty
        [.createRun demoRun, .precall demoPrecall "u", .postcall demoPostcall] ↔
      Trace.Along demoService.apply (fun s op => ReservationsSurvive s op ∧ NamesOwnRun s op)
        .empty [.createRun demoRun, .precall demoPrecall "u", .postcall demoPostcall] :=
  demoService.balanced_iff_no_reservation_expires
    ⟨⟨trivial, trivial⟩, ⟨by decide +kernel, trivial⟩, ⟨trivial, trivial⟩, trivial⟩

theorem expired_reservation_strands_capacity :
    Trace.Along demoService.apply (fun s op => Fresh s op ∧ RunsSurvive s op) .empty
        [.createRun demoRun, .precall demoPrecall "u", .tick 120] ∧
      (Trace.run demoService.apply .empty
          [.createRun demoRun, .precall demoPrecall "u", .tick 120]).reservations.total
        (countOf "a") = 0 ∧
      ((Trace.run demoService.apply .empty
          [.createRun demoRun, .precall demoPrecall "u", .tick 120]).run "a").map
        (fun h => (h.inflightMicros, h.concurrent)) = some (some 200, some 1) ∧
      ¬ Trace.Always demoService.apply Balanced .empty
        [.createRun demoRun, .precall demoPrecall "u", .tick 120] := by
  have hruns : ∀ R, (Trace.run demoService.apply .empty
      [.createRun demoRun, .precall demoPrecall "u", .tick 120]).run R =
      (Trace.run demoService.apply .empty [.createRun demoRun, .precall demoPrecall "u"]).run R :=
    fun R => Keyspace.get_purge_of_live (by decide +kernel) (runKey R)
  have htotal : (Trace.run demoService.apply .empty
      [.createRun demoRun, .precall demoPrecall "u", .tick 120]).reservations.total
        (countOf "a") = 0 := by decide +kernel
  have hcounters : ((Trace.run demoService.apply .empty
      [.createRun demoRun, .precall demoPrecall "u", .tick 120]).run "a").map
        (fun h => (h.inflightMicros, h.concurrent)) = some (some 200, some 1) := by decide +kernel
  refine ⟨⟨⟨trivial, trivial⟩, ⟨by decide +kernel, trivial⟩, ⟨trivial, hruns⟩, trivial⟩,
    htotal, hcounters, fun h => ?_⟩
  obtain ⟨run, hrun, hpair⟩ := Option.map_eq_some_iff.mp hcounters
  have hone := (h _ [] (List.append_nil _).symm "a" run hrun).2
  have hconc : run.concurrent = some 1 := congrArg Prod.snd hpair
  rw [htotal, hconc] at hone
  cases hone

end Example

end RunLedger
