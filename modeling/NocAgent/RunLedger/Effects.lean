import NocAgent.RunLedger.Service

namespace RunLedger

def Redis.run (s : Redis) (runId : String) : Option RunHash := s.runs.get (runKey runId)

def Redis.resv (s : Redis) (reservationId : String) : Option Reservation :=
  s.reservations.get (reservationKey reservationId)

def RunHash.counters (h : RunHash) : ℤ × ℤ × ℤ :=
  (toInt h.inflightMicros, toInt h.concurrent, toInt h.spendMicros)

def Redis.counters (s : Redis) (runId : String) : ℤ × ℤ × ℤ := ((s.run runId).getD {}).counters

namespace RunHash
variable (h mapping : RunHash) (n : ℤ) (field : Counter)

@[simp] theorem incrby_halt : (h.incrby n field).halt = h.halt := by cases field <;> rfl

@[simp] theorem incrby_haltReason : (h.incrby n field).haltReason = h.haltReason := by
  cases field <;> rfl

def identity : Option ℤ × List (Option String) :=
  (h.budgetMicros, [h.policySet, h.intent, h.user, h.team, h.task])

@[simp] theorem identity_incrby : (h.incrby n field).identity = h.identity := by
  cases field <;> rfl

end RunHash

namespace RunLedgerService
variable (svc : RunLedgerService)

def reservedHash (body : PrecallRequest) (current : RunHash) (promptHashes : List String)
    (decision : Decision) (h : RunHash) : RunHash :=
  ((h.incrby decision.reserveMicros .inflightMicros).incrby 1 .concurrent).overlay
    { steps := some (max (toInt current.steps) (stepValue body.step))
      steered := some (svc.nextSteered current (mapRun current promptHashes body.step) decision) }

def settledHash (body : PostcallRequest) (reservation : Reservation) (h : RunHash) : RunHash :=
  let h := (h.incrby (-reservation.reservedMicros) .inflightMicros).incrby (-1) .concurrent
  if svc.settleCost body reservation ≠ 0 then
    h.incrby (svc.settleCost body reservation) .spendMicros
  else h

def closedHash (h : RunHash) : RunHash := if overspent h then h.overlay costHalt else h

section Reserve
variable (body : PrecallRequest) (uuid : String) (current : RunHash) (hashes : List String)
  (d : Decision) (s : Redis) (h : RunHash)

@[simp] theorem reservedHash_inflight :
    toInt (svc.reservedHash body current hashes d h).inflightMicros =
      toInt h.inflightMicros + d.reserveMicros := rfl

@[simp] theorem reservedHash_concurrent :
    toInt (svc.reservedHash body current hashes d h).concurrent = toInt h.concurrent + 1 := rfl

@[simp] theorem reservedHash_spend :
    (svc.reservedHash body current hashes d h).spendMicros = h.spendMicros := rfl

theorem run_reserve (R : String) :
    (svc.reserve body uuid current hashes d s).run R =
      if R = body.runId then
        some (svc.reservedHash body current hashes d ((s.run body.runId).getD {}))
      else s.run R := by
  by_cases hR : R = body.runId <;> simp [Redis.run, reserve, reservedHash, hR]

theorem reservations_reserve (k : String) :
    (svc.reserve body uuid current hashes d s).reservations.get k =
      if k = reservationKey uuid then some ⟨body.runId, d.reserveMicros, body.model⟩
      else s.reservations.get k := by
  simp [reserve, Redis.setex, Keyspace.get_put]

theorem total_reserve (w : Reservation → ℤ) :
    (svc.reserve body uuid current hashes d s).reservations.total w =
      s.reservations.total w - (s.resv uuid).elim 0 w +
        w ⟨body.runId, d.reserveMicros, body.model⟩ := by
  have hother : ∀ j, j ≠ reservationKey uuid →
      (svc.reserve body uuid current hashes d s).reservations.get j = s.reservations.get j :=
    fun j hj => by rw [reservations_reserve, if_neg hj]
  rw [Keyspace.total_of_agree w _ hother, reservations_reserve, if_pos rfl]
  rfl

end Reserve

section Settle
variable (body : PostcallRequest) (r : Reservation) (s : Redis) (h : RunHash)

@[simp] theorem settledHash_inflight :
    toInt (svc.settledHash body r h).inflightMicros =
      toInt h.inflightMicros - r.reservedMicros := by
  unfold settledHash
  split_ifs <;> simp [RunHash.incrby, toInt] <;> ring

@[simp] theorem settledHash_concurrent :
    toInt (svc.settledHash body r h).concurrent = toInt h.concurrent - 1 := by
  unfold settledHash
  split_ifs <;> simp [RunHash.incrby, toInt] <;> ring

@[simp] theorem settledHash_spend :
    toInt (svc.settledHash body r h).spendMicros =
      toInt h.spendMicros + svc.settleCost body r := by
  unfold settledHash
  split_ifs with hc
  · simp [RunHash.incrby, toInt]
  · simp [RunHash.incrby, toInt, not_not.mp hc]

@[simp] theorem settledHash_counters :
    (svc.settledHash body r h).counters =
      h.counters + (-r.reservedMicros, -1, svc.settleCost body r) := by
  simp [RunHash.counters, sub_eq_add_neg]

@[simp] theorem settledHash_identity : (svc.settledHash body r h).identity = h.identity := by
  unfold settledHash
  split_ifs <;> simp

@[simp] theorem settledHash_budget :
    (svc.settledHash body r h).budgetMicros = h.budgetMicros :=
  congrArg Prod.fst (svc.settledHash_identity body r h)

@[simp] theorem settledHash_halt : (svc.settledHash body r h).halt = h.halt := by
  unfold settledHash
  split_ifs <;> simp

@[simp] theorem settledHash_haltReason :
    (svc.settledHash body r h).haltReason = h.haltReason := by
  unfold settledHash
  split_ifs <;> simp

theorem run_settle (R : String) :
    (svc.settle body r s).run R =
      if R = body.runId then some (svc.settledHash body r ((s.run body.runId).getD {}))
      else s.run R := by
  by_cases hR : R = body.runId <;> by_cases hc : svc.settleCost body r = 0 <;>
    simp [Redis.run, settle, settledHash, hR, hc]

theorem reservations_settle (k : String) :
    (svc.settle body r s).reservations.get k =
      if k = reservationKey body.reservationId then none else s.reservations.get k := by
  by_cases hc : svc.settleCost body r = 0 <;> simp [settle, Redis.delete, hc]

theorem total_settle (w : Reservation → ℤ) :
    (svc.settle body r s).reservations.total w =
      s.reservations.total w - (s.resv body.reservationId).elim 0 w := by
  have hother : ∀ j, j ≠ reservationKey body.reservationId →
      (svc.settle body r s).reservations.get j = s.reservations.get j :=
    fun j hj => by rw [reservations_settle, if_neg hj]
  rw [Keyspace.total_of_agree w _ hother, reservations_settle, if_pos rfl]
  simp [Redis.resv]

end Settle

section Close
variable (h : RunHash) (runId : String) (s : Redis)

@[simp] theorem closedHash_inflight : (closedHash h).inflightMicros = h.inflightMicros := by
  unfold closedHash
  split_ifs <;> rfl

@[simp] theorem closedHash_concurrent : (closedHash h).concurrent = h.concurrent := by
  unfold closedHash
  split_ifs <;> rfl

@[simp] theorem closedHash_spend : (closedHash h).spendMicros = h.spendMicros := by
  unfold closedHash
  split_ifs <;> rfl

@[simp] theorem closedHash_counters : (closedHash h).counters = h.counters := by
  simp [RunHash.counters]

@[simp] theorem closedHash_identity : (closedHash h).identity = h.identity := by
  unfold closedHash
  split_ifs <;> rfl

@[simp] theorem closedHash_budget : (closedHash h).budgetMicros = h.budgetMicros :=
  congrArg Prod.fst (closedHash_identity h)

@[simp] theorem reservations_haltIfOverspent :
    (haltIfOverspent runId s).reservations = s.reservations := by
  unfold haltIfOverspent
  split
  · rfl
  · split_ifs <;> rfl

theorem run_hset_costHalt (R : String) :
    (s.hset (runKey runId) costHalt).run R =
      if R = runId then some (((s.run runId).getD {}).overlay costHalt) else s.run R := by
  by_cases hR : R = runId <;> simp [Redis.run, hR]

theorem run_haltIfOverspent (R : String) :
    (haltIfOverspent runId s).run R =
      if R = runId then (s.run runId).map closedHash else s.run R := by
  unfold haltIfOverspent
  cases hrun : s.hgetall (runKey runId) with
  | none =>
    have hnone : s.run runId = none := hrun
    split_ifs with hR
    · rw [hR, hnone, Option.map_none]
    · rfl
  | some current =>
    have hsome : s.run runId = some current := hrun
    have hget : s.runs.get (runKey runId) = some current := hrun
    by_cases ho : overspent current <;> by_cases hR : R = runId <;>
      simp [Redis.run, closedHash, ho, hR, hget]

end Close

theorem run_postcall {body : PostcallRequest} {r : Reservation} {s : Redis}
    (hr : s.resv body.reservationId = some r) (R : String) :
    (svc.postcall body s).run R =
      if R = body.runId then
        some (closedHash (svc.settledHash body r ((s.run body.runId).getD {})))
      else s.run R := by
  have hget : s.get (reservationKey body.reservationId) = some r := hr
  simp only [postcall, hget, run_haltIfOverspent, run_settle]
  split_ifs <;> rfl

theorem postcall_of_resv_none {body : PostcallRequest} {s : Redis}
    (hr : s.resv body.reservationId = none) : svc.postcall body s = s := by
  have hget : s.get (reservationKey body.reservationId) = none := hr
  simp only [postcall, hget]

theorem reservations_postcall (body : PostcallRequest) (s : Redis) (k : String) :
    (svc.postcall body s).reservations.get k =
      if k = reservationKey body.reservationId then none else s.reservations.get k := by
  cases hr : s.resv body.reservationId with
  | none =>
    rw [svc.postcall_of_resv_none hr]
    split_ifs with hk
    · rw [hk]
      exact hr
    · rfl
  | some r =>
    have hget : s.get (reservationKey body.reservationId) = some r := hr
    simp only [postcall, hget, reservations_haltIfOverspent, reservations_settle]

theorem run_createRun (body : RunCreateRequest) (s : Redis) (R : String) :
    (svc.createRun body s).1.run R =
      if R = body.runId then some ((s.run body.runId).getD (svc.freshRun body)) else s.run R := by
  cases hrun : s.hgetall (runKey body.runId) with
  | none =>
    have hget : s.runs.get (runKey body.runId) = none := hrun
    by_cases hR : R = body.runId
    · simp only [createRun, hrun, Redis.run, Redis.get_runs_expire, Redis.get_runs_hset, hR,
        if_true, hget, Option.getD_none]
      rfl
    · simp [createRun, hrun, Redis.run, hR]
  | some current =>
    have hget : s.runs.get (runKey body.runId) = some current := hrun
    by_cases hR : R = body.runId <;> simp [createRun, hrun, Redis.run, hR, hget]

theorem reservations_createRun (body : RunCreateRequest) (s : Redis) (k : String) :
    (svc.createRun body s).1.reservations.get k = s.reservations.get k := by
  cases hrun : s.hgetall (runKey body.runId) <;> simp [createRun, hrun]

end RunLedgerService

end RunLedger
