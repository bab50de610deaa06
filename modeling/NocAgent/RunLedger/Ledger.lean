import NocAgent.Library.Trace
import NocAgent.RunLedger.Effects

namespace RunLedger

inductive Op where
  | createRun (body : RunCreateRequest)
  | precall (body : PrecallRequest) (uuid : String)
  | postcall (body : PostcallRequest)
  | tick (seconds : ℕ)

namespace RunLedgerService
variable (svc : RunLedgerService)

def apply (s : Redis) : Op → Redis
  | .createRun body => (svc.createRun body s).1
  | .precall body uuid => (svc.precall body uuid s).1
  | .postcall body => svc.postcall body s
  | .tick seconds => s.tick seconds

def admission (body : PrecallRequest) (s : Redis) : Option (RunHash × Decision) :=
  match s.run body.runId with
  | none => none
  | some current =>
    match svc.decideOn body current (svc.promptHashes s body.runId) with
    | .error _ => none
    | .ok decision => if decision.action.admits then some (current, decision) else none

theorem admission_eq_some {body : PrecallRequest} {s : Redis} {current : RunHash}
    {d : Decision} :
    svc.admission body s = some (current, d) ↔
      s.run body.runId = some current ∧
        svc.decideOn body current (svc.promptHashes s body.runId) = .ok d ∧
          d.action.admits = true := by
  constructor
  · intro h
    unfold admission at h
    cases hrun : s.run body.runId with
    | none => simp [hrun] at h
    | some h' =>
      simp only [hrun] at h
      cases hd : svc.decideOn body h' (svc.promptHashes s body.runId) with
      | error e => simp [hd] at h
      | ok d' =>
        by_cases ha : d'.action.admits = true
        · simp only [hd, ha, if_true, Option.some.injEq, Prod.mk.injEq] at h
          obtain ⟨rfl, rfl⟩ := h
          exact ⟨rfl, hd, ha⟩
        · simp [hd, ha] at h
  · rintro ⟨hrun, hd, ha⟩
    simp only [admission, hrun, hd, if_pos ha]

theorem precall_none {body : PrecallRequest} {s : Redis} (h : svc.admission body s = none)
    (uuid : String) : (svc.precall body uuid s).1 = s := by
  unfold admission at h
  have hget : s.hgetall (runKey body.runId) = s.run body.runId := rfl
  cases hrun : s.run body.runId with
  | none => simp only [precall, hget, hrun]
  | some current =>
    simp only [hrun] at h
    cases hd : svc.decideOn body current (svc.promptHashes s body.runId) with
    | error e => simp only [precall, hget, hrun, hd]
    | ok d =>
      have ha : ¬ d.action.admits = true := fun ha => by simp [hd, ha] at h
      simp only [precall, hget, hrun, hd, if_neg ha]

theorem precall_some {body : PrecallRequest} {s : Redis} {current : RunHash} {d : Decision}
    (h : svc.admission body s = some (current, d)) (uuid : String) :
    svc.precall body uuid s =
      (svc.reserve body uuid current (svc.promptHashes s body.runId) d s,
        .ok (precallResponse d (some uuid))) := by
  obtain ⟨hrun, hd, ha⟩ := svc.admission_eq_some.mp h
  have hget : s.hgetall (runKey body.runId) = some current := hrun
  simp only [precall, hget, hd, if_pos ha]

end RunLedgerService

structure Issue where
  reservationId : String
  runId : String
  model : String
  reservedMicros : ℤ
deriving DecidableEq, Repr

-- What the callers know: the reservations handed out, the reports that settled one,
-- and the request that started each run whose hash has not expired since.
structure Book where
  issued : List Issue := []
  settled : List (Issue × PostcallRequest) := []
  origin : String → Option RunCreateRequest := fun _ => none

namespace Book

def isSettled (b : Book) (reservationId : String) : Bool :=
  b.settled.any (·.1.reservationId = reservationId)

def outstanding (b : Book) (reservationId : String) : Option Issue :=
  if b.isSettled reservationId then none
  else b.issued.find? (·.reservationId = reservationId)

def begin (b : Book) (body : RunCreateRequest) : Book :=
  match b.origin body.runId with
  | some _ => b
  | none => { b with origin := Function.update b.origin body.runId (some body) }

def issue (b : Book) (i : Issue) : Book := { b with issued := i :: b.issued }

def report (b : Book) (body : PostcallRequest) : Book :=
  match b.outstanding body.reservationId with
  | none => b
  | some i => { b with settled := (i, body) :: b.settled }

def forget (b : Book) (s : Redis) : Book :=
  { b with origin := fun R => if s.run R = none then none else b.origin R }

def callCost (svc : RunLedgerService) (p : Issue × PostcallRequest) : ℤ :=
  let prices := svc.settings.pricesFor (orText (p.2.model.getD "") p.1.model)
  HalfEven.round
    (p.2.inputTokens * prices.inputMicros + p.2.outputTokens * prices.outputMicros)

def spend (b : Book) (svc : RunLedgerService) (runId : String) : ℤ :=
  ((b.settled.filter fun p => p.1.runId = runId ∧ p.2.failed = false).map (callCost svc)).sum

end Book

structure World where
  redis : Redis
  book : Book

namespace World

def init : World := ⟨.empty, {}⟩

def record (svc : RunLedgerService) (w : World) : Op → Book
  | .createRun body => w.book.begin body
  | .precall body uuid =>
    match svc.admission body w.redis with
    | none => w.book
    | some (_, d) => w.book.issue ⟨uuid, body.runId, body.model, d.reserveMicros⟩
  | .postcall body => w.book.report body
  | .tick seconds => w.book.forget (w.redis.tick seconds)

def step (svc : RunLedgerService) (w : World) (op : Op) : World :=
  ⟨svc.apply w.redis op, w.record svc op⟩

def after (svc : RunLedgerService) (ops : List Op) : World := Trace.run (step svc) init ops

theorem step_precall_none {svc : RunLedgerService} {w : World} {body : PrecallRequest}
    (h : svc.admission body w.redis = none) (uuid : String) :
    w.step svc (.precall body uuid) = w := by
  simp only [step, record, RunLedgerService.apply, h, svc.precall_none h]

theorem step_precall_some {svc : RunLedgerService} {w : World} {body : PrecallRequest}
    {current : RunHash} {d : Decision} (h : svc.admission body w.redis = some (current, d))
    (uuid : String) :
    w.step svc (.precall body uuid) =
      ⟨svc.reserve body uuid current (svc.promptHashes w.redis body.runId) d w.redis,
        w.book.issue ⟨uuid, body.runId, body.model, d.reserveMicros⟩⟩ := by
  simp only [step, record, RunLedgerService.apply, h, svc.precall_some h]

end World

end RunLedger
