import NocAgent.RunLedger.Ledger

namespace RunLedger

inductive CreatePc where
  | start
  | initialising
  | refreshing (current : RunHash)
  | done (response : RunCreateResponse)

inductive PrecallPc where
  | start
  | watched (version : ℕ)
  | read (version : ℕ) (current : RunHash)
  | decided (version : ℕ) (current : RunHash) (promptHashes : List String) (decision : Decision)
  | done (result : Except PyError PrecallResponse)

inductive PostcallPc where
  | start
  | found (reservation : Reservation)
  | settled
  | halting
  | done

inductive Client where
  | createRun (body : RunCreateRequest) (pc : CreatePc)
  | precall (body : PrecallRequest) (pc : PrecallPc)
  | postcall (body : PostcallRequest) (pc : PostcallPc)

inductive Client.Starting : Client → Prop
  | createRun (body : RunCreateRequest) : Starting (.createRun body .start)
  | precall (body : PrecallRequest) : Starting (.precall body .start)
  | postcall (body : PostcallRequest) : Starting (.postcall body .start)

def Redis.watch (s : Redis) (key : String) : ℕ := s.runs.version key

namespace RunLedgerService
variable (svc : RunLedgerService)

def stepCreate (body : RunCreateRequest) (s : Redis) : CreatePc → Redis × CreatePc
  | .start =>
    match s.hgetall (runKey body.runId) with
    | none => (s, .initialising)
    | some current => (s, .refreshing current)
  | .initialising =>
    (s.hset (runKey body.runId) (svc.freshRun body), .refreshing (svc.freshRun body))
  | .refreshing current =>
    (s.expire (runKey body.runId) (svc.createTtl body),
      .done (svc.createResponse body current s.clock))
  | .done response => (s, .done response)

-- EXEC fails when the watched key has changed since WATCH; the loop then starts again.
def stepPrecall (body : PrecallRequest) (uuid : String) (s : Redis) :
    PrecallPc → Redis × PrecallPc
  | .start => (s, .watched (s.watch (runKey body.runId)))
  | .watched version =>
    match s.hgetall (runKey body.runId) with
    | none => (s, .done (.error (.keyError body.runId)))
    | some current => (s, .read version current)
  | .read version current =>
    match svc.decideOn body current (svc.promptHashes s body.runId) with
    | .error e => (s, .done (.error e))
    | .ok decision =>
      if decision.action.admits then
        (s, .decided version current (svc.promptHashes s body.runId) decision)
      else (s, .done (.ok (precallResponse decision none)))
  | .decided version current promptHashes decision =>
    if s.watch (runKey body.runId) = version then
      (svc.reserve body uuid current promptHashes decision s,
        .done (.ok (precallResponse decision (some uuid))))
    else (s, .start)
  | .done result => (s, .done result)

def stepPostcall (body : PostcallRequest) (s : Redis) : PostcallPc → Redis × PostcallPc
  | .start =>
    match s.get (reservationKey body.reservationId) with
    | none => (s, .done)
    | some reservation => (s, .found reservation)
  | .found reservation => (svc.settle body reservation s, .settled)
  | .settled =>
    match s.hgetall (runKey body.runId) with
    | none => (s, .done)
    | some current => if overspent current then (s, .halting) else (s, .done)
  | .halting => (s.hset (runKey body.runId) costHalt, .done)
  | .done => (s, .done)

def stepClient (uuid : String) (s : Redis) : Client → Redis × Client
  | .createRun body pc => ((svc.stepCreate body s pc).1, .createRun body (svc.stepCreate body s pc).2)
  | .precall body pc =>
    ((svc.stepPrecall body uuid s pc).1, .precall body (svc.stepPrecall body uuid s pc).2)
  | .postcall body pc => ((svc.stepPostcall body s pc).1, .postcall body (svc.stepPostcall body s pc).2)

inductive Effect (uuid : String) (s : Redis) : Client → Redis → Prop
  | idle (c : Client) : Effect uuid s c s
  | initialise (body : RunCreateRequest) :
    Effect uuid s (.createRun body .initialising)
      (s.hset (runKey body.runId) (svc.freshRun body))
  | refresh (body : RunCreateRequest) (current : RunHash) :
    Effect uuid s (.createRun body (.refreshing current))
      (s.expire (runKey body.runId) (svc.createTtl body))
  | commit (body : PrecallRequest) (current : RunHash) (promptHashes : List String)
      (decision : Decision) :
    Effect uuid s
      (.precall body (.decided (s.watch (runKey body.runId)) current promptHashes decision))
      (svc.reserve body uuid current promptHashes decision s)
  | settle (body : PostcallRequest) (reservation : Reservation) :
    Effect uuid s (.postcall body (.found reservation)) (svc.settle body reservation s)
  | halt (body : PostcallRequest) :
    Effect uuid s (.postcall body .halting) (s.hset (runKey body.runId) costHalt)

theorem effect_stepClient (uuid : String) (s : Redis) (c : Client) :
    svc.Effect uuid s c (svc.stepClient uuid s c).1 := by
  cases c with
  | createRun body pc =>
    cases pc with
    | start =>
      simp only [stepClient, stepCreate]
      split <;> exact .idle _
    | initialising => exact .initialise body
    | refreshing current => exact .refresh body current
    | done response => exact .idle _
  | precall body pc =>
    cases pc with
    | start => exact .idle _
    | watched version =>
      simp only [stepClient, stepPrecall]
      split <;> exact .idle _
    | read version current =>
      simp only [stepClient, stepPrecall]
      split
      · exact .idle _
      · split_ifs <;> exact .idle _
    | decided version current hashes d =>
      simp only [stepClient, stepPrecall]
      split_ifs with hv
      · subst hv
        exact .commit body current hashes d
      · exact .idle _
    | done result => exact .idle _
  | postcall body pc =>
    cases pc with
    | start =>
      simp only [stepClient, stepPostcall]
      split <;> exact .idle _
    | found r => exact .settle body r
    | settled =>
      simp only [stepClient, stepPostcall]
      split
      · exact .idle _
      · split_ifs <;> exact .idle _
    | halting => exact .halt body
    | done => exact .idle _

theorem found_of_stepClient {uuid : String} {s : Redis} {c : Client} {body : PostcallRequest}
    {r : Reservation} (h : (svc.stepClient uuid s c).2 = .postcall body (.found r)) :
    c = .postcall body .start ∧ s.resv body.reservationId = some r ∧
      (svc.stepClient uuid s c).1 = s := by
  cases c with
  | createRun body' pc => simp [stepClient] at h
  | precall body' pc => simp [stepClient] at h
  | postcall body' pc =>
    obtain ⟨rfl, hpc⟩ : body' = body ∧ (svc.stepPostcall body' s pc).2 = .found r := by
      simpa [stepClient] using h
    simp only [stepClient]
    cases pc with
    | start =>
      cases hget : s.get (reservationKey body'.reservationId) with
      | none => simp [stepPostcall, hget] at hpc
      | some r' =>
        simp only [stepPostcall, hget, PostcallPc.found.injEq] at hpc ⊢
        subst hpc
        exact ⟨trivial, hget, trivial⟩
    | settled =>
      simp only [stepPostcall] at hpc
      split at hpc
      · cases hpc
      · split_ifs at hpc
    | found r' => cases hpc
    | halting => cases hpc
    | done => cases hpc

theorem createRun_solo (body : RunCreateRequest) (s : Redis) :
    Trace.run (fun p (_ : Unit) => svc.stepCreate body p.1 p.2) (s, .start) [(), (), ()] =
      ((svc.createRun body s).1, .done (svc.createRun body s).2) := by
  cases hrun : s.hgetall (runKey body.runId) with
  | none =>
    simp only [Trace.run_cons, Trace.run_nil, stepCreate, createRun, hrun]
    rfl
  | some current => simp [stepCreate, createRun, hrun]

theorem precall_solo (body : PrecallRequest) (uuid : String) (s : Redis) :
    Trace.run (fun p (_ : Unit) => svc.stepPrecall body uuid p.1 p.2) (s, .start)
        [(), (), (), ()] =
      ((svc.precall body uuid s).1, .done (svc.precall body uuid s).2) := by
  cases hrun : s.hgetall (runKey body.runId) with
  | none => simp [stepPrecall, precall, hrun]
  | some current =>
    cases hd : svc.decideOn body current (svc.promptHashes s body.runId) with
    | error e => simp [stepPrecall, precall, hrun, hd]
    | ok d =>
      by_cases ha : d.action.admits = true <;> simp [stepPrecall, precall, hrun, hd, ha]

theorem postcall_solo (body : PostcallRequest) (s : Redis) :
    Trace.run (fun p (_ : Unit) => svc.stepPostcall body p.1 p.2) (s, .start) [(), (), (), ()] =
      (svc.postcall body s, .done) := by
  cases hr : s.get (reservationKey body.reservationId) with
  | none => simp [stepPostcall, postcall, hr]
  | some r =>
    cases hrun : (svc.settle body r s).hgetall (runKey body.runId) with
    | none => simp [stepPostcall, postcall, haltIfOverspent, hr, hrun]
    | some current =>
      cases ho : overspent current <;>
        simp [stepPostcall, postcall, haltIfOverspent, hr, hrun, ho]

end RunLedgerService

structure Commit (ι : Type) where
  client : ι
  body : PrecallRequest
  uuid : String
  current : RunHash
  promptHashes : List String
  decision : Decision
  store : Redis

structure Settlement (ι : Type) where
  client : ι
  body : PostcallRequest
  reservation : Reservation

-- The two logs are not in the program: they record every EXEC, the latest first.
structure System (ι : Type) where
  redis : Redis
  client : ι → Client
  commits : List (Commit ι) := []
  settlements : List (Settlement ι) := []

namespace System
variable {ι : Type} [DecidableEq ι]

def start (redis : Redis) (client : ι → Client) : System ι := { redis := redis, client := client }

def commitOf (sys : System ι) (k : ι) (uuid : String) : List (Commit ι) :=
  match sys.client k with
  | .precall body (.decided version current promptHashes decision) =>
    if sys.redis.watch (runKey body.runId) = version then
      [⟨k, body, uuid, current, promptHashes, decision, sys.redis⟩]
    else []
  | _ => []

def settlementOf (sys : System ι) (k : ι) : List (Settlement ι) :=
  match sys.client k with
  | .postcall body (.found reservation) => [⟨k, body, reservation⟩]
  | _ => []

def step (svc : RunLedgerService) (sys : System ι) (l : ι × String) : System ι where
  redis := (svc.stepClient l.2 sys.redis (sys.client l.1)).1
  client := Function.update sys.client l.1 (svc.stepClient l.2 sys.redis (sys.client l.1)).2
  commits := sys.commitOf l.1 l.2 ++ sys.commits
  settlements := sys.settlementOf l.1 ++ sys.settlements

theorem step_client_self (svc : RunLedgerService) (sys : System ι) (l : ι × String) :
    (sys.step svc l).client l.1 = (svc.stepClient l.2 sys.redis (sys.client l.1)).2 :=
  Function.update_self ..

theorem step_client_of_ne (svc : RunLedgerService) (sys : System ι) {l : ι × String} {j : ι}
    (hj : j ≠ l.1) : (sys.step svc l).client j = sys.client j := Function.update_of_ne hj ..

theorem forall_step_client {svc : RunLedgerService} {sys : System ι} {l : ι × String}
    {P : ι → Client → Prop}
    (hself : P l.1 (svc.stepClient l.2 sys.redis (sys.client l.1)).2)
    (hother : ∀ j, j ≠ l.1 → P j (sys.client j)) (j : ι) : P j ((sys.step svc l).client j) := by
  by_cases hj : j = l.1
  · rw [hj, step_client_self]
    exact hself
  · rw [step_client_of_ne svc sys hj]
    exact hother j hj

end System

end RunLedger
