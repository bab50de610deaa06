import NocAgent.Agent.RunLedgerClient

namespace Agent

open Coroutine RunLedger

structure Usage where
  inputTokens : Option ℕ := none
  outputTokens : Option ℕ := none
deriving DecidableEq

structure Response where
  usage : Option Usage := none
  model : Option String := none
deriving DecidableEq

def inputTokens (usage : Option Usage) : ℕ := (usage.bind (·.inputTokens)).getD 0

def outputTokens (usage : Option Usage) : ℕ := (usage.bind (·.outputTokens)).getD 0

-- What one call is given and how everything it calls or awaits ends; entry is what comes before
-- the precall, with the direct topology answer where there is one.
structure SpecialistCall where
  agentName : String
  question : String
  runId : Option String
  runToken : Option String
  step : Option String
  entry : Exit Fault (Option String)
  precall : Exit Fault PrecallResponse
  construct : Except Fault Unit
  prepare : Except Fault Unit
  create : Option ℕ → Exit Fault Response
  failedPostcall : Exit Fault Unit
  close : Except Fault Unit
  emitUsage : Response → Except Fault Unit
  usagePostcall : Exit Fault Unit
  outputText : Response → Except Fault String

def steeredOutput : Option PrecallResponse → Option ℕ
  | none => none
  | some decision =>
    if decision.action = .mutate then decision.maxOutputTokens.filter (· ≠ 0) else none

namespace SpecialistCall
variable (client : LedgerClient) (c : SpecialistCall)

def governedRunId : Option String :=
  if truthy c.runToken ∧ truthy c.runId then c.runId else none

def modelName (response : Response) : String := orText (response.model.getD c.agentName) c.agentName

def unavailable (fault : Fault) : String :=
  "(" ++ c.agentName ++ " is currently unavailable: " ++ fault.text ++ ")"

def request (runId : String) : PrecallRequest :=
  precallRequest client runId (orText (c.step.getD "") "0") c.agentName (c.question.length / 4)
    c.question

def settle (reservationId : Option String) (model : String) (input output : ℕ) (failed : Bool)
    (answer : Exit Fault Unit) : Coroutine (List Event) Fault Unit :=
  postcallWhen append client c.governedRunId reservationId model input output failed answer

def degrade (reservationId : Option String) (fault : Fault) :
    Coroutine (List Event) Fault (String ⊕ Response) := do
  c.settle client reservationId "" 0 0 true c.failedPostcall
  if truthy (extractRunHaltReason fault) then raise fault
  else return .inl (c.unavailable fault)

-- A text where the call has failed and is reported as unavailable.
def invoke (reservationId : Option String) (cap : Option ℕ) :
    Coroutine (List Event) Fault (String ⊕ Response) :=
  ensure
    (exceptRaised
      (do
        call c.prepare
        return .inr (← await (c.create cap)))
      (c.degrade client reservationId))
    (call c.close)

def conclude (reservationId : Option String) :
    String ⊕ Response → Coroutine (List Event) Fault String
  | .inl text => return text
  | .inr response => do
    call (c.emitUsage response)
    c.settle client reservationId (c.modelName response) (inputTokens response.usage)
      (outputTokens response.usage) false c.usagePostcall
    call (c.outputText response)

def proceed (reservationId : Option String) (cap : Option ℕ) :
    Coroutine (List Event) Fault String := do
  call c.construct
  let outcome ← c.invoke client reservationId cap
  c.conclude client reservationId outcome

def callSpecialist : Coroutine (List Event) Fault String := do
  match ← await c.entry with
  | some directAnswer => return directAnswer
  | none =>
    let decision ← precallWhen append client c.governedRunId (c.request client) c.precall
    let reservationId ← call (applyPrecallDecision decision)
    c.proceed client reservationId (steeredOutput decision)

def log : List Event := ((c.callSpecialist client).run []).2

def reservation : Option String :=
  match c.entry with
  | .returned none => obtained client c.governedRunId c.precall
  | _ => none

def decision : Option PrecallResponse := (reply client c.governedRunId c.precall).getD none

def attempt (cap : Option ℕ) : Exit Fault Response :=
  match c.prepare with
  | .ok _ => c.create cap
  | .error fault => .raised fault

def modelCall : Exit Fault Response := c.attempt (steeredOutput (c.decision client))

def response : Option Response :=
  match c.construct with
  | .ok _ => (c.modelCall client).value?
  | .error _ => none

def settlement (reservationId : String) : PostcallRequest :=
  match c.response client with
  | some response => postcallPayload (c.governedRunId.getD "") reservationId (c.modelName response)
      (inputTokens response.usage) (outputTokens response.usage) false
  | none => postcallPayload (c.governedRunId.getD "") reservationId "" 0 0 true

def Completes : Prop :=
  c.construct = .ok () ∧
    match c.modelCall client with
    | .cancelled => False
    | .raised _ => True
    | .returned response => c.close = .ok () ∧ c.emitUsage response = .ok ()

variable {client c} {id runId : String} {postcalls : List Event}

theorem settle_sent (hbase : client.baseUrl ≠ "") (hid : truthy (some id) = true)
    (hrun : c.governedRunId = some runId) (model : String) (input output : ℕ) (failed : Bool)
    (answer : Exit Fault Unit) (log : List Event) :
    ∃ exit, (c.settle client (some id) model input output failed answer).run log =
      (exit, log ++ [.postcall (postcallPayload runId id model input output failed)]) := by
  rw [settle, hrun]
  exact postcallWhen_sent hbase hid ..

theorem try_run (c : SpecialistCall) (cap : Option ℕ) (log : List Event) :
    (do
      call c.prepare
      return .inr (← await (c.create cap)) : Coroutine _ _ (String ⊕ Response)).run log =
      ((c.attempt cap).map .inr, log) := by
  unfold attempt
  cases hprepare : c.prepare with
  | error fault => rfl
  | ok u =>
    rw [run_bind, run_call]
    simp only [Exit.ofExcept, run_bind, run_await]
    cases c.create cap <;> rfl

theorem degrade_run (hbase : client.baseUrl ≠ "") (hid : truthy (some id) = true)
    (hrun : c.governedRunId = some runId) (fault : Fault) (log : List Event) :
    ∃ exit, (c.degrade client (some id) fault).run log =
        (exit, log ++ [.postcall (postcallPayload runId id "" 0 0 true)]) ∧
      ∀ response, exit ≠ .returned (.inr response) := by
  obtain ⟨settled, hsettle⟩ := settle_sent hbase hid hrun "" 0 0 true c.failedPostcall log
  unfold degrade
  cases settled with
  | returned u =>
    rw [bind_returned hsettle]
    split_ifs
    · exact ⟨_, rfl, fun _ h => by cases h⟩
    · exact ⟨_, rfl, fun _ h => by cases h⟩
  | raised error =>
    rw [bind_raised hsettle]
    exact ⟨_, rfl, fun _ h => by cases h⟩
  | cancelled =>
    rw [bind_cancelled hsettle]
    exact ⟨_, rfl, fun _ h => by cases h⟩

theorem invoke_of_raised (hbase : client.baseUrl ≠ "") (hid : truthy (some id) = true)
    (hrun : c.governedRunId = some runId) {cap : Option ℕ} {fault : Fault}
    (hattempt : c.attempt cap = .raised fault) (log : List Event) :
    ∃ exit, (c.invoke client (some id) cap).run log =
        (exit, log ++ [.postcall (postcallPayload runId id "" 0 0 true)]) ∧
      ∀ response, exit ≠ .returned (.inr response) := by
  obtain ⟨exit, hdegrade, hexit⟩ := degrade_run hbase hid hrun fault log
  have hbody := c.try_run cap log
  rw [hattempt] at hbody
  rw [invoke, exceptRaised, ensure_run ((handle_raised hbody).trans hdegrade), run_call]
  cases c.close with
  | ok u => exact ⟨_, rfl, hexit⟩
  | error error => exact ⟨_, rfl, fun _ h => by cases h⟩

theorem invoke_of_cancelled {reservationId : Option String} {cap : Option ℕ}
    (hattempt : c.attempt cap = .cancelled) (log : List Event) :
    ∃ exit, (c.invoke client reservationId cap).run log = (exit, log) ∧
      ∀ outcome, exit ≠ .returned outcome := by
  have hbody := c.try_run cap log
  rw [hattempt] at hbody
  rw [invoke, exceptRaised, ensure_run (handle_cancelled hbody), run_call]
  cases c.close with
  | ok u => exact ⟨_, rfl, fun _ h => by cases h⟩
  | error error => exact ⟨_, rfl, fun _ h => by cases h⟩

theorem invoke_of_returned {reservationId : Option String} {cap : Option ℕ} {response : Response}
    (hattempt : c.attempt cap = .returned response) (log : List Event) :
    (c.invoke client reservationId cap).run log =
      ((Exit.ofExcept c.close).map fun _ => .inr response, log) := by
  have hbody := c.try_run cap log
  rw [hattempt] at hbody
  rw [invoke, exceptRaised, ensure_run (handle_returned hbody), run_call]
  cases c.close <;> rfl

theorem conclude_of_returned (hbase : client.baseUrl ≠ "") (hid : truthy (some id) = true)
    (hrun : c.governedRunId = some runId) {response : Response}
    (hemit : c.emitUsage response = .ok ()) (log : List Event) :
    ((c.conclude client (some id) (.inr response)).run log).2 =
      log ++ [.postcall (postcallPayload runId id (c.modelName response)
        (inputTokens response.usage) (outputTokens response.usage) false)] := by
  obtain ⟨settled, hsettle⟩ := settle_sent hbase hid hrun (c.modelName response)
    (inputTokens response.usage) (outputTokens response.usage) false c.usagePostcall log
  rw [conclude, bind_returned (call_ok hemit)]
  exact bind_idle hsettle fun _ _ => rfl

theorem conclude_of_error {reservationId : Option String} {response : Response} {fault : Fault}
    (hemit : c.emitUsage response = .error fault) (log : List Event) :
    ((c.conclude client reservationId (.inr response)).run log).2 = log := by
  rw [conclude, bind_raised (call_error hemit)]

theorem proceed_of_completes (hbase : client.baseUrl ≠ "") (hid : truthy (some id) = true)
    (hrun : c.governedRunId = some runId) (hc : c.Completes client) (log : List Event) :
    ((c.proceed client (some id) (steeredOutput (c.decision client))).run log).2 =
      log ++ [.postcall (c.settlement client id)] := by
  obtain ⟨hconstruct, hmodel⟩ := hc
  rw [proceed, bind_returned (call_ok hconstruct)]
  cases hcall : c.modelCall client with
  | cancelled =>
    rw [hcall] at hmodel
    exact hmodel.elim
  | raised fault =>
    obtain ⟨exit, hinvoke, hexit⟩ := invoke_of_raised hbase hid hrun hcall log
    have hresponse : c.response client = none := by
      simp only [response, hconstruct, hcall, Exit.value?]
    rw [settlement, hresponse, hrun, Option.getD_some]
    refine bind_idle hinvoke fun outcome houtcome => ?_
    cases outcome with
    | inl text => rfl
    | inr response => exact absurd houtcome (hexit response)
  | returned response =>
    rw [hcall] at hmodel
    obtain ⟨hclose, hemit⟩ := hmodel
    have hinvoke : (c.invoke client (some id) (steeredOutput (c.decision client))).run log =
        (.returned (.inr response), log) := by
      rw [invoke_of_returned hcall, hclose]
      rfl
    have hresponse : c.response client = some response := by
      simp only [SpecialistCall.response, hconstruct, hcall, Exit.value?]
    rw [bind_returned hinvoke, conclude_of_returned hbase hid hrun hemit, settlement, hresponse,
      hrun, Option.getD_some]

theorem proceed_of_not_completes {reservationId : Option String} (hc : ¬ c.Completes client)
    (log : List Event) :
    ((c.proceed client reservationId (steeredOutput (c.decision client))).run log).2 = log := by
  cases hconstruct : c.construct with
  | error fault => rw [proceed, bind_raised (call_error hconstruct)]
  | ok u =>
    rw [proceed, bind_returned (call_ok hconstruct)]
    cases hcall : c.modelCall client with
    | cancelled =>
      obtain ⟨exit, hinvoke, hexit⟩ := invoke_of_cancelled hcall log
      exact bind_idle hinvoke fun outcome houtcome => absurd houtcome (hexit outcome)
    | raised fault => exact absurd ⟨hconstruct, by rw [hcall]; trivial⟩ hc
    | returned response =>
      have hinvoke : (c.invoke client reservationId _).run log = _ := invoke_of_returned hcall log
      cases hclose : c.close with
      | error fault =>
        rw [hclose] at hinvoke
        rw [bind_raised hinvoke]
      | ok u =>
        rw [hclose] at hinvoke
        rw [bind_returned hinvoke]
        cases hemit : c.emitUsage response with
        | error fault => exact conclude_of_error hemit log
        | ok u => exact absurd ⟨hconstruct, by rw [hcall]; exact ⟨hclose, hemit⟩⟩ hc

theorem entry_run (hentry : c.entry = .returned none) (log : List Event) :
    (await c.entry : Coroutine (List Event) Fault _).run log = (.returned none, log) := by
  rw [run_await, hentry]

theorem callSpecialist_of_reservation (h : c.reservation client = some id) :
    client.baseUrl ≠ "" ∧ truthy (some id) = true ∧ (∃ runId, c.governedRunId = some runId) ∧
      ∃ log, Settled id [] log ∧ (c.callSpecialist client).run [] =
        (c.proceed client (some id) (steeredOutput (c.decision client))).run log := by
  unfold reservation at h
  split at h
  · rename_i hentry
    obtain ⟨hbase, hid, hrun, decision, hreply, happly⟩ := obtained_eq_some h
    obtain ⟨mid, hmid, hdecide⟩ := precallWhen_returned hreply (c.request client)
    have hdecision : c.decision client = some decision := by
      rw [SpecialistCall.decision, hreply, Option.getD_some]
    refine ⟨hbase, hid, hrun, mid, hmid id, ?_⟩
    rw [callSpecialist, bind_returned (entry_run hentry [])]
    simp only
    rw [bind_returned hdecide, happly, hdecision]
    rfl
  · cases h

@[simp] theorem settlement_reservationId : (c.settlement client id).reservationId = id := by
  unfold settlement postcallPayload
  split <;> simp

section Frame
variable {reservationId : Option String}

theorem keeps_degrade (h : Foreign client c.governedRunId id reservationId) (fault : Fault) :
    Keeps (Settled id postcalls) (c.degrade client reservationId fault) := by
  refine Keeps.bind (keeps_postcallWhen h _ _ _ _ _) fun _ => ?_
  split_ifs
  · exact keeps_await _
  · exact keeps_await _

theorem keeps_invoke (h : Foreign client c.governedRunId id reservationId) (cap : Option ℕ) :
    Keeps (Settled id postcalls) (c.invoke client reservationId cap) := by
  have hbody : Keeps (Settled id postcalls) (do
      call c.prepare
      return .inr (← await (c.create cap)) : Coroutine _ _ (String ⊕ Response)) :=
    (keeps_call _).bind fun _ => (keeps_await _).bind fun _ => keeps_await _
  exact (hbody.handle (keeps_degrade h) (keeps_await _)).ensure (keeps_call _)

theorem keeps_conclude (h : Foreign client c.governedRunId id reservationId)
    (outcome : String ⊕ Response) :
    Keeps (Settled id postcalls) (c.conclude client reservationId outcome) := by
  cases outcome with
  | inl text => exact keeps_await _
  | inr response =>
    exact (keeps_call _).bind fun _ =>
      Keeps.bind (keeps_postcallWhen h _ _ _ _ _) fun _ => keeps_call _

theorem callSpecialist_frame (h : c.reservation client ≠ some id) :
    Keeps (Settled id postcalls) (c.callSpecialist client) := by
  refine (keeps_await c.entry).keeps_bind (F := (c.entry = .returned ·)) (fun _ _ _ he => he)
    fun value hentry => ?_
  cases value with
  | some directAnswer => exact keeps_await _
  | none =>
    have hne : obtained client c.governedRunId c.precall ≠ some id := by
      rw [reservation, hentry] at h
      exact h
    refine (keeps_precallWhen (fun _ _ hs => hs.append rfl) _ _).keeps_bind
      (fun _ _ _ => reply_of_precallWhen) fun decision hreply => ?_
    refine (keeps_call _).keeps_bind (fun _ _ _ => ok_of_call _) fun reservationId happly => ?_
    have hforeign := foreign_of_obtained hne hreply happly
    exact (keeps_call _).bind fun _ =>
      (keeps_invoke hforeign _).bind fun outcome => keeps_conclude hforeign outcome

end Frame

theorem log_frame (h : c.reservation client ≠ some id) : Settled id [] (c.log client) :=
  callSpecialist_frame h [] rfl

theorem log_settled_iff (h : c.reservation client = some id) :
    Settled id [.postcall (c.settlement client id)] (c.log client) ↔
      c.Completes client := by
  obtain ⟨hbase, hid, ⟨runId, hrun⟩, mid, hmid, hcall⟩ := callSpecialist_of_reservation h
  unfold Settled at hmid ⊢
  rw [log, hcall]
  by_cases hc : c.Completes client
  · rw [proceed_of_completes hbase hid hrun hc]
    simp [hc, hmid, Event.settles]
  · rw [proceed_of_not_completes hc]
    simp [hc, hmid]

end SpecialistCall

end Agent
