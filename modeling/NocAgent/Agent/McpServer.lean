import NocAgent.Agent.RunLedgerClient
import Mathlib.Data.List.Infix
import Mathlib.Data.Rat.Defs
import Mathlib.Algebra.Field.Rat

namespace McpServer

open Coroutine ContextVar Agent RunLedger

inductive Var where
  | currentUserToken
  | pendingConsent
  | currentRunToken
  | currentRunId
  | currentDeadline
  | nextRunStep
  | currentUserCtx
deriving DecidableEq

-- A step counter is known by the run it counts for.
abbrev Value : Var → Type
  | .pendingConsent => Option (String × String)
  | .currentDeadline => Option ℚ
  | .currentUserCtx => Option (String × String)
  | _ => Option String

inductive ContentBlock where
  | textContent (text : String)
  | other
deriving DecidableEq

inductive ToolResult where
  | blocks (content : List ContentBlock)
  | callToolResult (content : List ContentBlock) (isError : Bool)
deriving DecidableEq

def ToolResult.outputBlocks : ToolResult → List ContentBlock
  | .blocks content => content
  | .callToolResult content _ => content

def ContentBlock.tokens : ContentBlock → ℕ
  | .textContent text => text.length / 4
  | .other => 0

def ToolResult.estimatedOutputTokens (result : ToolResult) : ℕ :=
  (result.outputBlocks.map ContentBlock.tokens).sum

def timeoutResult : ToolResult :=
  .callToolResult
    [.textContent ("The NOC investigation exceeded Cowork's tool-call time budget. " ++
      "Retry with a narrower incident, service, link, or evidence question.")] true

def routes : List (String × List String) :=
  [("rti_iq", ["optical reading", "loss of light", "sensor", "suppressed", "telemetry timeline"]),
    ("work_iq", ["on-call", "on call", "incident bridge", "bridge chatter"]),
    ("web_iq", ["public vendor advisory", "status-page", "status page", "carrier advisory"]),
    ("foundry_iq", ["runbook", "prior ticket", "happened before", "ticket history"]),
    ("fabric_iq", ["blast radius", "shared conduit", "physical conduit", "topology"])]

def directSpecialistForTask (normalized : String) : Option String :=
  (routes.find? fun route =>
    route.2.any fun phrase => Decidable.decide (phrase.toList <:+: normalized.toList)).map Prod.fst

-- One call of the tool and how everything it awaits ends. The task is the text of the argument
-- and its case-folded form; a call of a specialist or of the tool leaves any context behind it.
structure Invocation where
  modelDeployment : String
  foundryUserToken : String
  oid : String
  displayName : String
  runId : String
  now : ℚ
  timeoutSeconds : ℚ
  task : String
  normalized : String
  runToken : Exit Fault (Option String)
  precall : Exit Fault PrecallResponse
  callSpecialist : String → Exit Fault String
  callTool : Exit Fault ToolResult
  leaves : Context Value → Context Value
  timeoutPostcall : Exit Fault Unit
  usagePostcall : Exit Fault Unit
  cancelledPostcall : Exit Fault Unit
  failedPostcall : Exit Fault Unit

structure HostState where
  vars : Context Value
  log : List Event := []
  reservationId : Option String := none
  callStarted : Bool := false

def record (event : Event) (s : HostState) : HostState := { s with log := s.log ++ [event] }

namespace Invocation
variable (client : LedgerClient) (i : Invocation)

def contextTokens (runToken : Option String) : List (Σ v, Value v) :=
  [⟨.currentUserToken, some i.foundryUserToken⟩,
    ⟨.pendingConsent, none⟩,
    ⟨.currentRunToken, runToken⟩,
    ⟨.currentRunId, governed i.runId runToken⟩,
    ⟨.currentDeadline, some (i.now + i.timeoutSeconds)⟩,
    ⟨.nextRunStep, governed i.runId runToken⟩,
    ⟨.currentUserCtx, some (i.oid, i.displayName)⟩]

def estimatedInputTokens : ℕ := i.task.length / 4

def request (runId : String) : PrecallRequest :=
  precallRequest client runId "1" i.modelDeployment i.estimatedInputTokens i.task

def answer : Coroutine HostState Fault ToolResult := do
  update fun s => { s with vars := i.leaves s.vars }
  match directSpecialistForTask i.normalized with
  | some specialist => return .blocks [.textContent (← await (i.callSpecialist specialist))]
  | none => await i.callTool

variable (governedRunId : Option String)

def settleFailed (reservationId : Option String) (answer : Exit Fault Unit) :
    Coroutine HostState Fault Unit :=
  postcallWhen record client governedRunId reservationId "" 0 0 true answer

def answerInTime (reservationId : Option String) : Coroutine HostState Fault (Option ToolResult) :=
  exceptRaised
    (do
      let result ← i.answer
      update (record .answered)
      return some result)
    fun fault => do
      if fault = .timeout then
        settleFailed client governedRunId reservationId i.timeoutPostcall
        return none
      else raise fault

def withConsent (pendingConsent : Option (String × String)) (result : ToolResult) : ToolResult :=
  match pendingConsent with
  | none => result
  | some (agentName, consentUrl) =>
    .callToolResult [.textContent (agentName ++
      " requires additional user consent. Open this sign-in link: " ++ consentUrl)] false

def conclude (reservationId : Option String) :
    Option ToolResult → Coroutine HostState Fault ToolResult
  | none => return timeoutResult
  | some result => do
    postcallWhen record client governedRunId reservationId i.modelDeployment
      i.estimatedInputTokens result.estimatedOutputTokens false i.usagePostcall
    let s ← read
    return withConsent (s.vars .pendingConsent) result

def investigate : Coroutine HostState Fault ToolResult := do
  let decision ← precallWhen record client governedRunId (i.request client) i.precall
  let reservationId ← call (applyPrecallDecision decision)
  update fun s => { s with reservationId := reservationId, callStarted := true }
  let outcome ← i.answerInTime client governedRunId reservationId
  i.conclude client governedRunId reservationId outcome

def settleStarted (answer : Exit Fault Unit) : Coroutine HostState Fault Unit := do
  let s ← read
  if s.callStarted then settleFailed client governedRunId s.reservationId answer
  else return ()

def guarded : Coroutine HostState Fault ToolResult :=
  handle (i.investigate client governedRunId)
    (fun fault => do
      settleStarted client governedRunId i.failedPostcall
      raise fault)
    (do
      settleStarted client governedRunId i.cancelledPostcall
      cancel)

def invokeNocTool : Coroutine HostState Fault ToolResult := do
  let runToken ← await i.runToken
  let s ← read
  let entered := setAll s.vars (i.contextTokens runToken)
  update fun s => { s with vars := entered.1 }
  ensure (i.guarded client (governed i.runId runToken))
    (update fun s => { s with vars := resetAll s.vars entered.2.reverse })

def reservation : Option String :=
  match i.runToken with
  | .returned runToken => obtained client (governed i.runId runToken) i.precall
  | _ => none

end Invocation

structure Fair (reservation : Option String) (log : List Event) : Prop where
  own : ∀ request, Event.postcall request ∈ log → reservation = some request.reservationId
  once : log.countP Event.reports ≤ 1
  after : ∀ pre e post, log = pre ++ e :: post → e.reports = true → .answered ∈ pre

def Settles (reservation : Option String) (log : List Event) : Prop :=
  ∀ id, reservation = some id → ∃ e ∈ log, e.settles id = true

def Unposted (log : List Event) : Prop := ∀ request, Event.postcall request ∉ log

section Logs
variable {reservation : Option String} {log : List Event} {request : PostcallRequest}

theorem Unposted.reports (h : Unposted log) {e : Event} (he : e ∈ log) : e.reports = false := by
  cases e with
  | precall request => rfl
  | answered => rfl
  | postcall request => exact absurd he (h request)

theorem Unposted.countP (h : Unposted log) : log.countP Event.reports = 0 :=
  List.countP_eq_zero.mpr fun _ he => by simp [h.reports he]

theorem Unposted.fair (h : Unposted log) : Fair reservation log where
  own request hmem := absurd hmem (h request)
  once := by rw [h.countP]; exact Nat.zero_le 1
  after pre e post hlog he := by
    rw [h.reports (by rw [hlog]; simp)] at he
    cases he

theorem Unposted.append (h : Unposted log) {e : Event} (he : ∀ request, e ≠ .postcall request) :
    Unposted (log ++ [e]) := by
  intro request hmem
  rcases List.mem_append.mp hmem with hmem | hmem
  · exact h request hmem
  · exact he request (List.mem_singleton.mp hmem).symm

theorem own_append (h : ∀ r, Event.postcall r ∈ log → reservation = some r.reservationId)
    (hr : reservation = some request.reservationId) :
    ∀ r, Event.postcall r ∈ log ++ [.postcall request] → reservation = some r.reservationId := by
  intro r hmem
  rcases List.mem_append.mp hmem with hmem | hmem
  · exact h r hmem
  · rw [Event.postcall.inj (List.mem_singleton.mp hmem)]
    exact hr

theorem split_snoc {pre post : List Event} {e x : Event} (h : log ++ [x] = pre ++ e :: post) :
    pre = log ∧ e = x ∨ ∃ post', log = pre ++ e :: post' := by
  rcases List.eq_nil_or_concat post with rfl | ⟨post', y, rfl⟩
  · obtain ⟨hlog, hx⟩ := List.append_inj' h rfl
    exact .inl ⟨hlog.symm, (List.singleton_inj.mp hx).symm⟩
  · rw [List.concat_eq_append, ← List.cons_append, ← List.append_assoc] at h
    exact .inr ⟨post', (List.append_inj' h rfl).1⟩

theorem Fair.append_failed (h : Fair reservation log)
    (hr : reservation = some request.reservationId) (hfailed : request.failed = true) :
    Fair reservation (log ++ [.postcall request]) where
  own := own_append h.own hr
  once := by
    rw [List.countP_append]
    simpa [Event.reports, hfailed] using h.once
  after pre e post hlog he := by
    rcases split_snoc hlog with ⟨-, rfl⟩ | ⟨post', hlog'⟩
    · rw [Event.reports, hfailed] at he
      cases he
    · exact h.after pre e post' hlog' he

theorem Unposted.append_usage (h : Unposted log)
    (hr : reservation = some request.reservationId) (hans : .answered ∈ log) :
    Fair reservation (log ++ [.postcall request]) where
  own := own_append (fun r hmem => absurd hmem (h r)) hr
  once := by
    rw [List.countP_append, h.countP, Nat.zero_add]
    exact List.countP_le_length
  after pre e post hlog he := by
    rcases split_snoc hlog with ⟨rfl, -⟩ | ⟨post', hlog'⟩
    · exact hans
    · rw [h.reports (by rw [hlog']; simp)] at he
      cases he

theorem settles_append (hr : reservation = some request.reservationId) :
    Settles reservation (log ++ [.postcall request]) := by
  intro id hid
  refine ⟨.postcall request, by simp, ?_⟩
  rw [hr] at hid
  simpa [Event.settles] using hid

end Logs

section Stages
variable (client : LedgerClient) (i : Invocation) (governedRunId : Option String)

def Idle (s : HostState) : Prop :=
  s.callStarted = false ∧ obtained client governedRunId i.precall = none ∧ Unposted s.log

structure Started (s : HostState) : Prop where
  callStarted : s.callStarted = true
  linked : ∃ decision, reply client governedRunId i.precall = some decision ∧
    applyPrecallDecision decision = .ok s.reservationId

structure Running (s : HostState) : Prop where
  started : Started client i governedRunId s
  fair : Fair (obtained client governedRunId i.precall) s.log

structure Closed (s : HostState) : Prop where
  running : Running client i governedRunId s
  settles : Settles (obtained client governedRunId i.precall) s.log

def Unclosed (exit : Exit Fault ToolResult) (s : HostState) : Prop :=
  match exit with
  | .returned _ => Closed client i governedRunId s
  | _ => Idle client i governedRunId s ∨ Running client i governedRunId s

variable {client i governedRunId}

theorem Started.post {s : HostState} (h : Started client i governedRunId s) (model : String)
    (input output : ℕ) (failed : Bool) (answer : Exit Fault Unit) :
    ∃ exit final, (postcallWhen record client governedRunId s.reservationId model input output
        failed answer).run s = (exit, final) ∧ Started client i governedRunId final ∧
      (obtained client governedRunId i.precall = none ∧ final.log = s.log ∨
        ∃ id, obtained client governedRunId i.precall = some id ∧ final.log = s.log ++
          [.postcall (postcallPayload (governedRunId.getD "") id model input output failed)]) := by
  obtain ⟨hstarted, decision, hreply, happly⟩ := h
  cases hr : obtained client governedRunId i.precall with
  | none =>
    have hnone : ¬ truthy s.reservationId = true := by
      intro hid
      have hsome := obtained_of_sent hreply happly hid
      rw [hr] at hsome
      rw [← hsome] at hid
      cases hid
    rw [postcallWhen_run, if_pos (.inr (.inr (Bool.eq_false_of_not_eq_true hnone)))]
    exact ⟨_, _, rfl, ⟨hstarted, decision, hreply, happly⟩, .inl ⟨rfl, rfl⟩⟩
  | some id =>
    have hid := reply_of_obtained hreply happly hr
    obtain ⟨hbase, htruthy, ⟨runId, hrun⟩, -⟩ := obtained_eq_some hr
    rw [hid, hrun]
    obtain ⟨exit, hpost⟩ : ∃ exit, (postcallWhen record client (some runId) (some id) model input
        output failed answer).run s = (exit, _) :=
      postcallWhen_sent hbase htruthy model input output failed answer s
    refine ⟨exit, _, hpost, ⟨hstarted, decision, by rw [← hrun]; exact hreply, happly⟩, ?_⟩
    exact .inr ⟨id, rfl, rfl⟩

theorem Running.settleFailed {s : HostState} (h : Running client i governedRunId s)
    (answer : Exit Fault Unit) :
    ∃ exit final, (Invocation.settleFailed client governedRunId s.reservationId answer).run s =
      (exit, final) ∧ Closed client i governedRunId final := by
  obtain ⟨exit, final, hrun, hstarted, ⟨hr, hlog⟩ | ⟨id, hr, hlog⟩⟩ :=
    h.started.post "" 0 0 true answer
  · refine ⟨exit, final, hrun, ⟨hstarted, ?_⟩, ?_⟩
    · rw [hlog]
      exact h.fair
    · rw [hr]
      exact fun _ hid => by cases hid
  · refine ⟨exit, final, hrun, ⟨hstarted, ?_⟩, ?_⟩
    · rw [hlog]
      exact h.fair.append_failed (by simp [hr]) (by simp)
    · rw [hlog]
      exact settles_append (by simp [hr])

theorem Started.settleUsage {s : HostState} (h : Started client i governedRunId s)
    (hlog : Unposted s.log) (hans : .answered ∈ s.log) (model : String) (input output : ℕ)
    (answer : Exit Fault Unit) :
    ∃ exit final, (postcallWhen record client governedRunId s.reservationId model input output
        false answer).run s = (exit, final) ∧ Closed client i governedRunId final := by
  obtain ⟨exit, final, hrun, hstarted, ⟨hr, hfinal⟩ | ⟨id, hr, hfinal⟩⟩ :=
    h.post model input output false answer
  · refine ⟨exit, final, hrun, ⟨hstarted, ?_⟩, ?_⟩
    · rw [hfinal]
      exact hlog.fair
    · rw [hr]
      exact fun _ hid => by cases hid
  · refine ⟨exit, final, hrun, ⟨hstarted, ?_⟩, ?_⟩
    · rw [hfinal]
      exact hlog.append_usage (by simp [hr]) hans
    · rw [hfinal]
      exact settles_append (by simp [hr])

def Awaiting (client : LedgerClient) (i : Invocation) (governedRunId reservationId : Option String)
    (s : HostState) : Prop :=
  Started client i governedRunId s ∧ s.reservationId = reservationId ∧ Unposted s.log

theorem Awaiting.running {reservationId : Option String} {s : HostState}
    (h : Awaiting client i governedRunId reservationId s) : Running client i governedRunId s :=
  ⟨h.1, h.2.2.fair⟩

theorem ends_answer (reservationId : Option String) :
    Keeps (Awaiting client i governedRunId reservationId) i.answer := by
  have hleave : Keeps (Awaiting client i governedRunId reservationId)
      (update fun s => { s with vars := i.leaves s.vars } : Coroutine HostState Fault Unit) :=
    fun _ hs => ⟨⟨hs.1.1, hs.1.2⟩, hs.2⟩
  refine hleave.bind fun _ => ?_
  split
  · exact (keeps_await _).bind fun _ => keeps_await _
  · exact keeps_await _

theorem ends_settleFailed (reservationId : Option String) (answer : Exit Fault Unit) :
    Ends (fun s => Running client i governedRunId s ∧ s.reservationId = reservationId)
      (Invocation.settleFailed client governedRunId reservationId answer)
      fun _ s => Closed client i governedRunId s := by
  rintro s ⟨hs, rfl⟩
  obtain ⟨exit, final, hrun, hclosed⟩ := hs.settleFailed answer
  rw [hrun]
  exact hclosed

def InTime (client : LedgerClient) (i : Invocation) (governedRunId reservationId : Option String)
    (exit : Exit Fault (Option ToolResult)) (s : HostState) : Prop :=
  match exit with
  | .returned none => Closed client i governedRunId s
  | .returned (some _) => Awaiting client i governedRunId reservationId s ∧ .answered ∈ s.log
  | _ => Running client i governedRunId s

def Answered (client : LedgerClient) (i : Invocation) (governedRunId reservationId : Option String)
    (exit : Exit Fault (Option ToolResult)) (s : HostState) : Prop :=
  match exit with
  | .returned outcome => InTime client i governedRunId reservationId (.returned outcome) s
  | _ => Awaiting client i governedRunId reservationId s

theorem ends_answerInTime (reservationId : Option String) :
    Ends (Awaiting client i governedRunId reservationId)
      (i.answerInTime client governedRunId reservationId)
      (InTime client i governedRunId reservationId) := by
  have hanswer : Ends (Awaiting client i governedRunId reservationId)
      (do
        let result ← i.answer
        update (record .answered)
        return some result) (Answered client i governedRunId reservationId) := by
    refine ends_bind (R := fun _ => Awaiting client i governedRunId reservationId) ?_
      fun result => ?_
    · exact (ends_answer reservationId).weaken (fun _ hs => hs) fun exit s hs => by
        cases exit <;> exact hs
    · intro s hs
      exact ⟨⟨⟨hs.1.1, hs.1.2⟩, hs.2.1, hs.2.2.append fun _ h => by cases h⟩,
        List.mem_append_right _ (List.mem_singleton_self _)⟩
  refine ends_handle hanswer (fun _ _ hs => hs) (fun fault => ?_) fun s hs => Awaiting.running hs
  split_ifs
  · refine ends_bind (R := fun _ => Closed client i governedRunId) ?_ fun _ s hs => hs
    refine (ends_settleFailed reservationId i.timeoutPostcall).weaken
      (fun s hs => ⟨Awaiting.running hs, hs.2.1⟩) fun exit s hs => ?_
    cases exit with
    | returned u => exact hs
    | raised error => exact hs.running
    | cancelled => exact hs.running
  · exact fun s hs => Awaiting.running hs

theorem ends_conclude {reservationId : Option String} (outcome : Option ToolResult) :
    Ends (InTime client i governedRunId reservationId (.returned outcome))
      (i.conclude client governedRunId reservationId outcome)
      (Unclosed client i governedRunId) := by
  cases outcome with
  | none => exact fun s hs => hs
  | some result =>
    rintro s ⟨⟨hstarted, rfl, hlog⟩, hans⟩
    obtain ⟨exit, final, hrun, hclosed⟩ := hstarted.settleUsage hlog hans i.modelDeployment
      i.estimatedInputTokens result.estimatedOutputTokens i.usagePostcall
    unfold Invocation.conclude
    cases exit with
    | returned u =>
      rw [bind_returned hrun]
      exact hclosed
    | raised error =>
      rw [bind_raised hrun]
      exact .inr hclosed.running
    | cancelled =>
      rw [bind_cancelled hrun]
      exact .inr hclosed.running

def Fresh (s : HostState) : Prop := s.callStarted = false ∧ Unposted s.log

theorem ends_precall (i : Invocation) :
    Ends Fresh (precallWhen record client governedRunId (i.request client) i.precall)
      (sequel (fun decision s => Fresh s ∧ reply client governedRunId i.precall = some decision)
        (Unclosed client i governedRunId)) := by
  intro s hs
  have hexit := precallWhen_exit record client governedRunId (i.request client) i.precall s
  have hrecord (r : PrecallRequest) (s : HostState) (hs : Fresh s) :
      Fresh (record (.precall r) s) := ⟨hs.1, hs.2.append fun _ h => by cases h⟩
  have hkeeps : Keeps Fresh
      (precallWhen record client governedRunId (i.request client) i.precall) :=
    keeps_precallWhen hrecord _ _
  rw [hexit]
  cases hreply : reply client governedRunId i.precall with
  | some decision => exact ⟨hkeeps s hs, rfl⟩
  | none => exact .inl ⟨(hkeeps s hs).1, obtained_of_cancelled hreply, (hkeeps s hs).2⟩

theorem ends_investigate (i : Invocation) :
    Ends Fresh (i.investigate client governedRunId) (Unclosed client i governedRunId) := by
  refine ends_bind (ends_precall i) fun decision => ?_
  refine ends_bind (R := fun reservationId s => Fresh s ∧
    reply client governedRunId i.precall = some decision ∧
    applyPrecallDecision decision = .ok reservationId) ?_ fun reservationId => ?_
  · rintro s ⟨hfresh, hreply⟩
    rw [run_call]
    cases happly : applyPrecallDecision decision with
    | ok given => exact ⟨hfresh, hreply, rfl⟩
    | error fault => exact .inl ⟨hfresh.1, obtained_of_error hreply happly, hfresh.2⟩
  · refine ends_update (A := Awaiting client i governedRunId reservationId) ?_ ?_
    · rintro s ⟨hfresh, hreply, happly⟩
      exact ⟨⟨rfl, decision, hreply, happly⟩, rfl, hfresh.2⟩
    · refine ends_bind ?_ fun outcome => ends_conclude outcome
      exact (ends_answerInTime reservationId).weaken (fun _ hs => hs) fun exit s hs => by
        cases exit with
        | returned outcome => exact hs
        | raised error => exact .inr hs
        | cancelled => exact .inr hs

def Accounted (client : LedgerClient) (i : Invocation) (governedRunId : Option String)
    (s : HostState) : Prop :=
  Fair (obtained client governedRunId i.precall) s.log ∧
    Settles (obtained client governedRunId i.precall) s.log

theorem Closed.accounted {s : HostState} (h : Closed client i governedRunId s) :
    Accounted client i governedRunId s :=
  ⟨h.running.fair, h.settles⟩

theorem ends_settleStarted (answer : Exit Fault Unit) :
    Ends (fun s => Idle client i governedRunId s ∨ Running client i governedRunId s)
      (Invocation.settleStarted client governedRunId answer)
      fun _ s => Accounted client i governedRunId s := by
  refine ends_read fun _ hs => ?_
  rintro s rfl
  rcases hs with ⟨hstarted, hr, hlog⟩ | hs
  · rw [hstarted]
    refine ⟨hlog.fair, ?_⟩
    rw [hr]
    exact fun _ hid => by cases hid
  · rw [if_pos hs.started.callStarted]
    exact (ends_settleFailed _ answer s ⟨hs, rfl⟩).accounted

variable (client governedRunId) in
theorem ends_guarded (i : Invocation) :
    Ends Fresh (i.guarded client governedRunId) fun _ s => Accounted client i governedRunId s := by
  refine ends_handle (ends_investigate i) (fun _ _ hs => Closed.accounted hs) (fun fault => ?_) ?_
  · exact (ends_settleStarted i.failedPostcall).keeps_bind (fun _ _ _ _ => trivial)
      fun _ _ => keeps_await _
  · exact (ends_settleStarted i.cancelledPostcall).keeps_bind (fun _ _ _ _ => trivial)
      fun _ _ => keeps_await _

end Stages

theorem contextTokens_all (i : Invocation) (runToken : Option String) (v : Var) :
    v ∈ (i.contextTokens runToken).map Sigma.fst := by
  cases v <;> simp [Invocation.contextTokens]

structure Settled (client : LedgerClient) (i : Invocation) (before : Context Value)
    (s : HostState) : Prop where
  vars : s.vars = before
  fair : Fair (i.reservation client) s.log
  settles : Settles (i.reservation client) s.log
  refused : ∀ decision, i.precall = .returned decision → decision.action.admits = false →
    Unposted s.log

theorem settled_of_accounted {runToken : Option String} (hr : i.runToken = .returned runToken)
    {s : HostState} (h : Accounted client i (governed i.runId runToken) s)
    {vars before : Context Value} (hvars : vars = before) :
    Settled client i before { s with vars := vars } := by
  obtain ⟨hfair, hsettles⟩ := h
  have hres : i.reservation client = obtained client (governed i.runId runToken) i.precall := by
    rw [Invocation.reservation, hr]
  rw [← hres] at hfair hsettles
  refine ⟨hvars, hfair, hsettles, fun decision hdecision hrefused request hmem => ?_⟩
  have hsome := hfair.own request hmem
  rw [hres, obtained_of_refused hdecision hrefused] at hsome
  cases hsome

theorem invoke_settles_and_restores (client : LedgerClient) (i : Invocation)
    (before : Context Value) :
    Settled client i before ((i.invokeNocTool client).run { vars := before }).2 := by
  have hnone (hr : i.reservation client = none) : Settled client i before { vars := before } := by
    have hlog : Unposted [] := fun _ h => by cases h
    refine ⟨rfl, hlog.fair, ?_, fun _ _ _ => hlog⟩
    rw [hr]
    exact fun _ hid => by cases hid
  cases hr : i.runToken with
  | raised fault =>
    rw [Invocation.invokeNocTool, hr]
    exact hnone (by rw [Invocation.reservation, hr])
  | cancelled =>
    rw [Invocation.invokeNocTool, hr]
    exact hnone (by rw [Invocation.reservation, hr])
  | returned runToken =>
    have hfresh : Fresh { vars := (setAll before (i.contextTokens runToken)).1 } :=
      ⟨rfl, fun _ h => by cases h⟩
    have hend := ends_guarded client (governed i.runId runToken) i _ hfresh
    have hvars := reset_restores before
      ((i.guarded client (governed i.runId runToken)).run
        { vars := (setAll before (i.contextTokens runToken)).1 }).2.vars
      (contextTokens_all i runToken)
    rw [Invocation.invokeNocTool, hr]
    exact settled_of_accounted hr hend hvars

end McpServer
