import NocAgent.Agent.Specialist
import Mathlib.Data.List.Nodup
import Mathlib.Data.List.Perm.Basic

namespace Agent

open Coroutine RunLedger

structure AgentResult where
  usage : Option Usage := none
  text : String := ""
deriving DecidableEq

-- One turn's task and how everything it awaits ends: a cancellation at an await is the watchdog's.
-- The specialist calls that the model makes run side by side; the ledger gives no id twice.
structure Turn (client : LedgerClient) where
  modelDeployment : String
  history : List String
  runId : String
  runToken : Option String
  precall : Exit Fault PrecallResponse
  nested : List SpecialistCall
  nestedLog : List Event
  interleaves : nestedLog.Perm (nested.flatMap (·.log client))
  agentRun : Exit Fault AgentResult
  failedPostcall : Exit Fault Unit
  emitUsage : AgentResult → Except Fault Unit
  usagePostcall : Exit Fault Unit
  pendingConsent : Option (String × String)
  distinct : ((obtained client (governed runId runToken) precall).toList ++
    nested.filterMap (·.reservation client)).Nodup

namespace Turn
variable {client : LedgerClient} (t : Turn client)

def governedRunId : Option String := governed t.runId t.runToken

def estInputTokens : ℕ := (t.history.map String.length).sum / 4

def request (runId : String) : PrecallRequest :=
  precallRequest client runId "1" t.modelDeployment t.estInputTokens
    ("\n".intercalate t.history)

def settle (reservationId : Option String) (model : String) (input output : ℕ) (failed : Bool)
    (answer : Exit Fault Unit) : Coroutine (List Event) Fault Unit :=
  postcallWhen append client t.governedRunId reservationId model input output failed answer

def runAgent : Coroutine (List Event) Fault AgentResult := do
  update (· ++ t.nestedLog)
  await t.agentRun

def fail (reservationId : Option String) (fault : Fault) :
    Coroutine (List Event) Fault AgentResult := do
  t.settle reservationId "" 0 0 true t.failedPostcall
  raise fault

def report (reservationId : Option String) (result : AgentResult) :
    Coroutine (List Event) Fault (AgentResult × Option (String × String)) := do
  call (t.emitUsage result)
  t.settle reservationId t.modelDeployment (inputTokens result.usage) (outputTokens result.usage)
    false t.usagePostcall
  return (result, t.pendingConsent)

def proceed (reservationId : Option String) :
    Coroutine (List Event) Fault (AgentResult × Option (String × String)) := do
  let result ← exceptRaised t.runAgent (t.fail reservationId)
  t.report reservationId result

def runTurn : Coroutine (List Event) Fault (AgentResult × Option (String × String)) := do
  let decision ← precallWhen append client t.governedRunId t.request t.precall
  let reservationId ← call (applyPrecallDecision decision)
  t.proceed reservationId

def log : List Event := (t.runTurn.run []).2

def reservation : Option String := obtained client t.governedRunId t.precall

def Reaches : Prop :=
  ∃ decision reservationId, reply client t.governedRunId t.precall = some decision ∧
    applyPrecallDecision decision = .ok reservationId

def settlement (reservationId : String) : PostcallRequest :=
  match t.agentRun with
  | .returned result => postcallPayload t.runId reservationId t.modelDeployment
      (inputTokens result.usage) (outputTokens result.usage) false
  | _ => postcallPayload t.runId reservationId "" 0 0 true

def Completes : Prop :=
  match t.agentRun with
  | .cancelled => False
  | .raised _ => True
  | .returned result => t.emitUsage result = .ok ()

@[simp] theorem settlement_reservationId (id : String) : (t.settlement id).reservationId = id := by
  unfold settlement postcallPayload
  split <;> simp

variable {t} {id : String}

theorem settle_sent (hbase : client.baseUrl ≠ "") (hid : truthy (some id) = true)
    (hrun : t.governedRunId = some t.runId) (model : String) (input output : ℕ) (failed : Bool)
    (answer : Exit Fault Unit) (log : List Event) :
    ∃ exit, (t.settle (some id) model input output failed answer).run log =
      (exit, log ++ [.postcall (postcallPayload t.runId id model input output failed)]) := by
  rw [settle, hrun]
  exact postcallWhen_sent hbase hid ..

theorem runAgent_run (t : Turn client) (log : List Event) :
    t.runAgent.run log = (t.agentRun, log ++ t.nestedLog) := rfl

theorem proceed_of_completes (hbase : client.baseUrl ≠ "") (hid : truthy (some id) = true)
    (hrun : t.governedRunId = some t.runId) (hc : t.Completes) (log : List Event) :
    ((t.proceed (some id)).run log).2 =
      log ++ t.nestedLog ++ [.postcall (t.settlement id)] := by
  have hbody := t.runAgent_run log
  rw [proceed, exceptRaised]
  cases hagent : t.agentRun with
  | cancelled =>
    rw [Completes, hagent] at hc
    exact hc.elim
  | raised fault =>
    rw [hagent] at hbody
    obtain ⟨settled, hsettle⟩ :=
      settle_sent hbase hid hrun "" 0 0 true t.failedPostcall (log ++ t.nestedLog)
    have hlog : ((t.fail (some id) fault).run (log ++ t.nestedLog)).2 =
        log ++ t.nestedLog ++ [.postcall (t.settlement id)] := by
      rw [settlement, hagent]
      exact bind_idle hsettle fun _ _ => rfl
    refine bind_idle ((handle_raised hbody).trans (Prod.ext rfl hlog)) fun result hresult => ?_
    exact absurd hresult (bind_raise_ne_returned fault result)
  | returned result =>
    rw [hagent] at hbody
    rw [Completes, hagent] at hc
    obtain ⟨settled, hsettle⟩ := settle_sent hbase hid hrun t.modelDeployment
      (inputTokens result.usage) (outputTokens result.usage) false t.usagePostcall
      (log ++ t.nestedLog)
    rw [bind_returned (handle_returned hbody), report, bind_returned (call_ok hc), settlement,
      hagent]
    exact bind_idle hsettle fun _ _ => rfl

theorem proceed_of_not_completes {reservationId : Option String} (hc : ¬ t.Completes)
    (log : List Event) : ((t.proceed reservationId).run log).2 = log ++ t.nestedLog := by
  have hbody := t.runAgent_run log
  rw [proceed, exceptRaised]
  cases hagent : t.agentRun with
  | cancelled =>
    rw [hagent] at hbody
    rw [bind_cancelled (handle_cancelled hbody)]
  | raised fault =>
    rw [Completes, hagent] at hc
    exact absurd trivial hc
  | returned result =>
    rw [hagent] at hbody
    rw [bind_returned (handle_returned hbody), report]
    cases hemit : t.emitUsage result with
    | error fault => rfl
    | ok u =>
      rw [Completes, hagent] at hc
      exact absurd hemit hc

theorem runTurn_of_reply {decision : Option PrecallResponse} {reservationId : Option String}
    (hreply : reply client t.governedRunId t.precall = some decision)
    (happly : applyPrecallDecision decision = .ok reservationId) :
    ∃ log, (∀ id, Settled id [] log) ∧ t.runTurn.run [] = (t.proceed reservationId).run log := by
  obtain ⟨log, hlog, hdecide⟩ := precallWhen_returned hreply t.request
  refine ⟨log, hlog, ?_⟩
  rw [runTurn, bind_returned hdecide, happly]
  rfl

theorem proceed_frame {reservationId : Option String}
    (h : Foreign client t.governedRunId id reservationId) {log : List Event}
    (hlog : Settled id [] log) :
    Settled id (t.nestedLog.filter (Event.settles id)) ((t.proceed reservationId).run log).2 := by
  have hagent : Ends (· = log) t.runAgent fun _ final =>
      Settled id (t.nestedLog.filter (Event.settles id)) final := by
    rintro _ rfl
    change (_ ++ t.nestedLog).filter _ = _
    rw [List.filter_append, hlog, List.nil_append]
  have hfail (fault : Fault) :
      Keeps (Settled id (t.nestedLog.filter (Event.settles id))) (t.fail reservationId fault) :=
    Keeps.bind (keeps_postcallWhen h _ _ _ _ _) fun _ => keeps_await _
  have htry : Ends (· = log) (exceptRaised t.runAgent (t.fail reservationId)) fun _ final =>
      Settled id (t.nestedLog.filter (Event.settles id)) final :=
    ends_handle hagent (fun _ _ hs => hs) hfail (keeps_await _)
  refine htry.keeps_bind (fun _ _ _ _ => trivial) (fun result _ => ?_) log rfl
  exact (keeps_call _).bind fun _ =>
    Keeps.bind (keeps_postcallWhen h _ _ _ _ _) fun _ => keeps_await _

theorem nested_unsettled (calls : List SpecialistCall)
    (h : id ∉ calls.filterMap (·.reservation client)) :
    Settled id [] (calls.flatMap (·.log client)) := by
  rw [Settled, List.filter_flatMap, List.flatMap_eq_nil_iff]
  intro c hc
  refine SpecialistCall.log_frame fun hid => h ?_
  exact List.mem_filterMap.mpr ⟨c, hc, hid⟩

theorem nested_settled {calls : List SpecialistCall} {c : SpecialistCall} (hc : c ∈ calls)
    (hid : c.reservation client = some id)
    (hd : (calls.filterMap (·.reservation client)).Nodup) :
    (calls.flatMap (·.log client)).filter (Event.settles id) =
      (c.log client).filter (Event.settles id) := by
  induction calls with
  | nil => cases hc
  | cons d ds ih =>
    rw [List.flatMap_cons, List.filter_append]
    rcases List.mem_cons.mp hc with rfl | hmem
    · rw [List.filterMap_cons_some hid, List.nodup_cons] at hd
      rw [nested_unsettled ds hd.1, List.append_nil]
    · have hin : id ∈ ds.filterMap (·.reservation client) :=
        List.mem_filterMap.mpr ⟨c, hmem, hid⟩
      have hne : d.reservation client ≠ some id := by
        intro hsome
        rw [List.filterMap_cons_some hsome, List.nodup_cons] at hd
        exact hd.1 hin
      have hrest : (ds.filterMap (·.reservation client)).Nodup :=
        hd.sublist ((List.sublist_cons_self d ds).filterMap _)
      rw [SpecialistCall.log_frame hne, List.nil_append]
      exact ih hmem hrest

theorem nestedLog_settled_iff (t : Turn client) (calls : List Event) {x : Event}
    (h : (t.nested.flatMap (·.log client)).filter (Event.settles id) = calls) :
    t.nestedLog.filter (Event.settles id) = [x] ↔ calls = [x] := by
  have hperm := t.interleaves.filter (Event.settles id)
  rw [h] at hperm
  rw [← List.perm_singleton, ← List.perm_singleton]
  exact ⟨hperm.symm.trans, hperm.trans⟩

theorem not_mem_nested (t : Turn client) (h : t.reservation = some id) :
    id ∉ t.nested.filterMap (·.reservation client) := by
  have hd := t.distinct
  change (t.reservation.toList ++ _).Nodup at hd
  rw [h, Option.toList_some, List.singleton_append, List.nodup_cons] at hd
  exact hd.1

theorem own_settled_iff (t : Turn client) (h : t.reservation = some id) :
    Settled id [.postcall (t.settlement id)] t.log ↔ t.Completes := by
  obtain ⟨hbase, hid, ⟨runId, hrun⟩, decision, hreply, happly⟩ := obtained_eq_some h
  obtain ⟨log, hlog, hturn⟩ := runTurn_of_reply hreply happly
  have hown : t.governedRunId = some t.runId := by
    unfold governedRunId governed at hrun ⊢
    split_ifs at hrun ⊢
    rfl
  have hnested : t.nestedLog.filter (Event.settles id) = [] :=
    List.Perm.eq_nil ((t.interleaves.filter _).trans
      (.of_eq (nested_unsettled t.nested (t.not_mem_nested h))))
  have hbefore := hlog id
  unfold Settled at hbefore ⊢
  rw [Turn.log, hturn]
  by_cases hc : t.Completes
  · rw [proceed_of_completes hbase hid hown hc]
    simp [hc, hbefore, hnested, Event.settles]
  · rw [proceed_of_not_completes hc]
    simp [hc, hbefore, hnested]

theorem nested_settled_iff (t : Turn client) (hreach : t.Reaches) {c : SpecialistCall}
    (hc : c ∈ t.nested) (h : c.reservation client = some id) :
    Settled id [.postcall (c.settlement client id)] t.log ↔ c.Completes client := by
  obtain ⟨decision, reservationId, hreply, happly⟩ := hreach
  obtain ⟨log, hlog, hturn⟩ := runTurn_of_reply hreply happly
  have hne : t.reservation ≠ some id := fun hsome =>
    t.not_mem_nested hsome (List.mem_filterMap.mpr ⟨c, hc, h⟩)
  have hframe := proceed_frame (foreign_of_obtained hne hreply happly) (hlog id)
  have hcalls := nested_settled hc h (List.nodup_append.mp t.distinct).2.1
  rw [← SpecialistCall.log_settled_iff h]
  unfold Settled at hframe ⊢
  rw [Turn.log, hturn, hframe, t.nestedLog_settled_iff _ hcalls]

end Turn

theorem agent_settles_iff (client : LedgerClient) :
    (∀ (c : SpecialistCall) (id : String), c.reservation client = some id →
      (Settled id [.postcall (c.settlement client id)] (c.log client) ↔ c.Completes client)) ∧
    ∀ t : Turn client,
      (∀ id, t.reservation = some id →
        (Settled id [.postcall (t.settlement id)] t.log ↔ t.Completes)) ∧
      (t.Reaches → ∀ c ∈ t.nested, ∀ id, c.reservation client = some id →
        (Settled id [.postcall (c.settlement client id)] t.log ↔ c.Completes client)) :=
  ⟨fun _ _ h => SpecialistCall.log_settled_iff h, fun t =>
    ⟨fun _ h => t.own_settled_iff h, fun hreach _ hc _ h => t.nested_settled_iff hreach hc h⟩⟩

section Example

-- The digest is that of the empty prompt.
def demoClient : LedgerClient where
  baseUrl := "https://ledger"
  sha256 _ := "e3b0c44298fc1c149afbf4c8996fb92427ae41e4649b934ca495991b7852b855"

def allowed : PrecallResponse where
  action := .allow
  modelOverride := none
  maxOutputTokens := some 1024
  inject := none
  haltReason := none
  reservationId := some "r1"

def watchedTurn : Turn demoClient where
  modelDeployment := "gpt-5.4"
  history := [""]
  runId := "run"
  runToken := some "token"
  precall := .returned allowed
  nested := []
  nestedLog := []
  interleaves := .refl _
  agentRun := .cancelled
  failedPostcall := .returned ()
  emitUsage _ := .ok ()
  usagePostcall := .returned ()
  pendingConsent := none
  distinct := by decide

def clientlessCall : SpecialistCall where
  agentName := "noc-knowledge-agent"
  question := ""
  runId := some "run"
  runToken := some "token"
  step := some "2"
  entry := .returned none
  precall := .returned allowed
  construct := .error (.other "invalid endpoint")
  prepare := .ok ()
  create _ := .returned {}
  failedPostcall := .returned ()
  close := .ok ()
  emitUsage _ := .ok ()
  usagePostcall := .returned ()
  outputText _ := .ok "answer"

theorem reservations_left_open :
    (watchedTurn.reservation = some "r1" ∧ Settled "r1" [] watchedTurn.log ∧
      ¬ Settled "r1" [.postcall (watchedTurn.settlement "r1")] watchedTurn.log) ∧
    clientlessCall.reservation demoClient = some "r1" ∧
      Settled "r1" [] (clientlessCall.log demoClient) ∧
      ¬ Settled "r1" [.postcall (clientlessCall.settlement demoClient "r1")]
        (clientlessCall.log demoClient) := by
  have hturn : Settled "r1" [] watchedTurn.log := rfl
  have hcall : Settled "r1" [] (clientlessCall.log demoClient) := rfl
  refine ⟨⟨rfl, hturn, fun h => ?_⟩, rfl, hcall, fun h => ?_⟩
  · cases hturn.symm.trans h
  · cases hcall.symm.trans h

end Example

end Agent
