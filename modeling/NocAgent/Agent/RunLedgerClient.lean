import NocAgent.Library.Coroutine
import NocAgent.RunLedger.Service

namespace Agent

open Coroutine RunLedger

inductive Fault where
  | runHalted (reason : String)
  | timeout
  | http (statusCode : ℤ) (headers : List (String × String)) (text : String)
  | other (text : String)
deriving DecidableEq

def Fault.text : Fault → String
  | .runHalted reason => reason
  | .timeout => ""
  | .http _ _ text => text
  | .other text => text

def header (headers : List (String × String)) (name : String) : Option String :=
  headers.lookup name

-- The header names are in lower case, as _normalize_headers leaves them.
def extractRunHaltReason : Fault → Option String
  | .runHalted reason => some reason
  | .http statusCode headers _ =>
    if statusCode = 403 ∧ truthy (header headers "x-run-halt-reason") then
      header headers "x-run-halt-reason"
    else if statusCode = 429 ∧ truthy (header headers "retry-after") then
      some ("Concurrency cap reached. Retry after " ++
        (header headers "retry-after").getD "" ++ " second(s).")
    else none
  | _ => none

inductive Event where
  | precall (request : PrecallRequest)
  | answered
  | postcall (request : PostcallRequest)
deriving DecidableEq

def Event.settles (reservationId : String) : Event → Bool
  | .postcall request => request.reservationId = reservationId
  | _ => false

def Event.reports : Event → Bool
  | .postcall request => !request.failed
  | _ => false

-- The ledger as the agent reaches it: no base URL where none is configured.
structure LedgerClient where
  baseUrl : String
  sha256 : String → String

def postcallPayload (runId reservationId model : String) (inputTokens outputTokens : ℕ)
    (failed : Bool) : PostcallRequest :=
  if failed then { runId := runId, reservationId := reservationId, failed := true }
  else
    { runId := runId
      reservationId := reservationId
      inputTokens := inputTokens
      outputTokens := outputTokens
      model := some model }

@[simp] theorem postcallPayload_reservationId (runId reservationId model : String)
    (input output : ℕ) (failed : Bool) :
    (postcallPayload runId reservationId model input output failed).reservationId =
      reservationId := by
  cases failed <;> rfl

@[simp] theorem postcallPayload_failed (runId reservationId model : String) (input output : ℕ)
    (failed : Bool) :
    (postcallPayload runId reservationId model input output failed).failed = failed := by
  cases failed <;> rfl

section Client
variable {σ : Type} (record : Event → σ → σ) (client : LedgerClient)

def precallRequest (runId step model : String) (estInputTokens : ℕ) (prompt : String) :
    PrecallRequest where
  runId := runId
  step := step
  model := model
  estInputTokens := estInputTokens
  maxOutputTokens := some 1024
  promptHash := client.sha256 prompt

def runLedgerPrecall (request : PrecallRequest) (answer : Exit Fault PrecallResponse) :
    Coroutine σ Fault (Option PrecallResponse) :=
  if client.baseUrl = "" then pure none
  else do
    update (record (.precall request))
    exceptRaised (do return some (← await answer)) fun _ => pure none

def runLedgerPostcall (runId : String) (reservationId : Option String) (model : String)
    (inputTokens outputTokens : ℕ) (failed : Bool) (answer : Exit Fault Unit) :
    Coroutine σ Fault Unit :=
  if client.baseUrl = "" ∨ truthy reservationId = false then pure ()
  else do
    update (record (.postcall
      (postcallPayload runId (reservationId.getD "") model inputTokens outputTokens failed)))
    exceptRaised (await answer) fun _ => pure ()

def governed (runId : String) (runToken : Option String) : Option String :=
  if truthy runToken then some runId else none

def precallWhen (governedRunId : Option String) (request : String → PrecallRequest)
    (answer : Exit Fault PrecallResponse) : Coroutine σ Fault (Option PrecallResponse) :=
  match governedRunId with
  | none => pure none
  | some runId => runLedgerPrecall record client (request runId) answer

def postcallWhen (governedRunId reservationId : Option String) (model : String)
    (inputTokens outputTokens : ℕ) (failed : Bool) (answer : Exit Fault Unit) :
    Coroutine σ Fault Unit :=
  match governedRunId with
  | none => pure ()
  | some runId =>
    runLedgerPostcall record client runId reservationId model inputTokens outputTokens failed answer

def applyPrecallDecision : Option PrecallResponse → Except Fault (Option String)
  | none => .ok none
  | some decision =>
    match decision.action with
    | .halt => .error (.runHalted
        (orText (decision.haltReason.getD "") "Run budget or policy exhausted."))
    | .queue => .error (.runHalted "Run concurrency cap reached. Please retry shortly.")
    | _ => .ok decision.reservationId

end Client

section Replies
variable (client : LedgerClient) (governedRunId : Option String)

def reply (answer : Exit Fault PrecallResponse) : Option (Option PrecallResponse) :=
  if client.baseUrl = "" ∨ governedRunId = none then some none
  else
    match answer with
    | .returned decision => some (some decision)
    | .raised _ => some none
    | .cancelled => none

def reservationOf (decision : Option PrecallResponse) : Option String :=
  match applyPrecallDecision decision with
  | .ok reservationId => if truthy reservationId then reservationId else none
  | .error _ => none

def obtained (answer : Exit Fault PrecallResponse) : Option String :=
  (reply client governedRunId answer).bind reservationOf

end Replies

section Obtained
variable {client : LedgerClient} {governedRunId : Option String}
  {answer : Exit Fault PrecallResponse}

theorem obtained_eq_some {id : String} (h : obtained client governedRunId answer = some id) :
    client.baseUrl ≠ "" ∧ truthy (some id) = true ∧ (∃ runId, governedRunId = some runId) ∧
      ∃ decision, reply client governedRunId answer = some (some decision) ∧
        applyPrecallDecision (some decision) = .ok (some id) := by
  obtain ⟨reply', hreply, hof⟩ := Option.bind_eq_some_iff.mp h
  unfold reservationOf at hof
  split at hof
  · rename_i reservationId happly
    split_ifs at hof with htruthy
    subst hof
    cases reply' with
    | none => cases happly
    | some decision =>
      have hmade : ¬ (client.baseUrl = "" ∨ governedRunId = none) := by
        intro hnone
        unfold reply at hreply
        rw [if_pos hnone] at hreply
        cases hreply
      rw [not_or] at hmade
      exact ⟨hmade.1, htruthy, Option.ne_none_iff_exists'.mp hmade.2, decision, hreply, happly⟩
  · cases hof

theorem obtained_of_sent {decision : Option PrecallResponse} {reservationId : Option String}
    (hreply : reply client governedRunId answer = some decision)
    (happly : applyPrecallDecision decision = .ok reservationId)
    (hid : truthy reservationId = true) :
    obtained client governedRunId answer = reservationId := by
  rw [obtained, hreply, Option.bind_some, reservationOf, happly]
  exact if_pos hid

theorem obtained_of_error {decision : Option PrecallResponse} {fault : Fault}
    (hreply : reply client governedRunId answer = some decision)
    (happly : applyPrecallDecision decision = .error fault) :
    obtained client governedRunId answer = none := by
  rw [obtained, hreply, Option.bind_some, reservationOf, happly]

theorem obtained_of_cancelled (hreply : reply client governedRunId answer = none) :
    obtained client governedRunId answer = none := by
  rw [obtained, hreply, Option.bind_none]

theorem obtained_of_refused {decision : PrecallResponse} (hanswer : answer = .returned decision)
    (hrefused : decision.action.admits = false) :
    obtained client governedRunId answer = none := by
  unfold obtained reply
  rw [hanswer]
  split_ifs
  · rfl
  · rw [Option.bind_some, reservationOf]
    cases haction : decision.action with
    | halt => simp [applyPrecallDecision, haction]
    | queue => simp [applyPrecallDecision, haction]
    | allow =>
      rw [haction] at hrefused
      cases hrefused
    | mutate =>
      rw [haction] at hrefused
      cases hrefused

end Obtained

section Runs
variable {σ : Type} {record : Event → σ → σ} {client : LedgerClient}
  {governedRunId : Option String}

variable (record client governedRunId) in
theorem precallWhen_exit (request : String → PrecallRequest) (answer : Exit Fault PrecallResponse)
    (s : σ) :
    ((precallWhen record client governedRunId request answer).run s).1 =
      match reply client governedRunId answer with
      | some decision => .returned decision
      | none => .cancelled := by
  unfold precallWhen reply
  cases governedRunId with
  | none => simp
  | some runId =>
    unfold runLedgerPrecall
    by_cases hbase : client.baseUrl = ""
    · simp [hbase]
    · have hmade : ¬ (client.baseUrl = "" ∨ some runId = none) := by simp [hbase]
      simp only [if_neg hbase, if_neg hmade]
      cases answer <;> rfl

theorem keeps_precallWhen {P : σ → Prop} (hrecord : ∀ r s, P s → P (record (.precall r) s))
    (request : String → PrecallRequest) (answer : Exit Fault PrecallResponse) :
    Keeps P (precallWhen record client governedRunId request answer) := by
  unfold precallWhen
  split
  · exact keeps_await _
  · rename_i runId
    unfold runLedgerPrecall
    split_ifs
    · exact keeps_await _
    · have hsent : Keeps P (update (record (.precall (request runId))) : Coroutine _ Fault Unit) :=
        fun s hs => hrecord _ s hs
      exact hsent.bind fun _ => Keeps.handle ((keeps_await _).bind fun _ => keeps_await _)
        (fun _ => keeps_await _) (keeps_await _)

theorem reply_of_precallWhen {request : String → PrecallRequest}
    {answer : Exit Fault PrecallResponse} {s : σ} {decision : Option PrecallResponse}
    (h : ((precallWhen record client governedRunId request answer).run s).1 = .returned decision) :
    reply client governedRunId answer = some decision := by
  rw [precallWhen_exit] at h
  split at h
  · rename_i given hgiven
    rw [hgiven, Exit.returned.inj h]
  · cases h

theorem postcallWhen_run (reservationId : Option String) (model : String)
    (inputTokens outputTokens : ℕ) (failed : Bool) (answer : Exit Fault Unit) (s : σ) :
    (postcallWhen record client governedRunId reservationId model inputTokens outputTokens failed
        answer).run s =
      if client.baseUrl = "" ∨ governedRunId = none ∨ truthy reservationId = false then
        (.returned (), s)
      else
        ((match answer with
          | .cancelled => .cancelled
          | _ => .returned ()),
          record (.postcall (postcallPayload (governedRunId.getD "") (reservationId.getD "") model
            inputTokens outputTokens failed)) s) := by
  unfold postcallWhen
  cases governedRunId with
  | none => simp
  | some runId =>
    unfold runLedgerPostcall
    by_cases hsent : client.baseUrl = "" ∨ truthy reservationId = false
    · have hnone : client.baseUrl = "" ∨ some runId = none ∨ truthy reservationId = false := by
        simpa using hsent
      simp only [if_pos hsent, if_pos hnone, run_pure]
    · have hsome : ¬ (client.baseUrl = "" ∨ some runId = none ∨ truthy reservationId = false) := by
        simpa using hsent
      simp only [if_neg hsent, if_neg hsome]
      cases answer <;> rfl

theorem reply_of_obtained {answer : Exit Fault PrecallResponse} {id : String}
    {decision : Option PrecallResponse} {reservationId : Option String}
    (hreply : reply client governedRunId answer = some decision)
    (happly : applyPrecallDecision decision = .ok reservationId)
    (h : obtained client governedRunId answer = some id) : reservationId = some id := by
  obtain ⟨-, -, -, given, hgiven, hid⟩ := obtained_eq_some h
  rw [hreply] at hgiven
  rw [Option.some.inj hgiven, hid] at happly
  exact (Except.ok.inj happly).symm

theorem postcallWhen_sent {id runId : String} (hbase : client.baseUrl ≠ "")
    (hid : truthy (some id) = true) (model : String) (inputTokens outputTokens : ℕ)
    (failed : Bool) (answer : Exit Fault Unit) (s : σ) :
    ∃ exit, (postcallWhen record client (some runId) (some id) model inputTokens outputTokens
        failed answer).run s =
      (exit, record (.postcall (postcallPayload runId id model inputTokens outputTokens failed))
        s) := by
  rw [postcallWhen_run, if_neg (by simp [hbase, hid])]
  exact ⟨_, rfl⟩

end Runs

def append (event : Event) (log : List Event) : List Event := log ++ [event]

def Settled (reservationId : String) (postcalls log : List Event) : Prop :=
  log.filter (Event.settles reservationId) = postcalls

theorem Settled.append {id : String} {postcalls log : List Event} {event : Event}
    (h : Settled id postcalls log) (he : event.settles id = false) :
    Settled id postcalls (append event log) := by
  unfold Settled Agent.append
  rw [List.filter_append, h, List.filter_singleton, he]
  simp

section Frames
variable {client : LedgerClient} {id : String} {governedRunId : Option String}
  {postcalls : List Event}

theorem precallWhen_returned {answer : Exit Fault PrecallResponse}
    {decision : Option PrecallResponse}
    (hreply : reply client governedRunId answer = some decision)
    (request : String → PrecallRequest) :
    ∃ log, (∀ id, Settled id [] log) ∧
      (precallWhen append client governedRunId request answer).run [] =
        (.returned decision, log) := by
  have hexit := precallWhen_exit append client governedRunId request answer []
  rw [hreply] at hexit
  exact ⟨_, fun id => keeps_precallWhen (fun _ _ hs => hs.append rfl) request answer [] rfl,
    Prod.ext hexit rfl⟩

def Foreign (client : LedgerClient) (governedRunId : Option String) (id : String)
    (reservationId : Option String) : Prop :=
  client.baseUrl ≠ "" → governedRunId ≠ none → truthy reservationId = true →
    reservationId ≠ some id

theorem keeps_postcallWhen {reservationId : Option String}
    (h : Foreign client governedRunId id reservationId) (model : String) (input output : ℕ)
    (failed : Bool) (answer : Exit Fault Unit) :
    Keeps (Settled id postcalls)
      (postcallWhen append client governedRunId reservationId model input output failed answer) := by
  intro log hlog
  rw [postcallWhen_run]
  split_ifs with hsent
  · exact hlog
  · rw [not_or, not_or, Bool.not_eq_false] at hsent
    obtain ⟨hbase, hrun, hid⟩ := hsent
    obtain ⟨text, htext⟩ : ∃ text, reservationId = some text := by
      cases reservationId with
      | none => exact absurd hid (by simp [truthy])
      | some text => exact ⟨text, rfl⟩
    have hne : text ≠ id := fun he => h hbase hrun hid (by rw [htext, he])
    refine hlog.append ?_
    simp [htext, Event.settles, hne]

theorem foreign_of_obtained {answer : Exit Fault PrecallResponse}
    {decision : Option PrecallResponse} {reservationId : Option String}
    (hne : obtained client governedRunId answer ≠ some id)
    (hreply : reply client governedRunId answer = some decision)
    (happly : applyPrecallDecision decision = .ok reservationId) :
    Foreign client governedRunId id reservationId := by
  intro _ _ hid hsome
  exact hne ((obtained_of_sent hreply happly hid).trans hsome)

end Frames

end Agent
