import NocAgent.Gateway.AllowedModels
import NocAgent.Gateway.Mutate
import NocAgent.RunLedger.ConcurrencyCap

namespace Gateway

open Json.Members RunLedger

inductive Api where
  | openai | foundry
deriving DecidableEq, Repr

-- `hash` is GetHashCode().ToString().
structure Pipeline where
  api : Api
  nt : Newtonsoft
  hash : String → String
  allowed : List String
  service : RunLedgerService

-- `runId` is none when the run token does not validate, `body` when `text` is no JSON object.
structure Request where
  runId : Option String
  step : String
  path : List Char
  text : List Char
  body : Option Json.Members

section Casts
variable (nt : Newtonsoft)

def castText : Option Json → Option (Option String)
  | none => some none
  | some token => nt.asString token

def castInt : Option Json → Option (Option ℤ)
  | none => some none
  | some .null => some none
  | some token => (nt.asInt token).map some

def usageField : Option Json → String → Option (Option Json)
  | none, _ => some none
  | some (.obj ms), key => some (find ms key)
  | some _, _ => none

-- (int?)first ?? (int?)second ?? default
def coalesce (first second : Option Json) (default : ℤ) : Option ℤ :=
  match castInt nt first with
  | none => none
  | some (some n) => some n
  | some none => (castInt nt second).map (·.getD default)

def usageTokens (u : Option Json) (name other : String) : Option ℤ := do
  let first ← usageField u name
  let second ← usageField u other
  coalesce nt first second 0

end Casts

def utf16Length (text : String) : ℕ :=
  (text.toList.map fun c => if c.toNat < 65536 then 1 else 2).sum

structure PrecallBody where
  runId : String
  step : String
  model : Option String
  estInputTokens : ℕ
  maxOutputTokens : ℤ
  promptHash : String
deriving DecidableEq, Repr

structure PostcallBody where
  runId : String
  reservationId : Option String
  inputTokens : ℤ := 0
  outputTokens : ℤ := 0
  model : Option String := none
  failed : Bool := false
deriving DecidableEq, Repr

def PrecallBody.validated (sent : PrecallBody) : Option PrecallRequest :=
  match sent.model with
  | none => none
  | some model =>
    if sent.maxOutputTokens < 0 then none
    else some
      { runId := sent.runId
        step := sent.step
        model := model
        estInputTokens := sent.estInputTokens
        maxOutputTokens := some sent.maxOutputTokens.toNat
        promptHash := sent.promptHash }

def PostcallBody.validated (sent : PostcallBody) : Option PostcallRequest :=
  match sent.reservationId with
  | none => none
  | some reservationId =>
    if sent.inputTokens < 0 ∨ sent.outputTokens < 0 then none
    else some
      { runId := sent.runId
        reservationId := reservationId
        inputTokens := sent.inputTokens.toNat
        outputTokens := sent.outputTokens.toNat
        model := sent.model
        failed := sent.failed }

-- What the send-request leaves in decisionRes: a decision, another status with a JSON body, a
-- body that is no JSON, or null.
inductive Reply where
  | decision (response : PrecallResponse)
  | rejected
  | crashed
  | lost
deriving DecidableEq, Repr

def Reply.granted : Reply → Option String
  | .decision response => response.reservationId
  | _ => none

def answerTo : Except PyError PrecallResponse → Reply
  | .ok response => .decision response
  | .error (.keyError _) => .rejected
  | .error .zeroDivisionError | .error .overflowError | .error .valueError => .crashed

inductive Verdict where
  | unsent | halted | queued | faulted | refused | reported | unreported
deriving DecidableEq, Repr

inductive Choice where
  | stop (verdict : Verdict)
  | go (rewritten : Option Json.Members) (reservationId : Option String)

def failedReport (runId : String) (reservationId : Option String) : PostcallBody :=
  { runId := runId, reservationId := reservationId, failed := true }

namespace Pipeline
variable (p : Pipeline)

def promptText (b : Json.Members) : String :=
  match (find b "input").or (find b "messages") with
  | none => ""
  | some source => inputText p.nt source

def precallBody (runId step : String) (b : Json.Members) : Option PrecallBody := do
  let model ← castText p.nt (find b "model")
  let cap ← coalesce p.nt (find b "max_output_tokens") (find b "max_tokens") 1024
  return {
    runId := runId
    step := step
    model := model
    estInputTokens := utf16Length (p.promptText b) / 4
    maxOutputTokens := cap
    promptHash := p.hash (p.promptText b) }

def serve (w : World) (sent : PrecallBody) (uuid : String) : World × Reply :=
  match sent.validated with
  | none => (w, .rejected)
  | some body =>
    (w.step p.service (.precall body uuid), answerTo (p.service.precall body uuid w.redis).2)

def choose (b : Json.Members) : Reply → Choice
  | .decision response =>
    match response.action with
    | .halt => .stop .halted
    | .queue => .stop .queued
    | .allow => .go none response.reservationId
    | .mutate =>
      match mutateBody p.nt (responseMembers response) b with
      | none => .stop .faulted
      | some b' => .go (some b') response.reservationId
  | .rejected => .go none none
  | .crashed => .stop .faulted
  | .lost => .stop .faulted

def sentText (r : Request) : Option Json.Members → List Char
  | none => r.text
  | some b => (p.nt.toText (.obj b)).toList

def Passes (path text : List Char) : Prop :=
  match p.api with
  | .openai => OpenAI.Passes p.allowed path
  | .foundry => Foundry.Passes p.allowed text

instance (path text : List Char) : Decidable (p.Passes path text) := by
  unfold Passes OpenAI.Passes Foundry.Passes
  split <;> infer_instance

def usageReport (runId : String) (reservationId : Option String) (r : Json.Members) :
    Option PostcallBody := do
  let inputTokens ← usageTokens p.nt (find r "usage") "input_tokens" "prompt_tokens"
  let outputTokens ← usageTokens p.nt (find r "usage") "output_tokens" "completion_tokens"
  let model ← castText p.nt (find r "model")
  return {
    runId := runId
    reservationId := reservationId
    inputTokens := inputTokens
    outputTokens := outputTokens
    model := model }

end Pipeline

inductive Phase where
  | arrived
  | awaiting (runId : String) (body : Json.Members) (reply : Reply)
  | forwarded (runId : String) (text : List Char) (reservationId : Option String)
  | posting (report : PostcallBody)
  | closed (verdict : Verdict)

-- `granted` is not in the policy: the reservation the ledger made for the request.
structure Exchange where
  request : Request
  phase : Phase := .arrived
  granted : Option String := none

inductive Delivery where
  | dropped | replyLost | served
deriving DecidableEq, Repr

-- What a step of the pipeline meets: the token limit and the fate of the precall; the caller's
-- identity, and what runs after the model gate; the backend's response, of which the body may be
-- no JSON object; the fate of the postcall.
inductive Event where
  | precall (uuid : String) (withinLimit : Bool) (delivery : Delivery)
  | proceed (identified limited : Bool)
  | answer (response : Option (Option Json.Members))
  | deliver (arrives : Bool)

namespace Pipeline
variable (p : Pipeline)

def sendPrecall (w : World) (x : Exchange) (uuid : String) (withinLimit : Bool)
    (delivery : Delivery) : World × Exchange :=
  match x.request.runId, x.request.body with
  | some runId, some b =>
    match withinLimit, p.precallBody runId x.request.step b with
    | true, some sent =>
      match delivery with
      | .dropped => (w, { x with phase := .awaiting runId b .lost })
      | .replyLost =>
        ((p.serve w sent uuid).1,
          { x with phase := .awaiting runId b .lost, granted := (p.serve w sent uuid).2.granted })
      | .served =>
        ((p.serve w sent uuid).1,
          { x with
            phase := .awaiting runId b (p.serve w sent uuid).2
            granted := (p.serve w sent uuid).2.granted })
    | _, _ => (w, { x with phase := .closed .unsent })
  | _, _ => (w, { x with phase := .closed .unsent })

def proceed (r : Request) (runId : String) (b : Json.Members) (reply : Reply)
    (identified limited : Bool) : Phase :=
  match p.choose b reply with
  | .stop verdict => .closed verdict
  | .go rewritten reservationId =>
    if identified = false then .posting (failedReport runId reservationId)
    else if ¬ p.Passes r.path (p.sentText r rewritten) then .closed .refused
    else if limited = false then .posting (failedReport runId reservationId)
    else .forwarded runId (p.sentText r rewritten) reservationId

def answered (runId : String) (reservationId : Option String)
    (response : Option (Option Json.Members)) : Phase :=
  .posting (((response.join).bind (p.usageReport runId reservationId)).getD
    (failedReport runId reservationId))

def deliver (w : World) (report : PostcallBody) (arrives : Bool) : World × Phase :=
  match arrives, report.validated with
  | true, some body => (w.step p.service (.postcall body), .closed .reported)
  | _, _ => (w, .closed .unreported)

def step (w : World) (x : Exchange) : Event → World × Exchange
  | .precall uuid withinLimit delivery =>
    match x.phase with
    | .arrived => p.sendPrecall w x uuid withinLimit delivery
    | _ => (w, x)
  | .proceed identified limited =>
    match x.phase with
    | .awaiting runId b reply =>
      (w, { x with phase := p.proceed x.request runId b reply identified limited })
    | _ => (w, x)
  | .answer response =>
    match x.phase with
    | .forwarded runId _ reservationId =>
      (w, { x with phase := p.answered runId reservationId response })
    | _ => (w, x)
  | .deliver arrives =>
    match x.phase with
    | .posting report =>
      ((p.deliver w report arrives).1, { x with phase := (p.deliver w report arrives).2 })
    | _ => (w, x)

end Pipeline

end Gateway
