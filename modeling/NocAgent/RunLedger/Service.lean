import NocAgent.Library.Text
import NocAgent.RunLedger.Decide
import NocAgent.RunLedger.Redis
import Mathlib.Data.String.Defs

namespace RunLedger
open Text (isSpace stripOf)

structure Rate where
  prompt : Option ℚ := none
  completion : Option ℚ := none
deriving DecidableEq, Repr

structure Settings where
  runTtlSeconds : ℕ := 3600
  reservationTtlSeconds : ℕ := 120
  defaultPolicySet : String := "default"
  modelPrices : String → Option Rate := fun _ => none
  policies : Policies := {}

def Settings.pricesFor (settings : Settings) (model : String) : Prices :=
  let rate := (settings.modelPrices model).getD {}
  { inputMicros := rate.prompt.getD 0 * 1000, outputMicros := rate.completion.getD 0 * 1000 }

def Settings.PricesNonneg (settings : Settings) : Prop :=
  ∀ model, (settings.pricesFor model).Nonneg

structure RunCreateRequest where
  runId : String
  budgetMicros : ℤ
  policySet : String := "default"
  ttlSeconds : Option ℕ := none
  intent : Option String := none
  user : Option String := none
  team : Option String := none
  task : Option String := none
  runId_nonempty : runId ≠ ""
  budget_pos : 0 < budgetMicros
  ttl_pos : ∀ t ∈ ttlSeconds, 0 < t

structure RunToken where
  iss : String
  runId : String
  budgetMicros : ℤ
  policySet : String
  exp : ℕ
deriving DecidableEq, Repr

structure RunCreateResponse where
  runId : String
  budgetMicros : ℤ
  policySet : String
  runToken : RunToken
  expiresAt : ℕ
deriving DecidableEq, Repr

structure PrecallRequest where
  runId : String
  step : String
  model : String
  estInputTokens : ℕ
  maxOutputTokens : Option ℕ := none
  promptHash : String
deriving DecidableEq, Repr

structure PrecallResponse where
  action : Action
  modelOverride : Option String
  maxOutputTokens : Option ℕ
  inject : Option String
  haltReason : Option String
  reservationId : Option String
deriving DecidableEq, Repr

structure PostcallRequest where
  runId : String
  reservationId : String
  inputTokens : ℕ := 0
  outputTokens : ℕ := 0
  model : Option String := none
  failed : Bool := false
deriving DecidableEq, Repr

structure RunTokenSigner where
  issuer : String := "run-ledger"
  lifetimeSeconds : ℕ := 3600
deriving DecidableEq, Repr

-- `now` is the signer's clock, in the seconds that the store counts.
def RunTokenSigner.mint (signer : RunTokenSigner) (now : ℕ) (runId : String) (budgetMicros : ℤ)
    (policySet : String) (lifetimeSeconds : ℕ) : RunToken × ℕ :=
  let expiresAt :=
    now + if lifetimeSeconds = 0 then signer.lifetimeSeconds else lifetimeSeconds
  ({ iss := signer.issuer
     runId := runId
     budgetMicros := budgetMicros
     policySet := policySet
     exp := expiresAt },
   expiresAt)

structure RunLedgerService where
  signer : RunTokenSigner := {}
  settings : Settings := {}

def orText (text default : String) : String := if text = "" then default else text

def toBool (value : Option String) : Bool :=
  (orText (value.getD "") "0").toLower ∈ ["1", "true", "yes"]

-- The zeros of the decimal digits of Unicode 15, each one with its nine others after it.
def decimalZeros : List ℕ :=
  [0x30, 0x660, 0x6f0, 0x7c0, 0x966, 0x9e6, 0xa66, 0xae6, 0xb66, 0xbe6, 0xc66, 0xce6, 0xd66, 0xde6,
    0xe50, 0xed0, 0xf20, 0x1040, 0x1090, 0x17e0, 0x1810, 0x1946, 0x19d0, 0x1a80, 0x1a90, 0x1b50,
    0x1bb0, 0x1c40, 0x1c50, 0xa620, 0xa8d0, 0xa900, 0xa9d0, 0xa9f0, 0xaa50, 0xabf0, 0xff10, 0x104a0,
    0x10d30, 0x11066, 0x110f0, 0x11136, 0x111d0, 0x112f0, 0x11450, 0x114d0, 0x11650, 0x116c0,
    0x11730, 0x118e0, 0x11950, 0x11c50, 0x11d50, 0x11da0, 0x11f50, 0x16a60, 0x16ac0, 0x16b50,
    0x1d7ce, 0x1d7d8, 0x1d7e2, 0x1d7ec, 0x1d7f6, 0x1e140, 0x1e2f0, 0x1e4f0, 0x1e950, 0x1fbf0]

def decimal (c : Char) : Option ℕ :=
  (decimalZeros.find? fun first => first ≤ c.toNat && c.toNat < first + 10).map (c.toNat - ·)

def digitsFrom (acc : ℕ) : List Char → Option ℕ
  | [] => some acc
  | '_' :: c :: cs => (decimal c).bind fun n => digitsFrom (acc * 10 + n) cs
  | c :: cs => (decimal c).bind fun n => digitsFrom (acc * 10 + n) cs

-- More than 4300 digits are refused.
def digits (cs : List Char) : Option ℕ :=
  if 4300 < (cs.filter (· ≠ '_')).length then none
  else
    match cs with
    | [] => none
    | c :: cs => (decimal c).bind fun n => digitsFrom n cs

-- The separators 0x1c to 0x1f are space to strip() but not to int().
def isBlank (c : Char) : Bool := isSpace c && !(0x1c ≤ c.toNat && c.toNat ≤ 0x1f)

def int? (text : String) : Option ℤ :=
  match stripOf isBlank text.toList with
  | '-' :: cs => (digits cs).map fun n => -(n : ℤ)
  | '+' :: cs => (digits cs).map fun n => (n : ℤ)
  | cs => (digits cs).map fun n => (n : ℤ)

def stepValue (step : String) : ℤ :=
  match int? step with
  | some n => max 0 n
  | none => 0

def mapRun (payload : RunHash) (promptHashes : List String) (step : String) : RunState where
  budgetMicros := toInt payload.budgetMicros
  spendMicros := toInt payload.spendMicros
  inflightMicros := toInt payload.inflightMicros
  haltedReason := if toBool payload.halt then payload.haltReason else none
  steps := max (toInt payload.steps) (stepValue step)
  concurrent := toInt payload.concurrent
  steered := toBool payload.steered
  recentPromptHashes := promptHashes

namespace RunLedgerService
variable (svc : RunLedgerService)

def createTtl (body : RunCreateRequest) : ℕ := body.ttlSeconds.getD svc.settings.runTtlSeconds

def freshRun (body : RunCreateRequest) : RunHash where
  budgetMicros := some body.budgetMicros
  spendMicros := some 0
  inflightMicros := some 0
  halt := some "0"
  haltReason := some ""
  steps := some 0
  concurrent := some 0
  steered := some "0"
  policySet := some (orText body.policySet svc.settings.defaultPolicySet)
  intent := some (body.intent.getD "")
  user := some (body.user.getD "")
  team := some (body.team.getD "")
  task := some (body.task.getD "")

def createResponse (body : RunCreateRequest) (current : RunHash) (now : ℕ) : RunCreateResponse :=
  let budgetMicros := current.budgetMicros.getD body.budgetMicros
  let policySet :=
    orText (current.policySet.getD "") (orText body.policySet svc.settings.defaultPolicySet)
  let minted := svc.signer.mint now body.runId budgetMicros policySet
    (min (svc.createTtl body) svc.signer.lifetimeSeconds)
  { runId := body.runId
    budgetMicros := budgetMicros
    policySet := policySet
    runToken := minted.1
    expiresAt := minted.2 }

def createRun (body : RunCreateRequest) (s : Redis) : Redis × RunCreateResponse :=
  let key := runKey body.runId
  match s.hgetall key with
  | none =>
    ((s.hset key (svc.freshRun body)).expire key (svc.createTtl body),
      svc.createResponse body (svc.freshRun body) s.clock)
  | some current =>
    (s.expire key (svc.createTtl body), svc.createResponse body current s.clock)

def promptHashes (s : Redis) (runId : String) : List String :=
  s.lrange (promptKey runId) 0 (svc.settings.policies.loopWindow - 1)

def decideOn (body : PrecallRequest) (current : RunHash) (promptHashes : List String) :
    Except PyError Decision :=
  decide (mapRun current promptHashes body.step) (svc.settings.pricesFor body.model)
    body.estInputTokens body.maxOutputTokens body.promptHash svc.settings.policies

def nextSteered (current : RunHash) (run : RunState) (decision : Decision) : String :=
  if steers run svc.settings.policies ∧ (decision.modelOverride ≠ none ∨ decision.inject ≠ none)
  then "1"
  else current.steered.getD "0"

-- The commands queued between MULTI and EXEC.
def reserve (body : PrecallRequest) (reservationId : String) (current : RunHash)
    (promptHashes : List String) (decision : Decision) (s : Redis) : Redis :=
  let pol := svc.settings.policies
  let runK := runKey body.runId
  let promptK := promptKey body.runId
  let s := s.hincrby runK .inflightMicros decision.reserveMicros
  let s := s.hincrby runK .concurrent 1
  let s := s.hset runK
    { steps := some (max (toInt current.steps) (stepValue body.step))
      steered := some (svc.nextSteered current (mapRun current promptHashes body.step) decision) }
  let s := s.expire runK svc.settings.runTtlSeconds
  let s := s.setex (reservationKey reservationId) svc.settings.reservationTtlSeconds
    { runId := body.runId, reservedMicros := decision.reserveMicros, model := body.model }
  let s := s.lpush promptK body.promptHash
  let s := s.ltrim promptK 0 (pol.loopWindow - 1)
  s.expire promptK svc.settings.runTtlSeconds

def precallResponse (decision : Decision) (reservationId : Option String) : PrecallResponse where
  action := decision.action
  modelOverride := decision.modelOverride
  maxOutputTokens := decision.maxOutputTokens
  inject := decision.inject
  haltReason := decision.haltReason
  reservationId := reservationId

def precall (body : PrecallRequest) (uuid : String) (s : Redis) :
    Redis × Except PyError PrecallResponse :=
  match s.hgetall (runKey body.runId) with
  | none => (s, .error (.keyError body.runId))
  | some current =>
    match svc.decideOn body current (svc.promptHashes s body.runId) with
    | .error e => (s, .error e)
    | .ok decision =>
      if decision.action.admits then
        (svc.reserve body uuid current (svc.promptHashes s body.runId) decision s,
          .ok (precallResponse decision (some uuid)))
      else
        (s, .ok (precallResponse decision none))

def settleModel (body : PostcallRequest) (reservation : Reservation) : String :=
  orText (body.model.getD "") reservation.model

def settleCost (body : PostcallRequest) (reservation : Reservation) : ℤ :=
  let prices := svc.settings.pricesFor (settleModel body reservation)
  if body.failed then 0
  else HalfEven.round
    (body.inputTokens * prices.inputMicros + body.outputTokens * prices.outputMicros)

def settle (body : PostcallRequest) (reservation : Reservation) (s : Redis) : Redis :=
  let runK := runKey body.runId
  let spendMicros := svc.settleCost body reservation
  let s := s.hincrby runK .inflightMicros (-reservation.reservedMicros)
  let s := s.hincrby runK .concurrent (-1)
  let s := if spendMicros ≠ 0 then s.hincrby runK .spendMicros spendMicros else s
  let s := s.delete (reservationKey body.reservationId)
  s.expire runK svc.settings.runTtlSeconds

def overspent (current : RunHash) : Bool :=
  toInt current.budgetMicros ≤ toInt current.spendMicros

def costHalt : RunHash := { halt := some "1", haltReason := some "cost_budget" }

def haltIfOverspent (runId : String) (s : Redis) : Redis :=
  match s.hgetall (runKey runId) with
  | none => s
  | some current => if overspent current then s.hset (runKey runId) costHalt else s

def postcall (body : PostcallRequest) (s : Redis) : Redis :=
  match s.get (reservationKey body.reservationId) with
  | none => s
  | some reservation => haltIfOverspent body.runId (svc.settle body reservation s)

end RunLedgerService

end RunLedger
