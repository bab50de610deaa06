import NocAgent.AdminUi.Auth
import NocAgent.AdminUi.Consumers
import NocAgent.AdminUi.Runs
import NocAgent.ConsumerConfig.LiveSpend
import NocAgent.Library.Noninterference

namespace AdminUi
open Pricing (Call Failure PricingDoc Rate Preview given)
open Text (strip)
open ConsumerConfig (ActiveDowngrade Container ConsumerConfigRequest Fields Saved Spend docId
  liveSpend putConsumerConfig queryItems)

structure RateTier where
  tpm : ℤ
  quota : ℤ
  period : String

structure Settings where
  entraTenantId : String
  spaClientId : String
  bffApiAudience : String
  aliasModels : List (String × String)
  allowedModelAliases : List String
  rateTiers : List (String × RateTier)
  apimAnalyticsUrl : String
  azureLocation : Option String
  order : SetOrder

-- What the routes read and write. The run listing keeps the rates that stood at the start.
structure Site where
  keys : Keys := {}
  registry : Registry := ∅
  configs : Container := ∅
  -- The fields of the global document.
  defaults : Fields := {}
  pricing : Pricing.Site := ⟨none, ∅⟩
  runPrices : Dict Rate := ∅

def RANGES : List String := ["1h", "24h", "7d"]

def resolveRange (range : String) : Except Failure Unit :=
  if range ∈ RANGES then .ok ()
  else .error (.http 400 "range must be one of ['1h', '24h', '7d']")

structure KeyRow where
  id : String
  displayName : String
  consumer : Option String

structure ConfigResponse where
  consumer : String
  isDefault : Bool
  allowedModels : List String
  tier : Option String
  dailyBudget : Option ℤ
  dailyBudgetUsd : Option ℚ
  downgradeLadder : List String
  spend : Spend
  activeDowngrade : Option ActiveDowngrade

-- The first tables of the queries behind the dashboard, row by row.
structure DashboardTables where
  total : List (Option ℚ)
  byConsumer : List (Option String × Option ℚ)
  byModel : List (Option String × Option ℚ)
  requestsByModel : List (Option String × Option ℚ)
  errors : List (ℚ × ℚ)
  blocked : List (ℚ × ℚ)

structure Dashboard where
  totalTokens : ℚ
  byConsumer : List (Option String × Option ℚ)
  byModel : List (Option String × Option ℚ)
  requestsByModel : List (Option String × Option ℚ)
  totalRequests : ℚ
  errorRate : ℚ
  blocked403 : ℚ
  blocked429 : ℚ
  downgrades : List (Option String × ℕ)

structure RequestRow where
  timeGenerated : Option String
  name : Option String
  resultCode : Option String
  durationMs : Option ℚ

structure TraceRow where
  timeGenerated : Option String
  message : Option String
  consumer : Option String
  requestedModel : Option String
  effectiveModel : Option String
  downgradeLevel : Option String

structure Monitoring where
  recent : List RequestRow
  blocked : List RequestRow
  downgrades : List TraceRow

structure DiffRow where
  model : String
  current : Option Rate
  next : Option Rate

structure PricingResponse where
  region : String
  models : Dict Rate
  overrides : Dict Rate
  sourceModels : Option (Dict Rate) := none
  diff : Option (List DiffRow) := none
  refreshedAt : Option String

inductive Answer where
  | status
  | config (tenantId clientId apiScope : String) (aliasModels : List (String × String))
      (modelPrices : Dict Rate)
  | me (principal : Principal)
  | keys (rows : List KeyRow)
  | issued (key : Issued)
  | noContent
  | tiers (rows : List (String × RateTier))
  | consumers (rows : List ConsumerRow)
  | created (consumer : String)
  | saved (consumer : String)
  | deleted (consumer : String)
  | consumerConfig (response : ConfigResponse)
  | savedConfig (response : Saved)
  | links (apimAnalyticsUrl : String)
  | dashboard (data : Dashboard)
  | monitoring (data : Monitoring)
  | runs (items : List RunSummary)
  | pricing (response : PricingResponse)

inductive AdminRoute where
  | listKeys
  | createKey (r : CreateKey)
  | deleteKey (keyId : String) (delete remove : Reply)
  | listTiers
  | listConsumers
  | createConsumer (body : ConsumerRegistryRequest) (now : String)
  | updateConsumer (consumer : String) (body : ConsumerRegistryRequest)
  | deleteConsumer (consumer : String)
  | getConsumerConfig (consumer : String) (query : Except String (List ConsumerConfig.Row))
  | putConsumerConfig (consumer : String) (body : ConsumerConfigRequest)
      (jobStarter : Option Bool)
  | links
  | metricsDashboard (range : String) (tables : DashboardTables)
  | metricsMonitoring (range : String) (tables : Monitoring)
  | listRuns (range : String) (tables : RunTables)
  | getPricing
  | pricingPreview (call : Call)
  | pricingWrite (call : Call)

inductive Route where
  | healthz
  | config
  | me
  | admin (route : AdminRoute)

structure ApiRequest where
  authorization : String
  now : ℚ
  route : Route

section Reads
variable (s : Settings) (site : Site)

def listKeys : List KeyRow :=
  (site.keys.subscriptions.items.filter fun k => k.1 ≠ "" ∧ k.1 ≠ "master").map fun k =>
    ⟨k.1, k.2, (site.keys.mappings.lookup k.1).map (·.consumer)⟩

def getConsumerConfig (consumer : String) (query : Except String (List ConsumerConfig.Row)) :
    ConfigResponse :=
  let doc := (ConsumerConfig.ConsumerConfigStore.get site.configs consumer).map (·.toFields)
  let effective := doc.getD site.defaults
  let models := effective.allowedModels.getD []
  { consumer
    isDefault := doc.isNone
    allowedModels := if models = [] then s.allowedModelAliases else models
    tier := effective.tier
    dailyBudget := effective.dailyBudget
    dailyBudgetUsd := effective.dailyBudgetUsd
    downgradeLadder := effective.downgradeLadder.getD []
    spend := liveSpend consumer effective query site.pricing.modelPrices
    activeDowngrade := effective.activeDowngrade }

def translateConsumer (groupToConsumer : Dict String) (row : Option String × Option ℚ) :
    Option String × Option ℚ :=
  (row.1.map fun g => (groupToConsumer.lookup g).getD g, row.2)

def activeDowngrades : List (Option String × ℕ) :=
  ((queryItems site.configs).filter (0 < ·.level)).map fun doc => (doc.consumer, doc.level)

def dashboard (t : DashboardTables) : Dashboard :=
  let requests := ((t.errors.head?).map (·.1)).getD 0
  let errors := ((t.errors.head?).map (·.2)).getD 0
  { totalTokens := ((t.total.head?).join).getD 0
    byConsumer := t.byConsumer.map (translateConsumer (groupIndex site.registry))
    byModel := t.byModel
    requestsByModel := t.requestsByModel
    totalRequests := requests
    errorRate := if requests = 0 then 0 else HalfEven.roundTo 4 (errors / requests)
    blocked403 := ((t.blocked.head?).map (·.1)).getD 0
    blocked429 := ((t.blocked.head?).map (·.2)).getD 0
    downgrades := activeDowngrades site }

def diffModels (current next : Dict Rate) : List DiffRow :=
  (((current.keys ++ next.keys).dedup.insertionSort (· ≤ ·)).filter fun model =>
    current.lookup model ≠ next.lookup model).map fun model =>
      ⟨model, current.lookup model, next.lookup model⟩

def getPricing : PricingResponse :=
  let doc := site.pricing.get
  { region := Pricing.defaultRegion s.azureLocation doc
    models := doc.models
    overrides := doc.overrides
    sourceModels := some (doc.sourceModels.getD doc.models)
    refreshedAt := doc.refreshedAt }

def pricingPreview (call : Call) : Except Failure PricingResponse := do
  let preview ← Pricing.previewRefresh (call.fetched s.azureLocation site.pricing)
    (call.region s.azureLocation site.pricing) (Pricing.pricingOverrides call.body)
  pure
    { region := preview.region
      models := preview.models
      overrides := preview.overrides
      sourceModels := some preview.sourceModels
      diff := some (diffModels site.pricing.get.models preview.models)
      refreshedAt := none }

def writtenDiff (call : Call) : List DiffRow :=
  match call.kind with
  | .put => []
  | .refresh => ((pricingPreview s site call).toOption.bind (·.diff)).getD []

end Reads

section Handlers
variable (s : Settings) (site : Site)

def ranged (range : String) (answer : Answer) : Except Failure Answer := do
  resolveRange range
  pure answer

def removeConsumer (consumer : String) : Site × Except Failure Answer :=
  match deleteConsumer site.keys consumer with
  | .error failure => (site, .error failure)
  | .ok () =>
    ({ site with
        registry := site.registry.erase (registryId consumer)
        configs := site.configs.erase (docId consumer) }, .ok (.deleted consumer))

def writePricing (call : Call) : Site × Except Failure Answer :=
  match call.respond s.azureLocation site.pricing with
  | .error failure => (site, .error failure)
  | .ok doc =>
    ({ site with pricing := .save doc }, .ok (.pricing
      { region := call.region s.azureLocation site.pricing
        models := doc.models
        overrides := doc.overrides
        diff := some (writtenDiff s site call)
        refreshedAt := doc.refreshedAt }))

def writeConfig (consumer : String) (body : ConsumerConfigRequest) (jobStarter : Option Bool) :
    Site × Except Failure Answer :=
  let written := putConsumerConfig ⟨s.allowedModelAliases, jobStarter⟩ site.configs consumer body
  ({ site with configs := written.1 },
    (written.2.mapError fun e => .http e.statusCode e.detail).map .savedConfig)

def handleAdmin (principal : Principal) : AdminRoute → Site × Except Failure Answer
  | .listKeys => (site, .ok (.keys (listKeys site)))
  | .createKey r =>
    let made := createKey site.keys { r with principal := principal.oid }
    ({ site with keys := made.1 }, made.2.map .issued)
  | .deleteKey keyId delete remove =>
    let gone := deleteKey site.keys keyId delete remove
    ({ site with keys := gone.1 }, gone.2.map fun _ => .noContent)
  | .listTiers => (site, .ok (.tiers s.rateTiers))
  | .listConsumers =>
    (site, .ok (.consumers (listConsumers site.keys site.registry site.configs)))
  | .createConsumer body now =>
    let made := createConsumer site.registry body principal.oid now
    ({ site with registry := made.1 },
      made.2.map fun _ => .created (strip (body.consumer.getD "")))
  | .updateConsumer consumer body =>
    let made := updateConsumer site.registry consumer body
    ({ site with registry := made.1 }, made.2.map fun _ => .saved consumer)
  | .deleteConsumer consumer => removeConsumer site consumer
  | .getConsumerConfig consumer query =>
    (site, .ok (.consumerConfig (getConsumerConfig s site consumer query)))
  | .putConsumerConfig consumer body jobStarter => writeConfig s site consumer body jobStarter
  | .links => (site, .ok (.links s.apimAnalyticsUrl))
  | .metricsDashboard range tables => (site, ranged range (.dashboard (dashboard site tables)))
  | .metricsMonitoring range tables => (site, ranged range (.monitoring tables))
  | .listRuns range tables =>
    (site, ranged range (.runs (RunsQuery.list s.order tables site.runPrices)))
  | .getPricing => (site, .ok (.pricing (getPricing s site)))
  | .pricingPreview call => (site, (pricingPreview s site call).map .pricing)
  | .pricingWrite call => writePricing s site call

def handle (v : TokenVerifier) (q : ApiRequest) : Site × Except Failure Answer :=
  match q.route with
  | .healthz => (site, .ok .status)
  | .config => (site, .ok (.config s.entraTenantId s.spaClientId
      (s.bffApiAudience ++ "/access_as_user") s.aliasModels site.pricing.modelPrices))
  | .me => (site, (currentPrincipal v q.now q.authorization).map .me)
  | .admin route =>
    match requireAdmin v q.now q.authorization with
    | .error failure => (site, .error failure)
    | .ok principal => handleAdmin s site principal route

end Handlers

def api (s : Settings) (v : TokenVerifier) :
    Noninterference.Machine Site ApiRequest (Except Failure Answer) where
  step site q := (handle s site v q).1
  answer site q := (handle s site v q).2

end AdminUi
