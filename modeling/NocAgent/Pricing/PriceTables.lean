import NocAgent.Pricing.Effective
import NocAgent.ConsumerConfig.LiveSpend

namespace Pricing
open ConsumerConfig

-- One admin API process: the store with the table its routes share, and the Runs query's own.
structure Process where
  site : Site
  runsPrices : Dict Rate

def readModelPrices (stored : Option PricingDoc) : Dict Rate := (stored.getD {}).models

def buildApp (stored : Option PricingDoc) : Process where
  site := ⟨stored, readModelPrices stored⟩
  runsPrices := readModelPrices stored

structure CostRow where
  runId : Option String
  model : Option String
  tokKind : Option String
  tokens : Option ℚ

def costRow (costs : Dict (Dict Tokens)) (row : CostRow) : Dict (Dict Tokens) :=
  match given row.runId, given row.model, row.tokKind with
  | some runId, some model, some tokKind =>
    if tokKind ∈ ["prompt", "completion"] then
      let models := (costs.lookup runId).getD ∅
      let slot := (models.lookup model).getD ⟨0, 0⟩
      let tokens := row.tokens.getD 0
      costs.insert runId (models.insert model (slot.assign tokKind (tokens.num.tdiv tokens.den)))
    else costs
  | _, _, _ => costs

def costByRun (rows : List CostRow) : Dict (Dict Tokens) := rows.foldl costRow ∅

namespace Process

def runCost (p : Process) (rows : List CostRow) (runId : String) : ℚ :=
  costUsd (((costByRun rows).lookup runId).getD ∅) p.runsPrices

def consumerSpend (p : Process) (consumer : String) (doc : Fields)
    (query : Except String (List Row)) : Spend :=
  liveSpend consumer doc query p.site.modelPrices

inductive Page where
  | runs
  | consumerConfig
  | pricing

def prices (p : Process) : Page → Dict Rate
  | .runs => p.runsPrices
  | .consumerConfig => p.site.modelPrices
  | .pricing => p.site.get.models

-- A refresh and a PUT bind the shared table anew, and leave the query's as it was built.
def handle (azureLocation : Option String) (p : Process) (call : Call) : Process :=
  { p with site := p.site.handle azureLocation call }

def Agree (p : Process) : Prop := ∀ page, (p.prices page).Same p.site.get.models

def AgreesAfter (azureLocation : Option String) (p : Process) (call : Call) : Prop :=
  ∀ doc, call.respond azureLocation p.site = .ok doc → (p.handle azureLocation call).Agree

def sourceRates (azureLocation : Option String) (p : Process) (call : Call) : Dict Rate :=
  History.start azureLocation ⟨p.site, ∅⟩ call

def AsStarted (azureLocation : Option String) (started : Dict Rate) (p : Process) (call : Call) :
    Prop :=
  call.Acceptable azureLocation p.site → ∀ model,
    (call.overrides.lookup model).or ((p.sourceRates azureLocation call).lookup model) =
      started.lookup model

section Handle
variable {azureLocation : Option String} {p : Process} {call : Call}

theorem costUsd_same (modelUsage : Dict Tokens) {prices prices' : Dict Rate}
    (h : prices.Same prices') : costUsd modelUsage prices = costUsd modelUsage prices' := by
  simp only [costUsd, h _]

theorem Agree.runCost (h : p.Agree) (rows : List CostRow) (runId : String) :
    p.runCost rows runId =
      costUsd (((costByRun rows).lookup runId).getD ∅) p.site.get.models :=
  costUsd_same _ (h .runs)

theorem Agree.consumerSpend (h : p.Agree) (consumer : String) (doc : Fields)
    (query : Except String (List Row)) :
    p.consumerSpend consumer doc query = liveSpend consumer doc query p.site.get.models := by
  rw [Process.consumerSpend, liveSpend, liveSpend]
  cases consumerUsage consumer query with
  | error text => rfl
  | ok modelUsage =>
    have hcost : costUsd modelUsage p.site.modelPrices = costUsd modelUsage p.site.get.models :=
      costUsd_same modelUsage (h .consumerConfig)
    simp only [hcost]

theorem handle_of_ok {doc : PricingDoc} (h : call.respond azureLocation p.site = .ok doc) :
    p.handle azureLocation call = ⟨.save doc, p.runsPrices⟩ := by
  simp only [handle, Site.handle, h]

theorem agree_save_iff (doc : PricingDoc) (runsPrices : Dict Rate) :
    Agree ⟨.save doc, runsPrices⟩ ↔ doc.models.Same runsPrices := by
  refine ⟨fun h => (h .runs).symm, fun h page => ?_⟩
  cases page with
  | runs => exact h.symm
  | consumerConfig => exact Dict.Same.refl _
  | pricing => exact Dict.Same.refl _

theorem agreesAfter_iff :
    p.AgreesAfter azureLocation call ↔ p.AsStarted azureLocation p.runsPrices call := by
  by_cases hcall : call.Acceptable azureLocation p.site
  · obtain ⟨doc, hdoc, -, -, -, hmodels⟩ :=
      History.respond_of_acceptable (h := ⟨p.site, ∅⟩) hcall
    have hrate : ∀ model, doc.models.lookup model =
        (call.overrides.lookup model).or ((p.sourceRates azureLocation call).lookup model) :=
      fun model => (hmodels model).trans (Dict.lookup_update _ _ model)
    have hafter : p.AgreesAfter azureLocation call ↔ doc.models.Same p.runsPrices := by
      rw [← agree_save_iff, ← handle_of_ok hdoc]
      exact ⟨fun h => h doc hdoc, fun h _ _ => h⟩
    rw [hafter, AsStarted, forall_prop_of_true hcall]
    exact forall_congr' fun model => by rw [hrate]
  · obtain ⟨failure, hfailure⟩ := respond_of_not_acceptable azureLocation hcall
    refine iff_of_true (fun doc hdoc => ?_) fun h => absurd h hcall
    rw [hfailure] at hdoc
    cases hdoc

theorem run_runsPrices (p : Process) (calls : List Call) :
    (Trace.run (handle azureLocation) p calls).runsPrices = p.runsPrices := by
  induction calls generalizing p with
  | nil => rfl
  | cons call rest ih => exact ih (p.handle azureLocation call)

end Handle

theorem pages_agree_iff (azureLocation : Option String) (stored : Option PricingDoc)
    (calls : List Call) :
    Trace.Along (handle azureLocation) (AgreesAfter azureLocation) (buildApp stored) calls ↔
      Trace.Along (handle azureLocation) (AsStarted azureLocation (readModelPrices stored))
        (buildApp stored) calls := by
  have hstarted : ∀ before, (Trace.run (handle azureLocation) (buildApp stored) before).runsPrices =
      readModelPrices stored := run_runsPrices (buildApp stored)
  rw [Trace.along_iff, Trace.along_iff]
  constructor
  · intro h before call after hcalls
    rw [← hstarted before]
    exact agreesAfter_iff.mp (h before call after hcalls)
  · intro h before call after hcalls
    have hcall := h before call after hcalls
    rw [← hstarted before] at hcall
    exact agreesAfter_iff.mpr hcall

section Example

def promptRow : CostRow := ⟨some "run-1", some "gpt-5.4", some "prompt", some 1000⟩

theorem runs_page_stays_at_start :
    (Trace.run (handle none) (buildApp none) [History.putRate]).runCost [promptRow] "run-1" = 0 ∧
      (Trace.run (handle none) (buildApp none) [History.putRate]).site.get.models.lookup "gpt-5.4" =
        some History.rate ∧
      ¬ Trace.Along (handle none) (AgreesAfter none) (buildApp none) [History.putRate] := by
  have hstored : (Trace.run (handle none) (buildApp none)
      [History.putRate]).site.get.models.lookup "gpt-5.4" = some History.rate := by decide +kernel
  refine ⟨by decide +kernel, hstored, fun h => ?_⟩
  cases hdoc : History.putRate.respond none (buildApp none).site with
  | error failure =>
    have hsome : (History.putRate.respond none (buildApp none).site).toOption.isSome = true := by
      decide +kernel
    rw [hdoc] at hsome
    cases hsome
  | ok doc =>
    have hruns := h.1 doc hdoc .runs "gpt-5.4"
    rw [Trace.run_cons, Trace.run_nil] at hstored
    rw [hstored] at hruns
    revert hruns
    decide +kernel

end Example

end Process

end Pricing
