import NocAgent.Library.Fallible
import NocAgent.Pricing.Effective

namespace Pricing
open Fallible

def pricingRegion (configured : Option String) : String := configured.getD "eastus2"

def syncPricing (configured : Option String)
    (fetchModelPricing : String → Except FetchFault (Dict Rate)) (stored : Option PricingDoc) :
    Option PricingDoc :=
  match fetchModelPricing (pricingRegion configured) with
  | .ok models => some { models }
  | .error _ => stored

def readPricing (stored : Option PricingDoc) : Dict Rate := (stored.map (·.models)).getD ∅

def Stored (azureLocation : Option String) (doc : PricingDoc) : Prop :=
  ∃ site call, Call.respond azureLocation site call = .ok doc

structure Overlaid (table : Dict Rate) (doc after : PricingDoc) : Prop where
  overrides : after.overrides.Same doc.overrides
  region : after.region = doc.region
  models : after.models.Same (table.update doc.overrides)

def Refreshed (fetched : Except FetchFault (Dict Rate)) (doc : PricingDoc)
    (after : Option PricingDoc) : Prop :=
  match fetched with
  | .ok table => ∃ next, after = some next ∧ Overlaid table doc next
  | .error _ => after = some doc

section Worker
variable {azureLocation : Option String} {doc : PricingDoc}

theorem saveDoc_region {currentDoc : PricingDoc} {region now : String} {sourceModels : Dict Rate}
    {overrides : Dict PriceOverrideRequest}
    (h : saveDoc currentDoc region sourceModels overrides now = .ok doc) :
    doc.region = some region := by
  obtain ⟨clean, -, h⟩ := ok_of_bind h
  obtain ⟨merged, -, h⟩ := ok_of_bind h
  cases h
  rfl

theorem previewRefresh_region {fetched : Except FetchFault (Dict Rate)} {region : String}
    {overrides : Dict PriceOverrideRequest} {preview : Preview}
    (h : previewRefresh fetched region overrides = .ok preview) : preview.region = region := by
  obtain ⟨sourceModels, -, h⟩ := ok_of_bind h
  obtain ⟨final, -, h⟩ := ok_of_bind h
  obtain ⟨next, -, h⟩ := ok_of_bind h
  cases h
  rfl

theorem respond_region {site : Site} {call : Call}
    (h : call.respond azureLocation site = .ok doc) :
    doc.region = some (call.region azureLocation site) := by
  rw [Call.respond] at h
  cases hkind : call.kind with
  | put =>
    rw [hkind] at h
    exact saveDoc_region (ok_of_mapError h)
  | refresh =>
    rw [hkind] at h
    obtain ⟨preview, hpreview, h⟩ := ok_of_bind h
    rw [saveDoc_region (ok_of_mapError h), previewRefresh_region hpreview]

theorem Stored.region (h : Stored azureLocation doc) : ∃ region, doc.region = some region := by
  obtain ⟨site, call, hdoc⟩ := h
  exact ⟨_, respond_region hdoc⟩

theorem Stored.settled (h : Stored azureLocation doc) : Settled doc.overrides := by
  obtain ⟨site, call, hdoc⟩ := h
  by_cases hcall : call.Acceptable azureLocation site
  · obtain ⟨doc', hdoc', -, -, hsettled, -⟩ :=
      History.respond_of_acceptable (h := ⟨site, ∅⟩) hcall
    rw [hdoc] at hdoc'
    cases hdoc'
    exact hsettled
  · obtain ⟨failure, hfailure⟩ := respond_of_not_acceptable azureLocation hcall
    rw [hdoc] at hfailure
    cases hfailure

theorem refresh_overlaid {prices table : Dict Rate} {call : Call}
    (hstored : Stored azureLocation doc) (hkind : call.kind = .refresh)
    (hoverrides : (pricingOverrides call.body).Same (asOverrides doc.overrides))
    (hregion : doc.region = some (call.region azureLocation ⟨some doc, prices⟩))
    (htable : call.fetched azureLocation ⟨some doc, prices⟩ = .ok table) :
    ∃ after, call.respond azureLocation ⟨some doc, prices⟩ = .ok after ∧
      Overlaid table doc after := by
  have hsettled := hstored.settled
  have hcall : call.overrides.Same doc.overrides :=
    (hoverrides.filterMap _).trans hsettled.clean_same
  obtain ⟨after, hafter, -, hkept, -, hmodels⟩ := pricingRefresh_of_usable azureLocation hkind
    (hsettled.usable.same hoverrides) htable
  refine ⟨after, hafter, hkept.trans hcall, ?_, ?_⟩
  · rw [respond_region hafter, hregion]
  · exact hmodels.trans ((Dict.Same.refl _).update hcall)

theorem worker_refresh_iff (hstored : Stored azureLocation doc) (configured : Option String)
    (fetchModelPricing : String → Except FetchFault (Dict Rate)) :
    Refreshed (fetchModelPricing (pricingRegion configured)) doc
        (syncPricing configured fetchModelPricing (some doc)) ↔
      ∃ fault, fetchModelPricing (pricingRegion configured) = .error fault := by
  obtain ⟨region, hregion⟩ := hstored.region
  cases hfetched : fetchModelPricing (pricingRegion configured) with
  | error fault =>
    simp only [Refreshed, syncPricing, hfetched]
    exact iff_of_true trivial ⟨fault, rfl⟩
  | ok table =>
    simp only [Refreshed, syncPricing, hfetched]
    refine iff_of_false ?_ fun h => by
      obtain ⟨fault, hfault⟩ := h
      cases hfault
    rintro ⟨next, hnext, hoverlaid⟩
    cases hnext
    have hlost := hoverlaid.region
    rw [hregion] at hlost
    cases hlost

theorem readPricing_syncPricing {configured : Option String} {table : Dict Rate}
    {fetchModelPricing : String → Except FetchFault (Dict Rate)}
    (h : fetchModelPricing (pricingRegion configured) = .ok table) (stored : Option PricingDoc) :
    readPricing (syncPricing configured fetchModelPricing stored) = table := by
  simp only [syncPricing, h, readPricing, Option.map_some, Option.getD_some]

end Worker

section Example

def retailRate : Rate := ⟨25 / 10000, 1 / 100⟩

def retailTable : String → Except FetchFault (Dict Rate) :=
  fun _ => .ok (AList.singleton "gpt-5.4" retailRate)

def overridden : PricingDoc := ((History.putRate.respond none ⟨none, ∅⟩).toOption).getD {}

theorem overridden_stored : Stored none overridden := by
  refine ⟨⟨none, ∅⟩, History.putRate, ?_⟩
  have hsome : (History.putRate.respond none ⟨none, ∅⟩).toOption.isSome = true := by
    decide +kernel
  rw [overridden]
  cases hdoc : History.putRate.respond none ⟨none, ∅⟩ with
  | error failure =>
    rw [hdoc] at hsome
    cases hsome
  | ok doc => rfl

theorem worker_drops_override :
    (readPricing (some overridden)).lookup "gpt-5.4" = some History.rate ∧
      (readPricing (syncPricing none retailTable (some overridden))).lookup "gpt-5.4" =
        some retailRate ∧
      ¬ ∀ doc, Stored none doc → Refreshed (retailTable (pricingRegion none)) doc
        (syncPricing none retailTable (some doc)) := by
  refine ⟨by decide +kernel, ?_, fun hall => ?_⟩
  · rw [readPricing_syncPricing rfl]
    rfl
  · obtain ⟨next, hnext, hoverlaid⟩ := hall overridden overridden_stored
    cases hnext
    have hlost := hoverlaid.overrides "gpt-5.4"
    revert hlost
    decide +kernel

theorem worker_refresh_iff_overridden :
    Refreshed (retailTable (pricingRegion none)) overridden
        (syncPricing none retailTable (some overridden)) ↔
      ∃ fault, retailTable (pricingRegion none) = .error fault :=
  worker_refresh_iff overridden_stored none retailTable

end Example

end Pricing
