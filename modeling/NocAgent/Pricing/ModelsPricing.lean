import NocAgent.Library.Dict
import NocAgent.Library.HalfEven
import NocAgent.Library.Text

namespace Pricing
open HalfEven
open Text (strip)

structure Rate where
  prompt : ℚ
  completion : ℚ
deriving DecidableEq

structure PriceOverrideRequest where
  prompt : Option ℚ := none
  completion : Option ℚ := none
deriving DecidableEq

structure PricingRequest where
  region : Option String := none
  overrides : Option (Dict (Option PriceOverrideRequest)) := none

-- The stored pricing document, without its constant id, doc_type, currency and unit.
structure PricingDoc where
  region : Option String := none
  source : Option String := none
  sourceModels : Option (Dict Rate) := none
  overrides : Dict Rate := ∅
  models : Dict Rate := ∅
  refreshedAt : Option String := none

def pricingOverrides (body : PricingRequest) : Dict PriceOverrideRequest :=
  (body.overrides.getD ∅).filterMap id

def Rate.asOverride (rate : Rate) : PriceOverrideRequest := ⟨some rate.prompt, some rate.completion⟩

def normalizeRate (model : String) (rate : PriceOverrideRequest) : Except String (Option Rate) :=
  match rate.prompt, rate.completion with
  | some prompt, some completion =>
    if prompt ≤ 0 ∨ completion ≤ 0 then throw ("override for " ++ model ++ " must be positive")
    else pure (some ⟨roundTo 6 prompt, roundTo 6 completion⟩)
  | _, _ => pure none

def normalizeItems : List (String × PriceOverrideRequest) → Dict Rate → Except String (Dict Rate)
  | [], out => pure out
  | (model, rate) :: rest, out => do
    match ← normalizeRate model rate with
    | none => normalizeItems rest out
    | some clean => normalizeItems rest (out.insert model clean)

def normalizeOverrides (overrides : Dict PriceOverrideRequest) : Except String (Dict Rate) :=
  normalizeItems overrides.items ∅

def asOverrides (rates : Dict Rate) : Dict PriceOverrideRequest :=
  rates.filterMap fun rate => some rate.asOverride

def applyOverrides (baseRates : Dict Rate) (overrides : Dict PriceOverrideRequest) :
    Except String (Dict Rate) := do
  let clean ← normalizeOverrides overrides
  pure (baseRates.update clean)

-- The text as a pattern that ends in $ sees it, which matches before a newline at the end too.
def beforeEnd (text : String) : List Char :=
  if text.toList.getLast? = some '\n' then text.toList.dropLast else text.toList

def given (text : Option String) : Option String := text.filter (· ≠ "")

def defaultRegion (azureLocation : Option String) (currentDoc : PricingDoc) : String :=
  strip (((given currentDoc.region).or (given azureLocation)).getD "eastus2")

def regionOf (azureLocation : Option String) (body : PricingRequest) (current : PricingDoc) :
    String :=
  strip ((given body.region).getD (defaultRegion azureLocation current))

-- How fetch_model_pricing fails: only a LookupError or a ValueError is answered with a 400.
inductive FetchFault where
  | lookupOrValue (text : String)
  | other (text : String)
deriving DecidableEq

inductive Failure where
  | http (statusCode : ℕ) (detail : String)
  | raised (text : String)
deriving DecidableEq

structure Preview where
  region : String
  sourceModels : Dict Rate
  overrides : Dict Rate
  models : Dict Rate

def previewRefresh (fetched : Except FetchFault (Dict Rate)) (region : String)
    (overrides : Dict PriceOverrideRequest) : Except Failure Preview := do
  let sourceModels ← fetched.mapError fun
    | .lookupOrValue text => .http 400 text
    | .other text => .raised text
  let finalOverrides ← (normalizeOverrides overrides).mapError (.http 400)
  let nextModels ← (applyOverrides sourceModels (asOverrides finalOverrides)).mapError (.http 400)
  pure ⟨region, sourceModels, finalOverrides, nextModels⟩

def saveDoc (currentDoc : PricingDoc) (region : String) (sourceModels : Dict Rate)
    (overrides : Dict PriceOverrideRequest) (now : String) : Except String PricingDoc := do
  let cleanOverrides ← normalizeOverrides overrides
  let merged ← applyOverrides sourceModels (asOverrides cleanOverrides)
  pure
    { currentDoc with
      region := some region
      source := some "azure-retail-prices"
      sourceModels := some sourceModels
      overrides := cleanOverrides
      models := merged
      refreshedAt := some now }

-- The document in the store, none before the first write, and the rates the BFF serves.
structure Site where
  doc : Option PricingDoc
  modelPrices : Dict Rate

def Site.get (site : Site) : PricingDoc := site.doc.getD {}

def Site.save (doc : PricingDoc) : Site := ⟨some doc, doc.models⟩

inductive Kind where
  | refresh
  | put
deriving DecidableEq

structure Call where
  kind : Kind
  body : PricingRequest
  fetchModelPricing : String → Except FetchFault (Dict Rate)
  now : String

section Calls
variable (azureLocation : Option String) (site : Site) (call : Call)

def Call.region : String := regionOf azureLocation call.body site.get

def Call.fetched : Except FetchFault (Dict Rate) :=
  call.fetchModelPricing (call.region azureLocation site)

def pricingRefresh : Except Failure PricingDoc := do
  let preview ← previewRefresh (call.fetched azureLocation site) (call.region azureLocation site)
    (pricingOverrides call.body)
  (saveDoc site.get preview.region preview.sourceModels (asOverrides preview.overrides)
    call.now).mapError (.http 400)

-- The table a PUT starts from: an empty sourceModels counts as a missing one.
def PricingDoc.base (current : PricingDoc) : Dict Rate :=
  match current.sourceModels with
  | some sourceModels => if sourceModels.entries = [] then current.models else sourceModels
  | none => current.models

def pricingPut : Except Failure PricingDoc :=
  (saveDoc site.get (call.region azureLocation site) site.get.base (pricingOverrides call.body)
    call.now).mapError (.http 400)

def Call.respond : Except Failure PricingDoc :=
  match call.kind with
  | .refresh => pricingRefresh azureLocation site call
  | .put => pricingPut azureLocation site call

def Site.handle : Site :=
  match call.respond azureLocation site with
  | .ok doc => .save doc
  | .error _ => site

end Calls

def PriceOverrideRequest.clean (rate : PriceOverrideRequest) : Option Rate :=
  match rate.prompt, rate.completion with
  | some prompt, some completion => some ⟨roundTo 6 prompt, roundTo 6 completion⟩
  | _, _ => none

def PriceOverrideRequest.Positive (rate : PriceOverrideRequest) : Prop :=
  ∀ prompt completion, rate.prompt = some prompt → rate.completion = some completion →
    0 < prompt ∧ 0 < completion

def Rate.Positive (rate : Rate) : Prop := 0 < rate.prompt ∧ 0 < rate.completion

def Usable (overrides : Dict PriceOverrideRequest) : Prop :=
  ∀ model rate clean, overrides.lookup model = some rate → rate.clean = some clean → clean.Positive

def Settled (rates : Dict Rate) : Prop :=
  ∀ model rate, rates.lookup model = some rate →
    rate.asOverride.clean = some rate ∧ rate.Positive

section Normalize
variable {rate : PriceOverrideRequest} {overrides : Dict PriceOverrideRequest} {rates : Dict Rate}

theorem normalizeRate_of_positive (model : String) (h : rate.Positive) :
    normalizeRate model rate = .ok rate.clean := by
  obtain ⟨prompt, completion⟩ := rate
  cases prompt with
  | none => rfl
  | some prompt =>
    cases completion with
    | none => rfl
    | some completion =>
      obtain ⟨hprompt, hcompletion⟩ := h prompt completion rfl rfl
      exact if_neg (not_or.mpr ⟨not_le.mpr hprompt, not_le.mpr hcompletion⟩)

theorem normalizeRate_of_not_positive (model : String) (h : ¬ rate.Positive) :
    normalizeRate model rate = .error ("override for " ++ model ++ " must be positive") := by
  obtain ⟨prompt, completion⟩ := rate
  cases prompt with
  | none => exact absurd (fun _ _ hp => by cases hp) h
  | some prompt =>
    cases completion with
    | none => exact absurd (fun _ _ _ hc => by cases hc) h
    | some completion =>
      refine if_pos ?_
      by_contra hgood
      rw [not_or, not_le, not_le] at hgood
      refine h fun _ _ hp hc => ?_
      cases hp
      cases hc
      exact hgood

theorem normalizeItems_of_positive {items : List (String × PriceOverrideRequest)} (out : Dict Rate)
    (h : ∀ item ∈ items, item.2.Positive) : normalizeItems items out =
      .ok (out.setAll (items.filterMap fun item => item.2.clean.map (item.1, ·))) := by
  induction items generalizing out with
  | nil => rfl
  | cons item rest ih =>
    obtain ⟨model, rate⟩ := item
    have hrest := fun out => ih out fun item hitem => h item (List.mem_cons_of_mem _ hitem)
    rw [normalizeItems, normalizeRate_of_positive model (h _ List.mem_cons_self),
      List.filterMap_cons]
    cases rate.clean with
    | none => exact hrest out
    | some clean => exact hrest (out.insert model clean)

theorem normalizeItems_of_not_positive {items : List (String × PriceOverrideRequest)}
    (out : Dict Rate) (h : ¬ ∀ item ∈ items, item.2.Positive) :
    ∃ e, normalizeItems items out = .error e := by
  induction items generalizing out with
  | nil => exact absurd (fun item hitem => by cases hitem) h
  | cons item rest ih =>
    obtain ⟨model, rate⟩ := item
    by_cases hrate : rate.Positive
    · have hrest := fun out => ih out fun hall => h (List.forall_mem_cons.mpr ⟨hrate, hall⟩)
      rw [normalizeItems, normalizeRate_of_positive model hrate]
      cases rate.clean with
      | none => exact hrest out
      | some clean => exact hrest (out.insert model clean)
    · rw [normalizeItems, normalizeRate_of_not_positive model hrate]
      exact ⟨_, rfl⟩

theorem items_positive_iff : (∀ item ∈ overrides.items, item.2.Positive) ↔
    ∀ model rate, overrides.lookup model = some rate → rate.Positive :=
  ⟨fun h model rate hm => h (model, rate) (Dict.mem_items_iff.mpr hm),
    fun h item hitem => h item.1 item.2 (Dict.mem_items_iff.mp hitem)⟩

theorem normalizeOverrides_of_positive
    (h : ∀ model rate, overrides.lookup model = some rate → rate.Positive) :
    normalizeOverrides overrides = .ok (overrides.filterMap PriceOverrideRequest.clean) :=
  normalizeItems_of_positive ∅ (items_positive_iff.mpr h)

theorem normalizeOverrides_of_not_positive
    (h : ¬ ∀ model rate, overrides.lookup model = some rate → rate.Positive) :
    ∃ e, normalizeOverrides overrides = .error e :=
  normalizeItems_of_not_positive ∅ fun hall => h (items_positive_iff.mp hall)

theorem lookup_asOverrides (rates : Dict Rate) (model : String) :
    (asOverrides rates).lookup model = (rates.lookup model).map Rate.asOverride := by
  rw [asOverrides, Dict.lookup_filterMap]
  cases rates.lookup model <;> rfl

theorem Rate.asOverride_positive {rate : Rate} (h : rate.asOverride.Positive) : rate.Positive :=
  h rate.prompt rate.completion rfl rfl

theorem Rate.Positive.asOverride {rate : Rate} (h : rate.Positive) : rate.asOverride.Positive := by
  intro prompt completion hp hc
  cases hp
  cases hc
  exact h

theorem clean_clean {clean : Rate} (h : rate.clean = some clean) :
    clean.asOverride.clean = some clean := by
  obtain ⟨prompt, completion⟩ := rate
  cases prompt with
  | none => cases h
  | some prompt =>
    cases completion with
    | none => cases h
    | some completion =>
      cases h
      simp only [Rate.asOverride, PriceOverrideRequest.clean, roundTo_idem]

theorem positive_of_clean {clean : Rate} (h : rate.clean = some clean) (hclean : clean.Positive) :
    rate.Positive := by
  intro prompt completion hp hc
  rw [PriceOverrideRequest.clean, hp, hc] at h
  cases h
  constructor
  · exact not_le.mp fun hle => absurd hclean.1 (not_lt.mpr (roundTo_nonpos 6 hle))
  · exact not_le.mp fun hle => absurd hclean.2 (not_lt.mpr (roundTo_nonpos 6 hle))

theorem Usable.positive (h : Usable overrides) :
    ∀ model rate, overrides.lookup model = some rate → rate.Positive := by
  intro model rate hm
  cases hclean : rate.clean with
  | some clean => exact positive_of_clean hclean (h model rate clean hm hclean)
  | none =>
    intro prompt completion hp hc
    rw [PriceOverrideRequest.clean, hp, hc] at hclean
    cases hclean

theorem Usable.settled (h : Usable overrides) :
    Settled (overrides.filterMap PriceOverrideRequest.clean) := by
  intro model clean hm
  rw [Dict.lookup_filterMap, Option.bind_eq_some_iff] at hm
  obtain ⟨rate, hrate, hclean⟩ := hm
  exact ⟨clean_clean hclean, h model rate clean hrate hclean⟩

theorem Settled.usable (h : Settled rates) : Usable (asOverrides rates) := by
  intro model rate clean hm hclean
  rw [lookup_asOverrides, Option.map_eq_some_iff] at hm
  obtain ⟨old, hold, rfl⟩ := hm
  rw [(h model old hold).1] at hclean
  cases hclean
  exact (h model _ hold).2

theorem Usable.same {overrides' : Dict PriceOverrideRequest} (h : Usable overrides)
    (hsame : overrides'.Same overrides) : Usable overrides' :=
  fun model rate clean hm => h model rate clean ((hsame model).symm.trans hm)

theorem Settled.same {rates' : Dict Rate} (h : Settled rates) (hsame : rates'.Same rates) :
    Settled rates' := fun model rate hm => h model rate ((hsame model).symm.trans hm)

theorem Settled.clean_same (h : Settled rates) :
    ((asOverrides rates).filterMap PriceOverrideRequest.clean).Same rates := by
  intro model
  rw [Dict.lookup_filterMap, lookup_asOverrides]
  cases hm : rates.lookup model with
  | none => rfl
  | some rate => exact (h model rate hm).1

theorem usable_of_positive (hclean : ∀ model rate,
      (asOverrides (overrides.filterMap PriceOverrideRequest.clean)).lookup model = some rate →
        rate.Positive) : Usable overrides := by
  intro model rate clean hm hrate
  refine Rate.asOverride_positive (hclean model clean.asOverride ?_)
  rw [lookup_asOverrides, Dict.lookup_filterMap, hm, Option.bind_some, hrate, Option.map_some]

end Normalize

section SaveDoc
variable {overrides : Dict PriceOverrideRequest} (currentDoc : PricingDoc) (region now : String)
  (sourceModels : Dict Rate)

theorem applyOverrides_of_usable (h : Usable overrides) : applyOverrides sourceModels overrides =
    .ok (sourceModels.update (overrides.filterMap PriceOverrideRequest.clean)) := by
  rw [applyOverrides, normalizeOverrides_of_positive h.positive]
  rfl

theorem saveDoc_of_usable (h : Usable overrides) :
    ∃ doc, saveDoc currentDoc region sourceModels overrides now = .ok doc ∧
      doc.sourceModels = some sourceModels ∧
      doc.overrides = overrides.filterMap PriceOverrideRequest.clean ∧
      doc.models = sourceModels.update ((asOverrides (overrides.filterMap
        PriceOverrideRequest.clean)).filterMap PriceOverrideRequest.clean) := by
  rw [saveDoc, normalizeOverrides_of_positive h.positive]
  simp only [bind, Except.bind, applyOverrides_of_usable sourceModels h.settled.usable]
  exact ⟨_, rfl, rfl, rfl, rfl⟩

theorem previewRefresh_of_usable (h : Usable overrides) {fetched : Except FetchFault (Dict Rate)}
    (hfetched : fetched = .ok sourceModels) : ∃ preview,
      previewRefresh fetched region overrides = .ok preview ∧ preview.region = region ∧
      preview.sourceModels = sourceModels ∧
      preview.overrides = overrides.filterMap PriceOverrideRequest.clean := by
  rw [previewRefresh, hfetched, normalizeOverrides_of_positive h.positive]
  simp only [bind, Except.bind, Except.mapError,
    applyOverrides_of_usable sourceModels h.settled.usable]
  exact ⟨_, rfl, rfl, rfl, rfl⟩

theorem previewRefresh_of_not_usable (h : ¬ Usable overrides)
    (fetched : Except FetchFault (Dict Rate)) :
    ∃ failure, previewRefresh fetched region overrides = .error failure := by
  rw [previewRefresh]
  cases fetched with
  | error fault => exact ⟨_, rfl⟩
  | ok table =>
    by_cases hpositive : ∀ model rate, overrides.lookup model = some rate → rate.Positive
    · obtain ⟨e, he⟩ := normalizeOverrides_of_not_positive fun hclean =>
        h (usable_of_positive hclean)
      rw [normalizeOverrides_of_positive hpositive]
      simp only [bind, Except.bind, Except.mapError, applyOverrides, he]
      exact ⟨_, rfl⟩
    · obtain ⟨e, he⟩ := normalizeOverrides_of_not_positive hpositive
      rw [he]
      exact ⟨_, rfl⟩

theorem saveDoc_of_not_usable (h : ¬ Usable overrides) :
    ∃ e, saveDoc currentDoc region sourceModels overrides now = .error e := by
  by_cases hpositive : ∀ model rate, overrides.lookup model = some rate → rate.Positive
  · obtain ⟨e, he⟩ := normalizeOverrides_of_not_positive fun hclean =>
      h (usable_of_positive hclean)
    refine ⟨e, ?_⟩
    rw [saveDoc, normalizeOverrides_of_positive hpositive]
    simp only [bind, Except.bind, applyOverrides, he]
  · obtain ⟨e, he⟩ := normalizeOverrides_of_not_positive hpositive
    refine ⟨e, ?_⟩
    rw [saveDoc, he]
    rfl

end SaveDoc

end Pricing
