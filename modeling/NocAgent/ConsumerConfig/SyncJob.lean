import NocAgent.ConsumerConfig.Bundle
import NocAgent.ConsumerConfig.Evaluation
import NocAgent.Library.Requests
import NocAgent.Pricing.WorkerSync

namespace ConfigSync
open ConsumerConfig Pricing Requests Coroutine Trace

inductive ConfigValue where
  | null
  | bool (value : Bool)
  | names (models : List String)
  | int (n : ℤ)
  | text (text : String)

abbrev GlobalConfig := Dict ConfigValue

def FIELD_TO_NAMED_VALUE : List (String × String) :=
  [("allowed_models", "allowed-models"), ("tokens_per_minute", "tokens-per-minute"),
    ("token_quota", "token-quota"), ("token_quota_period", "token-quota-period")]

def DEFAULT_GLOBAL_CONFIG : GlobalConfig :=
  .setAll ∅ [("id", .text "global"),
    ("allowed_models", .names ["gpt-5.4", "gpt-5.4-mini", "grok-4.3", "DeepSeek-V4-Pro"]),
    ("tokens_per_minute", .int 10000), ("token_quota", .int 50000),
    ("token_quota_period", .text "Daily")]

def CONSUMER_CONFIG_NAMED_VALUE : String := "consumer-config-json"

structure Site where
  config : Option GlobalConfig
  pricing : Option PricingDoc
  consumers : Container
  namedValues : Dict String

inductive Write where
  | config (doc : GlobalConfig)
  | pricing (doc : PricingDoc)
  | consumer (doc : Doc)
  | namedValue (name value : String)

def Site.apply (site : Site) : Write → Site
  | .config doc => { site with config := some doc }
  | .pricing doc => { site with pricing := some doc }
  | .consumer doc => { site with consumers := upsertItem site.consumers doc }
  | .namedValue name value => { site with namedValues := site.namedValues.insert name value }

structure Execution where
  region : Option String
  fetchModelPricing : String → Except FetchFault (Dict Rate)
  query : UsageQuery
  nowIso : String

abbrev Job := Coroutine (Wire Site) Unit

def view {α : Type} (f : Site → α) : Job α := read () f

def save (w : Write) : Job Unit := write () Site.apply w

section Program
variable (numbers : NumberText) (reprNames : List String → String) (e : Execution)

def ConfigValue.str : ConfigValue → String
  | .null => "None"
  | .bool value => if value then "True" else "False"
  | .names models => reprNames models
  | .int n => toString n
  | .text s => s

def toNamedValueString (field : String) (value : ConfigValue) : String :=
  match value with
  | .names models => if field = "allowed_models" then ",".intercalate models else value.str reprNames
  | .null | .bool _ | .int _ | .text _ => value.str reprNames

def readOrSeedConfig : Job GlobalConfig := do
  match ← view (·.config) with
  | some config => pure config
  | none =>
    save (.config DEFAULT_GLOBAL_CONFIG)
    pure DEFAULT_GLOBAL_CONFIG

def syncNamedValues (config : GlobalConfig) : Job Unit :=
  forM FIELD_TO_NAMED_VALUE fun nv =>
    match config.lookup nv.1 with
    | none => pure ()
    | some value => save (.namedValue nv.2 (toNamedValueString reprNames nv.1 value))

def syncPricing : Job Unit :=
  match e.fetchModelPricing (pricingRegion e.region) with
  | .error _ => pure ()
  | .ok models => save (.pricing { models })

def syncBudgetDowngrades : Job Unit :=
  match queryUsage e.query with
  | .error _ => pure ()
  | .ok usage => do
    let pricing ← view fun site => readPricing site.pricing
    let docs ← view fun site => queryItems site.consumers
    forM (evaluateDowngrades usage pricing e.nowIso docs).values fun updated =>
      save (.consumer updated)

def bundleOf (docs : List Doc) : String := .ofList (encodeBundle numbers (buildConsumerBundle docs))

def syncConsumerConfig : Job Unit := do
  let docs ← view fun site => queryItems site.consumers
  save (.namedValue CONSUMER_CONFIG_NAMED_VALUE (bundleOf numbers docs))

def execute : Job ℕ := do
  let config ← readOrSeedConfig
  syncNamedValues reprNames config
  syncPricing e
  syncBudgetDowngrades e
  syncConsumerConfig numbers
  pure 0

def main : Job ℕ := (execute numbers reprNames e).exceptRaised fun _ => pure 1

end Program

-- The writes of an execution that meets no failure, in their order.
section Plan
variable (numbers : NumberText) (reprNames : List String → String) (e : Execution) (site : Site)

def configOf : GlobalConfig := site.config.getD DEFAULT_GLOBAL_CONFIG

def seedWrites : List Write :=
  match site.config with
  | some _ => []
  | none => [.config DEFAULT_GLOBAL_CONFIG]

def fieldValue (config : GlobalConfig) (nv : String × String) : List (String × String) :=
  ((config.lookup nv.1).map fun value => (nv.2, toNamedValueString reprNames nv.1 value)).toList

def fieldValues (config : GlobalConfig) : List (String × String) :=
  FIELD_TO_NAMED_VALUE.flatMap (fieldValue reprNames config)

def nameValue (nv : String × String) : Write := .namedValue nv.1 nv.2

def fieldWrites (config : GlobalConfig) : List Write := (fieldValues reprNames config).map nameValue

def priceWrites : List Write :=
  match e.fetchModelPricing (pricingRegion e.region) with
  | .error _ => []
  | .ok models => [.pricing { models }]

def downgradeWrites : List Write :=
  match queryUsage e.query with
  | .error _ => []
  | .ok usage =>
    (evaluateDowngrades usage (readPricing site.pricing) e.nowIso
      (queryItems site.consumers)).values.map .consumer

def bundleWrite : Write :=
  .namedValue CONSUMER_CONFIG_NAMED_VALUE (bundleOf numbers (queryItems site.consumers))

def settingWrites : List Write :=
  seedWrites site ++ (fieldWrites reprNames (configOf site) ++ priceWrites e)

def priced : Site := run Site.apply site (settingWrites reprNames e site)

def downgraded : Site :=
  run Site.apply (priced reprNames e site) (downgradeWrites e (priced reprNames e site))

def plan : List Write :=
  settingWrites reprNames e site ++ (downgradeWrites e (priced reprNames e site) ++
    [bundleWrite numbers (downgraded reprNames e site)])

def downgradeReads : ℕ :=
  match queryUsage e.query with
  | .error _ => 0
  | .ok _ => 2

-- Every write, and a read for the config and for the bundle beside those for the budgets.
def requests : ℕ := (plan numbers reprNames e site).length + (downgradeReads e + 2)

def reconciled : Site :=
  let pricing := Pricing.syncPricing e.region e.fetchModelPricing site.pricing
  let consumers := ConsumerConfig.syncBudgetDowngrades e.query (readPricing pricing) e.nowIso
    site.consumers
  { config := some (configOf site), pricing, consumers
    namedValues := (site.namedValues.setAll (fieldValues reprNames (configOf site))).insert
      CONSUMER_CONFIG_NAMED_VALUE (bundleOf numbers (queryItems consumers)) }

end Plan

section Performs
variable {numbers : NumberText} {reprNames : List String → String}

theorem performs_view {α : Type} (site : Site) (f : Site → α) :
    Performs Site.apply (view f) site 1 [] (f site) := Performs.read Site.apply site () f

theorem performs_save (site : Site) (w : Write) :
    Performs Site.apply (save w) site 1 [w] () := Performs.write Site.apply site () w

theorem performs_readOrSeedConfig (site : Site) :
    Performs Site.apply readOrSeedConfig site (1 + (seedWrites site).length) (seedWrites site)
      (configOf site) := by
  have hview := performs_view site (·.config)
  rw [seedWrites, configOf]
  cases hconfig : site.config with
  | some config =>
    rw [hconfig] at hview
    exact hview.bind (Performs.pure Site.apply _ config)
  | none =>
    rw [hconfig] at hview
    exact .recount (hview.bind ((performs_save _ _).bind (Performs.pure Site.apply _ _))) rfl

theorem performs_syncNamedValues (reprNames : List String → String) (config : GlobalConfig)
    (site : Site) :
    Performs Site.apply (syncNamedValues reprNames config) site
      (fieldWrites reprNames config).length (fieldWrites reprNames config) () := by
  rw [fieldWrites, fieldValues, List.map_flatMap]
  refine Performs.forM (fun nv site => ?_) FIELD_TO_NAMED_VALUE site
  rw [fieldValue]
  cases config.lookup nv.1 with
  | none => exact Performs.pure Site.apply site ()
  | some value => exact performs_save site _

theorem performs_syncPricing (e : Execution) (site : Site) :
    Performs Site.apply (syncPricing e) site (priceWrites e).length (priceWrites e) () := by
  rw [syncPricing, priceWrites]
  cases e.fetchModelPricing (pricingRegion e.region) with
  | error fault => exact Performs.pure Site.apply site ()
  | ok models => exact performs_save site _

theorem performs_syncBudgetDowngrades (e : Execution) (site : Site) :
    Performs Site.apply (syncBudgetDowngrades e) site
      (downgradeReads e + (downgradeWrites e site).length) (downgradeWrites e site) () := by
  rw [syncBudgetDowngrades, downgradeWrites, downgradeReads]
  cases queryUsage e.query with
  | error fault => exact Performs.pure Site.apply site ()
  | ok usage =>
    have hsave (updated : Doc) (site : Site) : Performs Site.apply (save (.consumer updated)) site
        [Write.consumer updated].length [.consumer updated] () := performs_save site _
    have hsaves := Performs.forM hsave (evaluateDowngrades usage (readPricing site.pricing) e.nowIso
        (queryItems site.consumers)).values site
    rw [← List.map_eq_flatMap] at hsaves
    exact .recount ((performs_view site _).bind ((performs_view site _).bind hsaves))
      (Nat.add_assoc 1 1 _).symm

theorem performs_syncConsumerConfig (site : Site) :
    Performs Site.apply (syncConsumerConfig numbers) site 2 [bundleWrite numbers site] () :=
  .recount ((performs_view site _).bind (performs_save site _)) rfl

theorem performs_execute (numbers : NumberText) (reprNames : List String → String)
    (e : Execution) (site : Site) :
    Performs Site.apply (execute numbers reprNames e) site (requests numbers reprNames e site)
      (plan numbers reprNames e site) 0 := by
  let seeded := run Site.apply site (seedWrites site)
  let named := run Site.apply seeded (fieldWrites reprNames (configOf site))
  have hpriced : run Site.apply named (priceWrites e) = priced reprNames e site := by
    rw [priced, settingWrites, run_append, run_append]
  have hconfig := performs_readOrSeedConfig site
  have hnamed := performs_syncNamedValues reprNames (configOf site) seeded
  have hpricing := performs_syncPricing e named
  have hdowngrades : Performs Site.apply (syncBudgetDowngrades e)
      (run Site.apply named (priceWrites e))
      (downgradeReads e + (downgradeWrites e (priced reprNames e site)).length)
      (downgradeWrites e (priced reprNames e site)) () := by
    rw [hpriced]
    exact performs_syncBudgetDowngrades e _
  have hbundle : Performs Site.apply (syncConsumerConfig numbers)
      (run Site.apply (run Site.apply named (priceWrites e))
        (downgradeWrites e (priced reprNames e site))) 2
      [bundleWrite numbers (downgraded reprNames e site)] () := by
    rw [hpriced]
    exact performs_syncConsumerConfig (downgraded reprNames e site)
  have hplan : plan numbers reprNames e site = seedWrites site ++
      (fieldWrites reprNames (configOf site) ++ (priceWrites e ++
        (downgradeWrites e (priced reprNames e site) ++
          ([bundleWrite numbers (downgraded reprNames e site)] ++ [])))) := by
    rw [plan, settingWrites, List.append_assoc, List.append_assoc, List.append_nil]
  have hrequests : requests numbers reprNames e site = 1 + (seedWrites site).length +
      ((fieldWrites reprNames (configOf site)).length + ((priceWrites e).length +
        (downgradeReads e + (downgradeWrites e (priced reprNames e site)).length + (2 + 0)))) := by
    rw [requests, hplan]
    simp only [List.length_append, List.length_cons, List.length_nil]
    omega
  rw [hrequests, hplan, execute]
  exact hconfig.bind (hnamed.bind (hpricing.bind (hdowngrades.bind
    (hbundle.bind (Performs.pure Site.apply _ 0)))))

end Performs

section Reconciled
variable {numbers : NumberText} {reprNames : List String → String} {e : Execution} {site : Site}

theorem run_seedWrites (site : Site) :
    run Site.apply site (seedWrites site) = { site with config := some (configOf site) } := by
  obtain ⟨config, pricing, consumers, namedValues⟩ := site
  cases config <;> rfl

theorem run_nameValues (site : Site) (nvs : List (String × String)) :
    run Site.apply site (nvs.map nameValue) =
      { site with namedValues := site.namedValues.setAll nvs } := by
  induction nvs generalizing site with
  | nil => rfl
  | cons nv nvs ih => exact ih _

theorem run_priceWrites (e : Execution) (site : Site) :
    run Site.apply site (priceWrites e) =
      { site with pricing := Pricing.syncPricing e.region e.fetchModelPricing site.pricing } := by
  rw [priceWrites, Pricing.syncPricing]
  cases e.fetchModelPricing (pricingRegion e.region) <;> rfl

theorem run_consumers (site : Site) (docs : List Doc) :
    run Site.apply site (docs.map .consumer) =
      { site with consumers := docs.foldl upsertItem site.consumers } := by
  induction docs generalizing site with
  | nil => rfl
  | cons doc docs ih => exact ih _

theorem run_downgradeWrites (e : Execution) (site : Site) :
    run Site.apply site (downgradeWrites e site) =
      { site with
        consumers := ConsumerConfig.syncBudgetDowngrades e.query (readPricing site.pricing)
          e.nowIso site.consumers } := by
  rw [downgradeWrites, ConsumerConfig.syncBudgetDowngrades_eq]
  cases queryUsage e.query with
  | error fault => rfl
  | ok usage => exact run_consumers site _

theorem priced_eq : priced reprNames e site =
    { site with
      config := some (configOf site)
      pricing := Pricing.syncPricing e.region e.fetchModelPricing site.pricing
      namedValues := site.namedValues.setAll (fieldValues reprNames (configOf site)) } := by
  rw [priced, settingWrites, run_append, run_append, run_seedWrites, fieldWrites, run_nameValues,
    run_priceWrites]

theorem run_plan : run Site.apply site (plan numbers reprNames e site) =
    reconciled numbers reprNames e site := by
  rw [plan, run_append, run_append]
  rw [show run Site.apply site (settingWrites reprNames e site) = priced reprNames e site from rfl,
    downgraded, run_downgradeWrites, priced_eq]
  rfl

end Reconciled

inductive Cell where
  | config
  | pricing
  | consumer (id : String)
  | namedValue (name : String)
deriving DecidableEq

def Write.cell : Write → Cell
  | .config _ => .config
  | .pricing _ => .pricing
  | .consumer doc => .consumer doc.id
  | .namedValue name _ => .namedValue name

-- What a cell holds, as the write that would put it there.
def Site.cell (site : Site) : Cell → Option Write
  | .config => site.config.map .config
  | .pricing => site.pricing.map .pricing
  | .consumer id => (site.consumers.lookup id).map .consumer
  | .namedValue name => (site.namedValues.lookup name).map (.namedValue name)

section Cells
variable {a b : Site}

theorem cell_consumer_apply (site : Site) (doc : Doc) (id : String) :
    (site.apply (.consumer doc)).cell (.consumer id) =
      if id = doc.id then some (.consumer doc) else site.cell (.consumer id) := by
  simp only [Site.cell, Site.apply, upsertItem, Dict.lookup_insert_eq]
  split_ifs <;> rfl

theorem cell_namedValue_apply (site : Site) (name value name' : String) :
    (site.apply (.namedValue name value)).cell (.namedValue name') =
      if name' = name then some (.namedValue name value) else site.cell (.namedValue name') := by
  simp only [Site.cell, Site.apply, Dict.lookup_insert_eq]
  split_ifs with h
  · rw [h]
    rfl
  · rfl

theorem cell_apply_self (site : Site) (w : Write) : (site.apply w).cell w.cell = some w := by
  cases w with
  | config doc => rfl
  | pricing doc => rfl
  | consumer doc => exact (cell_consumer_apply site doc doc.id).trans (if_pos rfl)
  | namedValue name value => exact (cell_namedValue_apply site name value name).trans (if_pos rfl)

theorem cell_apply_ne (site : Site) (w : Write) (k : Cell) (h : k ≠ w.cell) :
    (site.apply w).cell k = site.cell k := by
  cases w with
  | config doc => cases k with
    | config => exact absurd rfl h
    | pricing | consumer id | namedValue name => rfl
  | pricing doc => cases k with
    | pricing => exact absurd rfl h
    | config | consumer id | namedValue name => rfl
  | consumer doc => cases k with
    | consumer id =>
      exact (cell_consumer_apply site doc id).trans (if_neg fun hid => h (congrArg Cell.consumer hid))
    | config | pricing | namedValue name => rfl
  | namedValue name value => cases k with
    | namedValue name' =>
      exact (cell_namedValue_apply site name value name').trans
        (if_neg fun hname => h (congrArg Cell.namedValue hname))
    | config | pricing | consumer id => rfl

def registers : Registers Site Write Cell where
  apply := Site.apply
  key := Write.cell
  cell := Site.cell
  cell_apply_self := cell_apply_self
  cell_apply_ne := cell_apply_ne

theorem cell_config : a.cell .config = b.cell .config ↔ a.config = b.config :=
  (Option.map_injective fun _ _ h => Write.config.inj h).eq_iff

theorem cell_pricing : a.cell .pricing = b.cell .pricing ↔ a.pricing = b.pricing :=
  (Option.map_injective fun _ _ h => Write.pricing.inj h).eq_iff

theorem cell_consumer {id : String} : a.cell (.consumer id) = b.cell (.consumer id) ↔
    a.consumers.lookup id = b.consumers.lookup id :=
  (Option.map_injective fun _ _ h => Write.consumer.inj h).eq_iff

theorem cell_namedValue {name : String} : a.cell (.namedValue name) = b.cell (.namedValue name) ↔
    a.namedValues.lookup name = b.namedValues.lookup name :=
  (Option.map_injective fun _ _ h => (Write.namedValue.inj h).2).eq_iff

end Cells

section PlanKeys
variable {numbers : NumberText} {reprNames : List String → String} {e : Execution} {site : Site}
  {w : Write}

theorem fieldValues_sublist (config : GlobalConfig) (fields : List (String × String)) :
    ((fields.flatMap (fieldValue reprNames config)).map Prod.fst).Sublist
      (fields.map Prod.snd) := by
  induction fields with
  | nil => exact List.Sublist.refl _
  | cons nv fields ih =>
    rw [List.flatMap_cons, List.map_append, List.map_cons, fieldValue]
    cases config.lookup nv.1 with
    | none => exact ih.cons _
    | some value => exact ih.cons_cons _

theorem nodup_fieldValues (config : GlobalConfig) :
    ((fieldValues reprNames config).map Prod.fst).Nodup :=
  List.Nodup.sublist (fieldValues_sublist config FIELD_TO_NAMED_VALUE) (by decide)

theorem name_of_fieldValue {config : GlobalConfig} {nv : String × String}
    (h : nv ∈ fieldValues reprNames config) : nv.1 ∈ FIELD_TO_NAMED_VALUE.map Prod.snd :=
  (fieldValues_sublist config FIELD_TO_NAMED_VALUE).subset (List.mem_map_of_mem h)

theorem mem_seedWrites (h : w ∈ seedWrites site) : w.cell = .config := by
  rw [seedWrites] at h
  cases hconfig : site.config with
  | some config =>
    rw [hconfig] at h
    cases h
  | none =>
    rw [hconfig] at h
    rw [List.mem_singleton.mp h]
    rfl

theorem mem_fieldWrites {config : GlobalConfig} (h : w ∈ fieldWrites reprNames config) :
    ∃ name ∈ FIELD_TO_NAMED_VALUE.map Prod.snd, w.cell = .namedValue name := by
  obtain ⟨nv, hnv, rfl⟩ := List.mem_map.mp h
  exact ⟨nv.1, name_of_fieldValue hnv, rfl⟩

theorem mem_priceWrites (h : w ∈ priceWrites e) : w.cell = .pricing := by
  rw [priceWrites] at h
  cases hfetched : e.fetchModelPricing (pricingRegion e.region) with
  | error fault =>
    rw [hfetched] at h
    cases h
  | ok models =>
    rw [hfetched] at h
    rw [List.mem_singleton.mp h]
    rfl

theorem mem_downgradeWrites (h : w ∈ downgradeWrites e site) : ∃ id, w.cell = .consumer id := by
  rw [downgradeWrites] at h
  cases hquery : queryUsage e.query with
  | error fault =>
    rw [hquery] at h
    cases h
  | ok usage =>
    rw [hquery] at h
    obtain ⟨doc, -, rfl⟩ := List.mem_map.mp h
    exact ⟨doc.id, rfl⟩

theorem mem_settingWrites (h : w ∈ settingWrites reprNames e site) :
    w.cell = .config ∨ w.cell = .pricing ∨
      ∃ name ∈ FIELD_TO_NAMED_VALUE.map Prod.snd, w.cell = .namedValue name := by
  rcases List.mem_append.mp h with hseed | hrest
  · exact .inl (mem_seedWrites hseed)
  · rcases List.mem_append.mp hrest with hfield | hprice
    · exact .inr (.inr (mem_fieldWrites hfield))
    · exact .inr (.inl (mem_priceWrites hprice))

theorem nodup_seedWrites : ((seedWrites site).map Write.cell).Nodup := by
  rw [seedWrites]
  cases site.config with
  | some config => exact List.nodup_nil
  | none => exact List.nodup_singleton _

theorem nodup_fieldWrites (config : GlobalConfig) :
    ((fieldWrites reprNames config).map Write.cell).Nodup := by
  have hcells : (fieldWrites reprNames config).map Write.cell =
      ((fieldValues reprNames config).map Prod.fst).map Cell.namedValue := by
    rw [fieldWrites, List.map_map, List.map_map]
    rfl
  rw [hcells]
  exact (nodup_fieldValues config).map fun _ _ h => Cell.namedValue.inj h

theorem nodup_priceWrites : ((priceWrites e).map Write.cell).Nodup := by
  rw [priceWrites]
  cases e.fetchModelPricing (pricingRegion e.region) with
  | error fault => exact List.nodup_nil
  | ok models => exact List.nodup_singleton _

theorem nodup_downgradeWrites (hsite : WellFormed site.consumers) :
    ((downgradeWrites e site).map Write.cell).Nodup := by
  rw [downgradeWrites]
  cases queryUsage e.query with
  | error fault => exact List.nodup_nil
  | ok usage =>
    have hids := @nodup_upserts _ _ usage (readPricing site.pricing) e.nowIso
      (distinct_queryItems hsite) (storedIn_queryItems hsite)
    have hcells := hids.map fun _ _ h => Cell.consumer.inj h
    rw [List.map_map, List.map_map] at hcells
    rw [List.map_map]
    exact hcells

theorem nodup_settingWrites : ((settingWrites reprNames e site).map registers.key).Nodup := by
  refine Registers.nodup_append nodup_seedWrites
    (Registers.nodup_append (nodup_fieldWrites _) nodup_priceWrites ?_) ?_
  · intro v hv w hw hsame
    obtain ⟨name, -, hname⟩ := mem_fieldWrites hv
    exact Cell.noConfusion (hname.symm.trans (hsame.trans (mem_priceWrites hw)))
  · intro v hv w hw hsame
    have hconfig : w.cell = .config := hsame.symm.trans (mem_seedWrites hv)
    rcases List.mem_append.mp hw with hfield | hprice
    · obtain ⟨name, -, hname⟩ := mem_fieldWrites hfield
      exact Cell.noConfusion (hname.symm.trans hconfig)
    · exact Cell.noConfusion ((mem_priceWrites hprice).symm.trans hconfig)

theorem setting_ne_bundle (h : w ∈ settingWrites reprNames e site) :
    w.cell ≠ .namedValue CONSUMER_CONFIG_NAMED_VALUE := by
  intro hbundle
  rcases mem_settingWrites h with hcell | hcell | ⟨name, hname, hcell⟩
  · exact Cell.noConfusion (hcell.symm.trans hbundle)
  · exact Cell.noConfusion (hcell.symm.trans hbundle)
  · cases hcell.symm.trans hbundle
    exact absurd hname (by decide)

theorem setting_ne_consumer (h : w ∈ settingWrites reprNames e site) (id : String) :
    w.cell ≠ .consumer id := by
  intro hconsumer
  rcases mem_settingWrites h with hcell | hcell | ⟨name, -, hcell⟩ <;>
    exact Cell.noConfusion (hcell.symm.trans hconsumer)

theorem nodup_plan (numbers : NumberText) (reprNames : List String → String) (e : Execution)
    (hsite : WellFormed site.consumers) :
    ((plan numbers reprNames e site).map registers.key).Nodup := by
  have hpriced : WellFormed (priced reprNames e site).consumers := by
    rw [priced_eq]
    exact hsite
  refine Registers.nodup_append nodup_settingWrites
    (Registers.nodup_append (nodup_downgradeWrites hpriced) (List.nodup_singleton _) ?_) ?_
  · intro v hv w hw hsame
    obtain ⟨id, hid⟩ := mem_downgradeWrites hv
    rw [List.mem_singleton.mp hw] at hsame
    exact Cell.noConfusion (hid.symm.trans hsame)
  · intro v hv w hw hsame
    rcases List.mem_append.mp hw with hdowngrade | hbundle
    · obtain ⟨id, hid⟩ := mem_downgradeWrites hdowngrade
      exact setting_ne_consumer hv id (hsame.trans hid)
    · rw [List.mem_singleton.mp hbundle] at hsame
      exact setting_ne_bundle hv hsame

end PlanKeys

def Site.Same (a b : Site) : Prop :=
  a.config = b.config ∧ a.pricing = b.pricing ∧ a.consumers.Same b.consumers ∧
    a.namedValues.Same b.namedValues

-- Every document and named value is the old one or the new one. A consumer is written when the
-- settings and the prices are, and the bundle when everything else is.
structure Interrupted (site target after : Site) : Prop where
  config : after.config = site.config ∨ after.config = target.config
  pricing : after.pricing = site.pricing ∨ after.pricing = target.pricing
  consumers : ∀ id, after.consumers.lookup id = site.consumers.lookup id ∨
    after.consumers.lookup id = target.consumers.lookup id
  namedValues : ∀ name, after.namedValues.lookup name = site.namedValues.lookup name ∨
    after.namedValues.lookup name = target.namedValues.lookup name
  settingsFirst : ∀ id, after.consumers.lookup id ≠ site.consumers.lookup id →
    after.config = target.config ∧ after.pricing = target.pricing ∧
      ∀ name ≠ CONSUMER_CONFIG_NAMED_VALUE,
        after.namedValues.lookup name = target.namedValues.lookup name
  bundleLast : after.namedValues.lookup CONSUMER_CONFIG_NAMED_VALUE ≠
    site.namedValues.lookup CONSUMER_CONFIG_NAMED_VALUE → after.Same target

section Interruption
variable {numbers : NumberText} {reprNames : List String → String} {e : Execution} {site : Site}
  {done : List Write}

theorem same_of_cells {a b : Site} (h : ∀ k, a.cell k = b.cell k) : a.Same b :=
  ⟨cell_config.mp (h _), cell_pricing.mp (h _), fun _ => cell_consumer.mp (h _),
    fun _ => cell_namedValue.mp (h _)⟩

theorem settings_done (hdone : done <+: plan numbers reprNames e site) {id : String}
    (h : (run Site.apply site done).cell (.consumer id) ≠ site.cell (.consumer id)) :
    settingWrites reprNames e site <+: done :=
  Registers.prefix_of_changed (r := registers) rfl hdone
    (fun _ hw => setting_ne_consumer hw id) h

theorem all_done (hdone : done <+: plan numbers reprNames e site)
    (h : (run Site.apply site done).cell (.namedValue CONSUMER_CONFIG_NAMED_VALUE) ≠
      site.cell (.namedValue CONSUMER_CONFIG_NAMED_VALUE)) :
    settingWrites reprNames e site ++ downgradeWrites e (priced reprNames e site) <+: done := by
  refine Registers.prefix_of_changed (r := registers)
    (k := .namedValue CONSUMER_CONFIG_NAMED_VALUE) (List.append_assoc _ _ _).symm hdone
    (fun w hw => ?_) h
  rcases List.mem_append.mp hw with hsetting | hdowngrade
  · exact setting_ne_bundle hsetting
  · obtain ⟨id, hid⟩ := mem_downgradeWrites hdowngrade
    exact fun hbundle => Cell.noConfusion (hid.symm.trans hbundle)

theorem interrupted_of_done (hsite : WellFormed site.consumers)
    (hdone : done <+: plan numbers reprNames e site) :
    Interrupted site (reconciled numbers reprNames e site) (run Site.apply site done) := by
  have hkeys := nodup_plan numbers reprNames e hsite
  have hcell : ∀ k, (run Site.apply site done).cell k = site.cell k ∨
      (run Site.apply site done).cell k = (reconciled numbers reprNames e site).cell k := by
    rw [← run_plan]
    exact Registers.cell_run_part hkeys hdone
  have hcovered : ∀ k, (∀ w ∈ plan numbers reprNames e site, w.cell = k → w ∈ done) →
      (run Site.apply site done).cell k = (reconciled numbers reprNames e site).cell k := by
    rw [← run_plan]
    exact fun k => Registers.cell_run_of_covered hkeys hdone
  refine ⟨(hcell .config).imp cell_config.mp cell_config.mp,
    (hcell .pricing).imp cell_pricing.mp cell_pricing.mp,
    fun id => (hcell (.consumer id)).imp cell_consumer.mp cell_consumer.mp,
    fun name => (hcell (.namedValue name)).imp cell_namedValue.mp cell_namedValue.mp, ?_, ?_⟩
  · intro id hchanged
    have hsettings := settings_done hdone fun h => hchanged (cell_consumer.mp h)
    have hsetting : ∀ k, (∀ id, k ≠ .consumer id) → k ≠ .namedValue CONSUMER_CONFIG_NAMED_VALUE →
        (run Site.apply site done).cell k = (reconciled numbers reprNames e site).cell k := by
      rintro k hconsumer hbundle
      refine hcovered k fun w hw hkey => ?_
      rcases List.mem_append.mp hw with hw | hw
      · exact hsettings.subset hw
      rcases List.mem_append.mp hw with hw | hw
      · obtain ⟨id, hid⟩ := mem_downgradeWrites hw
        exact absurd (hkey.symm.trans hid) (hconsumer id)
      · rw [List.mem_singleton.mp hw] at hkey
        exact absurd hkey.symm hbundle
    refine ⟨cell_config.mp (hsetting _ ?_ ?_), cell_pricing.mp (hsetting _ ?_ ?_),
      fun name hname => cell_namedValue.mp (hsetting _ ?_ fun h => hname (Cell.namedValue.inj h))⟩
    all_goals first | exact fun id h => Cell.noConfusion h | exact fun h => Cell.noConfusion h
  · intro hchanged
    have hall := all_done hdone fun h => hchanged (cell_namedValue.mp h)
    refine same_of_cells fun k => ?_
    by_cases hbundle : k = .namedValue CONSUMER_CONFIG_NAMED_VALUE
    · subst hbundle
      exact (hcell _).resolve_left fun h => hchanged (cell_namedValue.mp h)
    · refine hcovered k fun w hw hkey => ?_
      rw [plan, ← List.append_assoc] at hw
      rcases List.mem_append.mp hw with hw | hw
      · exact hall.subset hw
      · rw [List.mem_singleton.mp hw] at hkey
        exact absurd hkey.symm hbundle

def left (numbers : NumberText) (reprNames : List String → String) (e : Execution) (site : Site)
    (fates : List Fate) : Site := ((main numbers reprNames e).run ⟨site, fates⟩).2.store

def code (numbers : NumberText) (reprNames : List String → String) (e : Execution) (site : Site)
    (fates : List Fate) : Option ℕ := ((main numbers reprNames e).run ⟨site, fates⟩).1.value?

theorem main_performs (numbers : NumberText) (reprNames : List String → String) (e : Execution)
    (site : Site) (fates : List Fate) :
    ∃ done, done <+: plan numbers reprNames e site ∧
      (Clean (requests numbers reprNames e site) fates → done = plan numbers reprNames e site) ∧
      code numbers reprNames e site fates =
        some (if Clean (requests numbers reprNames e site) fates then 0 else 1) ∧
      left numbers reprNames e site fates = run Site.apply site done := by
  obtain ⟨done, hdone, hclean, hcode, hleft⟩ :=
    (performs_execute numbers reprNames e site).exceptRaised_run 1 fates
  exact ⟨done, hdone, hclean, congrArg Exit.value? hcode, hleft⟩

theorem left_clean (numbers : NumberText) (reprNames : List String → String) (e : Execution)
    (site : Site) :
    left numbers reprNames e site [] = reconciled numbers reprNames e site ∧
      code numbers reprNames e site [] = some 0 := by
  obtain ⟨done, -, hclean, hcode, hleft⟩ := main_performs numbers reprNames e site []
  rw [hleft, hclean (clean_nil _), run_plan, hcode, if_pos (clean_nil _)]
  exact ⟨rfl, rfl⟩

theorem interrupted_job (hsite : WellFormed site.consumers) (numbers : NumberText)
    (reprNames : List String → String) (e : Execution) (fates : List Fate) :
    Interrupted site (left numbers reprNames e site []) (left numbers reprNames e site fates) ∧
      (Clean (requests numbers reprNames e site) fates →
        left numbers reprNames e site fates = left numbers reprNames e site []) ∧
      code numbers reprNames e site fates =
        some (if Clean (requests numbers reprNames e site) fates then 0 else 1) := by
  obtain ⟨done, hdone, hclean, hcode, hleft⟩ := main_performs numbers reprNames e site fates
  rw [(left_clean numbers reprNames e site).1, hleft]
  refine ⟨interrupted_of_done hsite hdone, fun h => ?_, hcode⟩
  rw [hclean h, run_plan]

end Interruption

section Example

def firstRun : Site where
  config := none
  pricing := none
  consumers := twoConsumers
  namedValues := ∅

def evening : Execution where
  region := none
  fetchModelPricing _ := .ok spentPrices
  query := .success [[⟨some "team-a", some "gpt-5.4", some "prompt", some 400000⟩]]
  nowIso := "2026-01-01T18:00:00+00:00"

def overBudget : NumberText where
  int _ := ['2']
  float _ := ['1', '.', '0']
  quote_not_mem_int _ := by decide
  quote_not_mem_float _ := by decide

def bracketed (models : List String) : String := "['" ++ "', '".intercalate models ++ "']"

-- The answer to the last of the config's named values is lost.
def lateFailure : List Fate := [.served, .served, .served, .served, .served, .unanswered]

theorem interrupted_job_firstRun :
    Interrupted firstRun (left overBudget bracketed evening firstRun [])
        (left overBudget bracketed evening firstRun lateFailure) ∧
      (Clean (requests overBudget bracketed evening firstRun) lateFailure →
        left overBudget bracketed evening firstRun lateFailure =
          left overBudget bracketed evening firstRun []) ∧
      code overBudget bracketed evening firstRun lateFailure =
        some (if Clean (requests overBudget bracketed evening firstRun) lateFailure then 0 else 1) :=
  interrupted_job twoConsumers_wellFormed overBudget bracketed evening lateFailure

end Example

end ConfigSync
