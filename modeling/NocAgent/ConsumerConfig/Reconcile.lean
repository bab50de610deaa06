import NocAgent.ConsumerConfig.SyncJob
import Mathlib.Data.Option.Basic

namespace ConfigSync
open ConsumerConfig Pricing Requests Trace HalfEven

-- What evaluations, of whatever day, may do to a document.
def Reassessed (doc doc' : Doc) : Prop :=
  (∃ activeDowngrade, doc' = { doc with activeDowngrade }) ∧
    ((∀ consumer budgetUsd, ¬ doc.Budgeted consumer budgetUsd) → doc' = doc)

structure Tended (reprNames : List String → String) (site site' : Site) : Prop where
  config : configOf site' = configOf site
  consumers : ∀ id, Option.Rel Reassessed (site.consumers.lookup id) (site'.consumers.lookup id)
  others : ∀ name ≠ CONSUMER_CONFIG_NAMED_VALUE,
    name ∉ (fieldValues reprNames (configOf site)).map Prod.fst →
      site'.namedValues.lookup name = site.namedValues.lookup name

structure Reconciled (numbers : NumberText) (reprNames : List String → String) (usage : Usage)
    (site after : Site) : Prop where
  config : after.config = some (configOf site)
  fields : ∀ nv ∈ FIELD_TO_NAMED_VALUE, ∀ value, (configOf site).lookup nv.1 = some value →
    after.namedValues.lookup nv.2 = some (toNamedValueString reprNames nv.1 value)
  bundle : after.namedValues.lookup CONSUMER_CONFIG_NAMED_VALUE =
    some (bundleOf numbers (queryItems after.consumers))
  others : ∀ name ≠ CONSUMER_CONFIG_NAMED_VALUE,
    name ∉ (fieldValues reprNames (configOf site)).map Prod.fst →
      after.namedValues.lookup name = site.namedValues.lookup name
  consumers : ∀ id, Option.Rel (fun doc doc' => Reassessed doc doc' ∧
    ∀ consumer budgetUsd, doc.Budgeted consumer budgetUsd → doc'.level =
      levelFor (roundTo 4 (cost usage (readPricing after.pricing) consumer / budgetUsd)))
    (site.consumers.lookup id) (after.consumers.lookup id)

section Documents
variable {doc doc' doc'' : Doc}

theorem Reassessed.refl (doc : Doc) : Reassessed doc doc := ⟨⟨doc.activeDowngrade, rfl⟩, fun _ => rfl⟩

theorem Reassessed.budgeted (h : Reassessed doc doc') {consumer : String} {budgetUsd : ℚ} :
    doc'.Budgeted consumer budgetUsd ↔ doc.Budgeted consumer budgetUsd := by
  obtain ⟨⟨activeDowngrade, rfl⟩, -⟩ := h
  exact ⟨fun h => ⟨h.consumer, h.budget, h.nonzero, h.ladder⟩,
    fun h => ⟨h.consumer, h.budget, h.nonzero, h.ladder⟩⟩

theorem Reassessed.trans (h : Reassessed doc doc') (h' : Reassessed doc' doc'') :
    Reassessed doc doc'' := by
  refine ⟨?_, fun hnot => ?_⟩
  · obtain ⟨⟨_, rfl⟩, -⟩ := h
    obtain ⟨⟨activeDowngrade, rfl⟩, -⟩ := h'
    exact ⟨activeDowngrade, rfl⟩
  · rw [h'.2 fun consumer budgetUsd hbudgeted => hnot consumer budgetUsd (h.budgeted.mp hbudgeted),
      h.2 hnot]

theorem reassessed_evaluated (usage : Usage) (pricing : Dict Rate) (nowIso : String) (doc : Doc) :
    Reassessed doc (evaluated usage pricing nowIso doc) :=
  ⟨evaluated_eq usage pricing nowIso doc, evaluated_of_not_budgeted⟩

theorem rel_refl (doc : Option Doc) : Option.Rel Reassessed doc doc := by
  cases doc with
  | none => exact .none
  | some doc => exact .some (.refl doc)

theorem Reassessed.filedUnder (h : Reassessed doc doc') {consumer : String}
    (hdoc : doc.FiledUnder consumer) : doc'.FiledUnder consumer := by
  obtain ⟨⟨activeDowngrade, rfl⟩, -⟩ := h
  exact ⟨hdoc.id, hdoc.docType, hdoc.consumer⟩

end Documents

section Sites
variable {numbers : NumberText} {reprNames : List String → String} {e : Execution}
  {site site' site'' after : Site}

theorem Tended.refl (site : Site) : Tended reprNames site site where
  config := rfl
  consumers _ := rel_refl _
  others _ _ _ := rfl

theorem Tended.trans (h : Tended reprNames site site') (h' : Tended reprNames site' site'') :
    Tended reprNames site site'' where
  config := h'.config.trans h.config
  consumers id := by
    have hfirst := h.consumers id
    have hsecond := h'.consumers id
    generalize site.consumers.lookup id = x at hfirst ⊢
    generalize site'.consumers.lookup id = y at hfirst hsecond
    generalize site''.consumers.lookup id = z at hsecond ⊢
    cases hfirst with
    | none =>
      cases hsecond
      exact .none
    | some hdoc =>
      cases hsecond with
      | some hdoc' => exact .some (hdoc.trans hdoc')
  others name hname hfield := by
    rw [h'.others name hname (by rwa [h.config]), h.others name hname hfield]

theorem Tended.wellFormed (h : Tended reprNames site site') (hsite : WellFormed site.consumers) :
    WellFormed site'.consumers := by
  intro id doc' hdoc'
  have hrel := h.consumers id
  rw [hdoc'] at hrel
  cases hold : site.consumers.lookup id with
  | none =>
    rw [hold] at hrel
    cases hrel
  | some doc =>
    rw [hold] at hrel
    cases hrel with
    | some hdoc =>
      obtain ⟨consumer, rfl, hfiled⟩ := hsite id doc hold
      exact ⟨consumer, rfl, hdoc.filedUnder hfiled⟩

theorem lookup_syncBudgetDowngrades (hsite : WellFormed site.consumers) (query : UsageQuery)
    (pricing : Dict Rate) (nowIso : String) (id : String) :
    Option.Rel Reassessed (site.consumers.lookup id)
      ((ConsumerConfig.syncBudgetDowngrades query pricing nowIso site.consumers).lookup id) := by
  rw [ConsumerConfig.syncBudgetDowngrades_eq]
  cases queryUsage query with
  | error fault => exact rel_refl _
  | ok usage =>
    rw [lookup_upserts hsite]
    cases site.consumers.lookup id with
    | none => exact .none
    | some doc => exact .some (reassessed_evaluated usage pricing nowIso doc)

theorem lookup_reconciled_of_not_field {name : String} (hname : name ≠ CONSUMER_CONFIG_NAMED_VALUE)
    (hfield : name ∉ (fieldValues reprNames (configOf site)).map Prod.fst) :
    (reconciled numbers reprNames e site).namedValues.lookup name =
      site.namedValues.lookup name := by
  calc
    (reconciled numbers reprNames e site).namedValues.lookup name =
        (site.namedValues.setAll (fieldValues reprNames (configOf site))).lookup name :=
      AList.lookup_insert_ne hname
    _ = site.namedValues.lookup name := Dict.lookup_setAll_of_not_mem hfield

theorem tended_reconciled (numbers : NumberText) (reprNames : List String → String)
    (e : Execution) (hsite : WellFormed site.consumers) :
    Tended reprNames site (reconciled numbers reprNames e site) where
  config := rfl
  consumers := lookup_syncBudgetDowngrades hsite _ _ _
  others _ hname hfield := lookup_reconciled_of_not_field hname hfield

theorem Interrupted.tended {target : Site} (h : Interrupted site target after)
    (htarget : Tended reprNames site target) : Tended reprNames site after where
  config := by
    rcases h.config with hconfig | hconfig
    · rw [configOf, configOf, hconfig]
    · rw [← htarget.config, configOf, configOf, hconfig]
  consumers id := by
    rcases h.consumers id with hid | hid
    · rw [hid]
      exact rel_refl _
    · rw [hid]
      exact htarget.consumers id
  others name hname hfield := by
    rcases h.namedValues name with hold | hnew
    · exact hold
    · rw [hnew, htarget.others name hname hfield]

theorem interrupted_left (hsite : WellFormed site.consumers) (numbers : NumberText)
    (reprNames : List String → String) (e : Execution) (fates : List Fate) :
    Interrupted site (reconciled numbers reprNames e site)
      (left numbers reprNames e site fates) := by
  obtain ⟨done, hdone, -, -, hleft⟩ := main_performs numbers reprNames e site fates
  rw [hleft]
  exact interrupted_of_done hsite hdone

def leftBy (numbers : NumberText) (reprNames : List String → String) (site : Site)
    (job : Execution × List Fate) : Site := left numbers reprNames job.1 site job.2

theorem tended_run (numbers : NumberText) (reprNames : List String → String)
    (jobs : List (Execution × List Fate)) (hsite : WellFormed site.consumers) :
    Tended reprNames site (run (leftBy numbers reprNames) site jobs) := by
  induction jobs generalizing site with
  | nil => exact Tended.refl site
  | cons job jobs ih =>
    have hjob : Tended reprNames site (leftBy numbers reprNames site job) :=
      (interrupted_left hsite numbers reprNames job.1 job.2).tended
        (tended_reconciled numbers reprNames job.1 hsite)
    exact hjob.trans (ih (hjob.wellFormed hsite))

end Sites

section Last
variable {numbers : NumberText} {reprNames : List String → String} {e : Execution}
  {site before : Site} {usage : Usage}

theorem consumers_reconciled (hquery : queryUsage e.query = .ok usage)
    (hsite : WellFormed site.consumers) (id : String) :
    (reconciled numbers reprNames e site).consumers.lookup id = (site.consumers.lookup id).map
      (evaluated usage (readPricing (reconciled numbers reprNames e site).pricing) e.nowIso) := by
  rw [reconciled, ConsumerConfig.syncBudgetDowngrades_eq]
  simp only [hquery]
  exact lookup_upserts hsite id

theorem mem_fieldValues {config : GlobalConfig} {nv : String × String} {value : ConfigValue}
    (hnv : nv ∈ FIELD_TO_NAMED_VALUE) (hvalue : config.lookup nv.1 = some value) :
    (nv.2, toNamedValueString reprNames nv.1 value) ∈ fieldValues reprNames config := by
  refine List.mem_flatMap.mpr ⟨nv, hnv, ?_⟩
  rw [fieldValue, hvalue]
  exact List.mem_singleton_self _

theorem lookup_reconciled_of_field {nv : String × String}
    (hnv : nv ∈ fieldValues reprNames (configOf site)) :
    (reconciled numbers reprNames e site).namedValues.lookup nv.1 = some nv.2 := by
  have hname : nv.1 ≠ CONSUMER_CONFIG_NAMED_VALUE := by
    have hall : ∀ name ∈ FIELD_TO_NAMED_VALUE.map Prod.snd,
      name ≠ CONSUMER_CONFIG_NAMED_VALUE := by decide
    exact hall nv.1 (name_of_fieldValue hnv)
  calc
    (reconciled numbers reprNames e site).namedValues.lookup nv.1 =
        (site.namedValues.setAll (fieldValues reprNames (configOf site))).lookup nv.1 :=
      AList.lookup_insert_ne hname
    _ = some nv.2 := Dict.lookup_setAll_of_mem (nodup_fieldValues _) hnv

theorem lookup_reconciled_bundle : (reconciled numbers reprNames e site).namedValues.lookup
    CONSUMER_CONFIG_NAMED_VALUE =
      some (bundleOf numbers (queryItems (reconciled numbers reprNames e site).consumers)) :=
  AList.lookup_insert _

theorem reconciled_of_tended (hsite : WellFormed site.consumers)
    (htended : Tended reprNames site before) (hquery : queryUsage e.query = .ok usage) :
    Reconciled numbers reprNames usage site (reconciled numbers reprNames e before) where
  config := congrArg some htended.config
  fields nv hnv value hvalue := by
    rw [← htended.config] at hvalue
    exact lookup_reconciled_of_field (mem_fieldValues hnv hvalue)
  bundle := lookup_reconciled_bundle
  others name hname hfield := by
    rw [← htended.config] at hfield
    rw [lookup_reconciled_of_not_field hname hfield]
    exact htended.others name hname (by rwa [← htended.config])
  consumers id := by
    rw [consumers_reconciled hquery (htended.wellFormed hsite)]
    have hrel := htended.consumers id
    generalize site.consumers.lookup id = x at hrel ⊢
    generalize before.consumers.lookup id = y at hrel ⊢
    cases hrel with
    | none => exact .none
    | some hdoc =>
      refine .some ⟨hdoc.trans (reassessed_evaluated _ _ _ _), fun consumer budgetUsd h => ?_⟩
      exact level_evaluated (hdoc.budgeted.mpr h)

theorem syncBudgetDowngrades_settled {c : Container} {pricing : Dict Rate} {nowIso : String}
    (hquery : queryUsage e.query = .ok usage)
    (h : ∀ doc ∈ queryItems c, evaluateDowngrade usage pricing nowIso doc = none) :
    ConsumerConfig.syncBudgetDowngrades e.query pricing nowIso c = c := by
  have hnone := List.filterMap_eq_nil_iff.mpr h
  rw [ConsumerConfig.syncBudgetDowngrades_eq]
  simp only [hquery]
  rw [evaluateDowngrades, hnone]
  rfl

theorem syncPricing_settled {stored : Option PricingDoc}
    (h : ∀ table, e.fetchModelPricing (pricingRegion e.region) = .ok table →
      stored = some { models := table }) :
    Pricing.syncPricing e.region e.fetchModelPricing stored = stored := by
  rw [Pricing.syncPricing]
  cases hfetched : e.fetchModelPricing (pricingRegion e.region) with
  | error fault => rfl
  | ok table => exact (h table hfetched).symm

theorem settled_consumers (hbefore : WellFormed before.consumers)
    (hquery : queryUsage e.query = .ok usage) {doc : Doc}
    (hdoc : doc ∈ queryItems (reconciled numbers reprNames e before).consumers)
    (nowIso : String) :
    evaluateDowngrade usage (readPricing (reconciled numbers reprNames e before).pricing) nowIso
      doc = none := by
  obtain ⟨id, hid⟩ := Dict.mem_values_iff.mp (List.mem_filter.mp hdoc).1
  rw [consumers_reconciled hquery hbefore, Option.map_eq_some_iff] at hid
  obtain ⟨old, -, rfl⟩ := hid
  exact evaluateDowngrade_evaluated nowIso

theorem reconciled_same (hbefore : WellFormed before.consumers)
    (hquery : queryUsage e.query = .ok usage) {again : Execution}
    (hagain : queryUsage again.query = .ok usage)
    (hprices : ∀ table, again.fetchModelPricing (pricingRegion again.region) = .ok table →
      (reconciled numbers reprNames e before).pricing = some { models := table }) :
    (reconciled numbers reprNames again (reconciled numbers reprNames e before)).Same
      (reconciled numbers reprNames e before) := by
  have hpricing := syncPricing_settled hprices
  have hconsumers : (reconciled numbers reprNames again
      (reconciled numbers reprNames e before)).consumers =
        (reconciled numbers reprNames e before).consumers := by
    rw [reconciled, hpricing]
    exact syncBudgetDowngrades_settled hagain fun doc hdoc =>
      settled_consumers hbefore hquery hdoc again.nowIso
  refine ⟨rfl, hpricing, fun id => by rw [hconsumers], fun name => ?_⟩
  by_cases hbundle : name = CONSUMER_CONFIG_NAMED_VALUE
  · rw [hbundle, lookup_reconciled_bundle, lookup_reconciled_bundle, hconsumers]
  · by_cases hfield : name ∈ (fieldValues reprNames (configOf before)).map Prod.fst
    · obtain ⟨nv, hnv, rfl⟩ := List.mem_map.mp hfield
      rw [lookup_reconciled_of_field hnv]
      exact lookup_reconciled_of_field hnv
    · exact lookup_reconciled_of_not_field hbundle hfield

theorem Interrupted.same {target after : Site} (h : Interrupted site target after)
    (htarget : target.Same site) : after.Same site := by
  obtain ⟨hconfig, hpricing, hconsumers, hnamed⟩ := htarget
  exact ⟨h.config.elim id (·.trans hconfig), h.pricing.elim id (·.trans hpricing),
    fun id => (h.consumers id).elim (·) (·.trans (hconsumers id)),
    fun name => (h.namedValues name).elim (·) (·.trans (hnamed name))⟩

theorem jobs_reconcile (hsite : WellFormed site.consumers)
    (jobs : List (Execution × List Fate)) (last : Execution)
    (hquery : queryUsage last.query = .ok usage) :
    let before := run (leftBy numbers reprNames) site jobs
    let after := left numbers reprNames last before []
    code numbers reprNames last before [] = some 0 ∧
      Reconciled numbers reprNames usage site after ∧
      ∀ again fates, queryUsage again.query = .ok usage →
        (∀ table, again.fetchModelPricing (pricingRegion again.region) = .ok table →
          after.pricing = some { models := table }) →
        (left numbers reprNames again after fates).Same after := by
  intro before after
  have htended : Tended reprNames site before := tended_run numbers reprNames jobs hsite
  have hbefore := htended.wellFormed hsite
  obtain ⟨hafter, hcode⟩ := left_clean numbers reprNames last before
  refine ⟨hcode, ?_, fun again fates hagain hprices => ?_⟩
  · rw [show after = _ from hafter]
    exact reconciled_of_tended hsite htended hquery
  · have hwell : WellFormed after.consumers := by
      rw [show after = _ from hafter]
      exact (tended_reconciled numbers reprNames last hbefore).wellFormed hbefore
    refine (interrupted_left hwell numbers reprNames again fates).same ?_
    rw [show after = _ from hafter] at hprices ⊢
    exact reconciled_same hbefore hquery hagain hprices

end Last

section Example

theorem jobs_reconcile_firstRun :
    let before := run (leftBy overBudget bracketed) firstRun
      [(evening, [.served, .served, .unanswered])]
    let after := left overBudget bracketed evening before []
    code overBudget bracketed evening before [] = some 0 ∧
      Reconciled overBudget bracketed (shapeUsage evening.query.rows) firstRun after ∧
      ∀ again fates, queryUsage again.query = .ok (shapeUsage evening.query.rows) →
        (∀ table, again.fetchModelPricing (pricingRegion again.region) = .ok table →
          after.pricing = some { models := table }) →
        (left overBudget bracketed again after fates).Same after :=
  jobs_reconcile twoConsumers_wellFormed _ evening rfl

end Example

end ConfigSync
