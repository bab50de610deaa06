import NocAgent.ConsumerConfig.Budget

namespace ConsumerConfig
open Pricing HalfEven

structure Assessed (usage : Usage) (pricing : Dict Rate) (doc doc' : Doc) : Prop where
  frame : ∃ activeDowngrade, doc' = { doc with activeDowngrade }
  level : ∀ consumer budgetUsd, doc.Budgeted consumer budgetUsd →
    doc'.level = levelFor (roundTo 4 (cost usage pricing consumer / budgetUsd))
  lowered : doc'.level = 0 → doc.level ≠ 0 → doc'.activeDowngrade = none
  skipped : (∀ consumer budgetUsd, ¬ doc.Budgeted consumer budgetUsd) → doc' = doc
  kept : doc'.level = doc.level → doc' = doc

section Evaluation
variable {usage : Usage} {pricing : Dict Rate} {nowIso : String} {doc doc' : Doc}

theorem level_of_evaluateDowngrade {consumer : String}
    (h : evaluateDowngrade usage pricing nowIso doc = some (consumer, doc')) :
    doc'.level ≠ doc.level := by
  obtain ⟨budgetUsd, hbudgeted, hlevel, -⟩ := evaluateDowngrade_eq_some_iff.mp h
  rwa [← evaluated_of_some h, level_evaluated hbudgeted]

theorem activeDowngrade_of_lowered {consumer : String}
    (h : evaluateDowngrade usage pricing nowIso doc = some (consumer, doc'))
    (hzero : doc'.level = 0) : doc'.activeDowngrade = none := by
  obtain ⟨budgetUsd, hbudgeted, -, hdoc'⟩ := evaluateDowngrade_eq_some_iff.mp h
  rw [← evaluated_of_some h, level_evaluated hbudgeted] at hzero
  rw [hdoc']
  exact if_neg (by rw [hzero]; exact Nat.lt_irrefl 0)

theorem assessed_evaluated (usage : Usage) (pricing : Dict Rate) (nowIso : String) (doc : Doc) :
    Assessed usage pricing doc (evaluated usage pricing nowIso doc) where
  frame := evaluated_eq usage pricing nowIso doc
  level _ _ hbudgeted := level_evaluated hbudgeted
  lowered hzero hdoc := by
    cases h : evaluateDowngrade usage pricing nowIso doc with
    | none =>
      rw [evaluated_of_none h] at hzero
      exact absurd hzero hdoc
    | some entry =>
      rw [evaluated_of_some h] at hzero ⊢
      exact activeDowngrade_of_lowered h hzero
  skipped := evaluated_of_not_budgeted
  kept hsame := by
    cases h : evaluateDowngrade usage pricing nowIso doc with
    | none => exact evaluated_of_none h
    | some entry =>
      rw [evaluated_of_some h] at hsame
      exact absurd hsame (level_of_evaluateDowngrade h)

theorem Doc.Budgeted.of_frame {consumer : String} {budgetUsd : ℚ}
    (hframe : ∃ activeDowngrade, doc' = { doc with activeDowngrade })
    (h : doc'.Budgeted consumer budgetUsd) : doc.Budgeted consumer budgetUsd := by
  obtain ⟨activeDowngrade, rfl⟩ := hframe
  exact ⟨h.consumer, h.budget, h.nonzero, h.ladder⟩

theorem evaluateDowngrade_evaluated (nowIso' : String) :
    evaluateDowngrade usage pricing nowIso' (evaluated usage pricing nowIso doc) = none := by
  by_cases hbudgeted : ∃ consumer budgetUsd,
      (evaluated usage pricing nowIso doc).Budgeted consumer budgetUsd
  · obtain ⟨consumer, budgetUsd, hbudgeted⟩ := hbudgeted
    have hdoc := hbudgeted.of_frame (evaluated_eq usage pricing nowIso doc)
    rw [evaluateDowngrade_of_budgeted hbudgeted, level_evaluated hdoc, if_pos rfl]
  · exact evaluateDowngrade_of_not_budgeted fun consumer budgetUsd h =>
      hbudgeted ⟨consumer, budgetUsd, h⟩

theorem evaluateDowngrade_iff_level {consumer : String} (hconsumer : given doc.consumer =
    some consumer) : evaluateDowngrade usage pricing nowIso doc = some (consumer, doc') ↔
      evaluated usage pricing nowIso doc = doc' ∧ doc'.level ≠ doc.level := by
  constructor
  · exact fun h => ⟨evaluated_of_some h, level_of_evaluateDowngrade h⟩
  · rintro ⟨rfl, hlevel⟩
    cases h : evaluateDowngrade usage pricing nowIso doc with
    | none =>
      rw [evaluated_of_none h] at hlevel
      exact absurd rfl hlevel
    | some entry =>
      have hsame := given_of_evaluateDowngrade h
      rw [hconsumer] at hsame
      rw [evaluated_of_some h, Option.some.inj hsame]

end Evaluation

section Batch
variable {docs : List Doc} {c : Container}

theorem evaluation_settles (hdocs : Distinct docs) (hstored : StoredIn docs c) (usage : Usage)
    (pricing : Dict Rate) (nowIso : String) :
    let returned := evaluateDowngrades usage pricing nowIso docs
    let after := returned.values.foldl upsertItem c
    (∀ doc ∈ docs, ∃ doc', after.lookup doc.id = some doc' ∧ Assessed usage pricing doc doc') ∧
      (∀ id, (∀ doc ∈ docs, doc.id ≠ id) → after.lookup id = c.lookup id) ∧
      (∀ consumer doc', returned.lookup consumer = some doc' ↔
        ∃ doc ∈ docs, given doc.consumer = some consumer ∧ after.lookup doc.id = some doc' ∧
          doc'.level ≠ doc.level) ∧
      ∀ nowIso' docs', (∀ doc' ∈ docs', ∃ doc ∈ docs, after.lookup doc.id = some doc') →
        evaluateDowngrades usage pricing nowIso' docs' = ∅ := by
  intro returned after
  have hafter : ∀ doc ∈ docs, after.lookup doc.id = some (evaluated usage pricing nowIso doc) :=
    fun doc hdoc => lookup_upserts_of_mem hdocs hstored hdoc
  refine ⟨fun doc hdoc => ⟨_, hafter doc hdoc, assessed_evaluated usage pricing nowIso doc⟩,
    fun id hid => lookup_upserts_of_not_mem hdocs hid, fun consumer doc' => ?_,
    fun nowIso' docs' hread => ?_⟩
  · rw [lookup_evaluateDowngrades hdocs]
    refine exists_congr fun doc => and_congr_right fun hdoc => ?_
    rw [hafter doc hdoc, Option.some.injEq]
    constructor
    · intro h
      have hconsumer := given_of_evaluateDowngrade h
      exact ⟨hconsumer, (evaluateDowngrade_iff_level hconsumer).mp h⟩
    · rintro ⟨hconsumer, h⟩
      exact (evaluateDowngrade_iff_level hconsumer).mpr h
  · have hnone : docs'.filterMap (evaluateDowngrade usage pricing nowIso') = [] := by
      refine List.filterMap_eq_nil_iff.mpr fun doc' hdoc' => ?_
      obtain ⟨doc, hdoc, hlookup⟩ := hread doc' hdoc'
      rw [hafter doc hdoc, Option.some.injEq] at hlookup
      rw [← hlookup]
      exact evaluateDowngrade_evaluated nowIso'
    rw [evaluateDowngrades, hnone]
    rfl

end Batch

section Example

def budgetedDoc : Doc :=
  mergedDoc none "team-a" { dailyBudgetUsd := some 1, downgradeLadder := some ["gpt-5.4-mini"] }

def plainDoc : Doc := mergedDoc none "team-b" { tier := some "small" }

def twoConsumers : Container := upsertItem (upsertItem ∅ budgetedDoc) plainDoc

theorem twoConsumers_wellFormed : WellFormed twoConsumers :=
  (WellFormed.empty.upsertItem (mergedDoc_filedUnder "team-a" _ none)).upsertItem
    (mergedDoc_filedUnder "team-b" _ none)

def spentUsage : Usage := AList.singleton "team-a" (AList.singleton "gpt-5.4" ⟨400000, 0⟩)

def spentPrices : Dict Rate := AList.singleton "gpt-5.4" ⟨25 / 10000, 1 / 100⟩

theorem evaluation_settles_two :
    let returned := evaluateDowngrades spentUsage spentPrices "now" (queryItems twoConsumers)
    let after := returned.values.foldl upsertItem twoConsumers
    (∀ doc ∈ queryItems twoConsumers, ∃ doc', after.lookup doc.id = some doc' ∧
        Assessed spentUsage spentPrices doc doc') ∧
      (∀ id, (∀ doc ∈ queryItems twoConsumers, doc.id ≠ id) →
        after.lookup id = twoConsumers.lookup id) ∧
      (∀ consumer doc', returned.lookup consumer = some doc' ↔
        ∃ doc ∈ queryItems twoConsumers, given doc.consumer = some consumer ∧
          after.lookup doc.id = some doc' ∧ doc'.level ≠ doc.level) ∧
      ∀ nowIso' docs',
        (∀ doc' ∈ docs', ∃ doc ∈ queryItems twoConsumers, after.lookup doc.id = some doc') →
        evaluateDowngrades spentUsage spentPrices nowIso' docs' = ∅ :=
  evaluation_settles (distinct_queryItems twoConsumers_wellFormed)
    (storedIn_queryItems twoConsumers_wellFormed) spentUsage spentPrices "now"

example : (evaluateDowngrades spentUsage spentPrices "now" (queryItems twoConsumers)).keys =
    ["team-a"] := by decide +kernel

end Example

end ConsumerConfig
