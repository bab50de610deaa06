import NocAgent.ConsumerConfig.Store
import NocAgent.Pricing.ModelsPricing

namespace ConsumerConfig
open Pricing HalfEven

structure Tokens where
  prompt : ℤ
  completion : ℤ
deriving DecidableEq

structure Row where
  consumer : Option String
  model : Option String
  tokKind : Option String
  tokens : Option ℚ
deriving DecidableEq

abbrev Usage := Dict (Dict Tokens)

def Tokens.count (slot : Tokens) (tokKind : String) (tokens : ℤ) : Tokens :=
  if tokKind = "prompt" then { slot with prompt := slot.prompt + tokens }
  else { slot with completion := slot.completion + tokens }

def shapeRow (out : Usage) (d : Row) : Usage :=
  match given d.consumer, given d.model, d.tokKind with
  | some consumer, some model, some tokKind =>
    if tokKind ∈ ["prompt", "completion"] then
      let models := (out.lookup consumer).getD ∅
      let slot := (models.lookup model).getD ⟨0, 0⟩
      let tokens := d.tokens.getD 0
      out.insert consumer
        (models.insert model (slot.count tokKind (tokens.num.tdiv tokens.den)))
    else out
  | _, _, _ => out

def shapeUsage (rows : List Row) : Usage := rows.foldl shapeRow ∅

-- How the daily usage query ends; a partial result may come without any data.
inductive UsageQuery where
  | noWorkspace
  | raised (text : String)
  | incomplete (partialData : Option (List (List Row)))
  | success (tables : List (List Row))

def UsageQuery.rows : UsageQuery → List Row
  | .noWorkspace | .raised _ => []
  | .incomplete partialData => ((partialData.getD []).head?).getD []
  | .success tables => tables.head?.getD []

def queryUsage (query : UsageQuery) : Except String Usage :=
  match query with
  | .noWorkspace => pure ∅
  | .raised text => throw text
  | .incomplete _ | .success _ => pure (shapeUsage query.rows)

def levelFor (pct : ℚ) : ℕ := if 1 ≤ pct then 2 else if 8 / 10 ≤ pct then 1 else 0

def costFor (modelUsage : Dict Tokens) (pricing : Dict Rate) : ℚ :=
  roundTo 6 (modelUsage.items.foldl (fun total entry =>
    match pricing.lookup entry.1 with
    | none => total
    | some rate =>
      total + entry.2.prompt / 1000 * rate.prompt + entry.2.completion / 1000 * rate.completion) 0)

def Doc.level (doc : Doc) : ℕ := (doc.activeDowngrade.map (·.level)).getD 0

-- What the program computes of a cost and of its share of a budget, however it rounds on the way.
structure Arithmetic where
  costFor : Dict Tokens → Dict Rate → ℚ
  share : ℚ → ℚ → ℚ

def Arithmetic.exact : Arithmetic where
  costFor := ConsumerConfig.costFor
  share cost budgetUsd := roundTo 4 (cost / budgetUsd)

section Evaluate
variable (usage : Usage) (pricing : Dict Rate) (nowIso : String)

namespace Arithmetic
variable (a : Arithmetic)

def cost (consumer : String) : ℚ := a.costFor ((usage.lookup consumer).getD ∅) pricing

def evaluateDowngrade (doc : Doc) : Option (String × Doc) :=
  match given doc.consumer, doc.dailyBudgetUsd, doc.downgradeLadder with
  | some consumer, some budgetUsd, some ladder =>
    if budgetUsd = 0 ∨ ladder = [] then none
    else
      let cost := a.cost usage pricing consumer
      let pct := a.share cost budgetUsd
      let newLevel := levelFor pct
      if newLevel = doc.level then none
      else
        let activeDowngrade :=
          if 0 < newLevel then some ⟨newLevel, cost, pct, nowIso⟩ else none
        some (consumer, { doc with activeDowngrade := activeDowngrade })
  | _, _, _ => none

def evaluateDowngrades (docs : List Doc) : Dict Doc :=
  Dict.setAll ∅ (docs.filterMap (a.evaluateDowngrade usage pricing nowIso))

end Arithmetic

def cost (consumer : String) : ℚ := costFor ((usage.lookup consumer).getD ∅) pricing

def evaluateDowngrade (doc : Doc) : Option (String × Doc) :=
  Arithmetic.exact.evaluateDowngrade usage pricing nowIso doc

def evaluateDowngrades (docs : List Doc) : Dict Doc :=
  Dict.setAll ∅ (docs.filterMap (evaluateDowngrade usage pricing nowIso))

def evaluated (doc : Doc) : Doc :=
  ((evaluateDowngrade usage pricing nowIso doc).map Prod.snd).getD doc

end Evaluate

def queryItems (c : Container) : List Doc := c.values.filter (·.docType = "consumer_config")

def Arithmetic.syncBudgetDowngrades (a : Arithmetic) (query : UsageQuery) (pricing : Dict Rate)
    (nowIso : String) (c : Container) : Container :=
  match queryUsage query with
  | .error _ => c
  | .ok usage =>
    (a.evaluateDowngrades usage pricing nowIso (queryItems c)).values.foldl upsertItem c

def syncBudgetDowngrades (query : UsageQuery) (pricing : Dict Rate) (nowIso : String)
    (c : Container) : Container :=
  Arithmetic.exact.syncBudgetDowngrades query pricing nowIso c

theorem syncBudgetDowngrades_eq (query : UsageQuery) (pricing : Dict Rate) (nowIso : String)
    (c : Container) : syncBudgetDowngrades query pricing nowIso c =
      match queryUsage query with
      | .error _ => c
      | .ok usage =>
        (evaluateDowngrades usage pricing nowIso (queryItems c)).values.foldl upsertItem c := rfl

section Evaluated
variable {usage : Usage} {pricing : Dict Rate} {nowIso : String} {doc doc' : Doc}

structure Doc.Budgeted (doc : Doc) (consumer : String) (budgetUsd : ℚ) : Prop where
  consumer : given doc.consumer = some consumer
  budget : doc.dailyBudgetUsd = some budgetUsd
  nonzero : budgetUsd ≠ 0
  ladder : ∃ ladder, doc.downgradeLadder = some ladder ∧ ladder ≠ []

namespace Arithmetic
variable {a : Arithmetic}

theorem evaluateDowngrade_of_budgeted {consumer : String} {budgetUsd : ℚ}
    (h : doc.Budgeted consumer budgetUsd) : a.evaluateDowngrade usage pricing nowIso doc =
      if levelFor (a.share (a.cost usage pricing consumer) budgetUsd) = doc.level then none
      else some (consumer,
        { doc with
          activeDowngrade :=
            if 0 < levelFor (a.share (a.cost usage pricing consumer) budgetUsd) then
              some ⟨levelFor (a.share (a.cost usage pricing consumer) budgetUsd),
                a.cost usage pricing consumer, a.share (a.cost usage pricing consumer) budgetUsd,
                nowIso⟩
            else none }) := by
  obtain ⟨ladder, hladder, hnil⟩ := h.ladder
  have hgo : ¬ (budgetUsd = 0 ∨ ladder = []) := not_or.mpr ⟨h.nonzero, hnil⟩
  rw [evaluateDowngrade, h.consumer, h.budget, hladder]
  exact if_neg hgo

theorem evaluateDowngrade_of_not_budgeted
    (h : ∀ consumer budgetUsd, ¬ doc.Budgeted consumer budgetUsd) :
    a.evaluateDowngrade usage pricing nowIso doc = none := by
  rw [evaluateDowngrade]
  split
  · rename_i consumer budgetUsd ladder hconsumer hbudget hladder
    refine if_pos ?_
    by_contra hgo
    rw [not_or] at hgo
    exact h consumer budgetUsd ⟨hconsumer, hbudget, hgo.1, ladder, hladder, hgo.2⟩
  · rfl

theorem level_evaluated {consumer : String} {budgetUsd : ℚ}
    (h : doc.Budgeted consumer budgetUsd) :
    (((a.evaluateDowngrade usage pricing nowIso doc).map Prod.snd).getD doc).level =
      levelFor (a.share (a.cost usage pricing consumer) budgetUsd) := by
  rw [evaluateDowngrade_of_budgeted h]
  split_ifs with hsame hpositive
  · exact hsame.symm
  · rfl
  · rw [Nat.eq_zero_of_not_pos hpositive]
    rfl

end Arithmetic

def activeAt (usage : Usage) (pricing : Dict Rate) (nowIso consumer : String) (budgetUsd : ℚ) :
    Option ActiveDowngrade :=
  let pct := roundTo 4 (cost usage pricing consumer / budgetUsd)
  if 0 < levelFor pct then some ⟨levelFor pct, cost usage pricing consumer, pct, nowIso⟩ else none

theorem evaluateDowngrade_of_budgeted {consumer : String} {budgetUsd : ℚ}
    (h : doc.Budgeted consumer budgetUsd) : evaluateDowngrade usage pricing nowIso doc =
      if levelFor (roundTo 4 (cost usage pricing consumer / budgetUsd)) = doc.level then none
      else some (consumer,
        { doc with activeDowngrade := activeAt usage pricing nowIso consumer budgetUsd }) :=
  Arithmetic.evaluateDowngrade_of_budgeted h

theorem evaluateDowngrade_of_not_budgeted
    (h : ∀ consumer budgetUsd, ¬ doc.Budgeted consumer budgetUsd) :
    evaluateDowngrade usage pricing nowIso doc = none :=
  Arithmetic.evaluateDowngrade_of_not_budgeted h

theorem evaluateDowngrade_eq_some_iff {consumer : String} :
    evaluateDowngrade usage pricing nowIso doc = some (consumer, doc') ↔
      ∃ budgetUsd, doc.Budgeted consumer budgetUsd ∧
        levelFor (roundTo 4 (cost usage pricing consumer / budgetUsd)) ≠ doc.level ∧
        doc' =
          { doc with activeDowngrade := activeAt usage pricing nowIso consumer budgetUsd } := by
  constructor
  · intro h
    by_cases hbudgeted : ∃ named budgetUsd, doc.Budgeted named budgetUsd
    · obtain ⟨named, budgetUsd, hbudgeted⟩ := hbudgeted
      rw [evaluateDowngrade_of_budgeted hbudgeted] at h
      split_ifs at h with hsame
      cases h
      exact ⟨budgetUsd, hbudgeted, hsame, rfl⟩
    · rw [evaluateDowngrade_of_not_budgeted fun named budgetUsd hb =>
        hbudgeted ⟨named, budgetUsd, hb⟩] at h
      cases h
  · rintro ⟨budgetUsd, hbudgeted, hlevel, rfl⟩
    rw [evaluateDowngrade_of_budgeted hbudgeted, if_neg hlevel]

theorem evaluated_of_some {consumer : String}
    (h : evaluateDowngrade usage pricing nowIso doc = some (consumer, doc')) :
    evaluated usage pricing nowIso doc = doc' := by
  rw [evaluated, h]
  rfl

theorem evaluated_of_none (h : evaluateDowngrade usage pricing nowIso doc = none) :
    evaluated usage pricing nowIso doc = doc := by
  rw [evaluated, h]
  rfl

theorem evaluated_eq (usage : Usage) (pricing : Dict Rate) (nowIso : String) (doc : Doc) :
    ∃ activeDowngrade, evaluated usage pricing nowIso doc = { doc with activeDowngrade } := by
  cases h : evaluateDowngrade usage pricing nowIso doc with
  | none => exact ⟨doc.activeDowngrade, evaluated_of_none h⟩
  | some entry =>
    obtain ⟨budgetUsd, -, -, hdoc⟩ := evaluateDowngrade_eq_some_iff.mp h
    exact ⟨_, (evaluated_of_some h).trans hdoc⟩

theorem level_evaluated {consumer : String} {budgetUsd : ℚ} (h : doc.Budgeted consumer budgetUsd) :
    (evaluated usage pricing nowIso doc).level =
      levelFor (roundTo 4 (cost usage pricing consumer / budgetUsd)) :=
  Arithmetic.level_evaluated h

theorem evaluated_of_not_budgeted (h : ∀ consumer budgetUsd, ¬ doc.Budgeted consumer budgetUsd) :
    evaluated usage pricing nowIso doc = doc :=
  evaluated_of_none (evaluateDowngrade_of_not_budgeted h)

theorem Doc.FiledUnder.evaluated {consumer : String} (h : doc.FiledUnder consumer) :
    (ConsumerConfig.evaluated usage pricing nowIso doc).FiledUnder consumer := by
  obtain ⟨activeDowngrade, hdoc⟩ := evaluated_eq usage pricing nowIso doc
  rw [hdoc]
  exact ⟨h.id, h.docType, h.consumer⟩

theorem Doc.FiledUnder.named {named consumer : String} (h : doc.FiledUnder named)
    (hgiven : given doc.consumer = some consumer) : named = consumer := by
  rw [h.consumer] at hgiven
  exact Option.some.inj (Option.filter_eq_some_iff.mp hgiven).1

end Evaluated

def Distinct (docs : List Doc) : Prop :=
  docs.Pairwise fun doc doc' =>
    ∀ consumer, given doc.consumer = some consumer → given doc'.consumer ≠ some consumer

def StoredIn (docs : List Doc) (c : Container) : Prop := ∀ doc ∈ docs, c.lookup doc.id = some doc

-- An evaluation names the consumer of the document it replaces, and keeps the document's id.
structure Replaces (evaluate : Doc → Option (String × Doc)) : Prop where
  given : ∀ {doc consumer doc'}, evaluate doc = some (consumer, doc') →
    given doc.consumer = some consumer
  id : ∀ {doc consumer doc'}, evaluate doc = some (consumer, doc') → doc'.id = doc.id

namespace Replaces
variable {evaluate : Doc → Option (String × Doc)} {docs : List Doc} {c : Container}
  {doc doc' : Doc} {consumer : String}

theorem nodup_changed (he : Replaces evaluate) (hdocs : Distinct docs) :
    ((docs.filterMap evaluate).map Prod.fst).Nodup := by
  refine List.pairwise_map.mpr (List.pairwise_filterMap.mpr (hdocs.imp ?_))
  rintro doc doc' hne ⟨consumer, _⟩ hentry ⟨_, _⟩ hentry' rfl
  exact hne consumer (he.given hentry) (he.given hentry')

theorem lookup_changed (he : Replaces evaluate) (hdocs : Distinct docs) :
    (Dict.setAll ∅ (docs.filterMap evaluate)).lookup consumer = some doc' ↔
      ∃ doc ∈ docs, evaluate doc = some (consumer, doc') := by
  rw [Dict.lookup_ofItems (he.nodup_changed hdocs), List.mem_filterMap]

theorem mem_upserts (he : Replaces evaluate) (hdocs : Distinct docs) {id : String} :
    (id, doc') ∈ (Dict.setAll ∅ (docs.filterMap evaluate)).values.map (fun doc => (doc.id, doc)) ↔
      ∃ doc ∈ docs, doc.id = id ∧ (evaluate doc).map Prod.snd = some doc' := by
  simp only [List.mem_map, Prod.mk.injEq, Dict.mem_values_iff, he.lookup_changed hdocs,
    Option.map_eq_some_iff]
  constructor
  · rintro ⟨doc'', ⟨consumer, doc, hdoc, hentry⟩, rfl, rfl⟩
    exact ⟨doc, hdoc, (he.id hentry).symm, _, hentry, rfl⟩
  · rintro ⟨doc, hdoc, rfl, ⟨consumer, doc'⟩, hentry, rfl⟩
    exact ⟨doc', ⟨consumer, doc, hdoc, hentry⟩, he.id hentry, rfl⟩

end Replaces

section Batch
variable {evaluate : Doc → Option (String × Doc)} {docs : List Doc} {c : Container}
  {usage : Usage} {pricing : Dict Rate} {nowIso : String} {doc doc' : Doc} {consumer : String}

theorem StoredIn.eq_of_id (hstored : StoredIn docs c) (hdoc : doc ∈ docs) (hdoc' : doc' ∈ docs)
    (hid : doc.id = doc'.id) : doc = doc' := by
  have h := hstored doc hdoc
  rw [hid, hstored doc' hdoc'] at h
  exact (Option.some.inj h).symm

theorem upserts_eq_setAll (c : Container) (docs : List Doc) :
    docs.foldl upsertItem c = Dict.setAll c (docs.map fun doc => (doc.id, doc)) := by
  rw [Dict.setAll, List.foldl_map]
  rfl

namespace Replaces

theorem nodup_upserts (he : Replaces evaluate) (hdocs : Distinct docs)
    (hstored : StoredIn docs c) :
    (((Dict.setAll ∅ (docs.filterMap evaluate)).values.map
      fun doc => (doc.id, doc)).map Prod.fst).Nodup := by
  rw [List.map_map]
  refine Dict.nodup_values fun consumer consumer' v v' hv hv' hid => ?_
  obtain ⟨doc, hdoc, hentry⟩ := (he.lookup_changed hdocs).mp hv
  obtain ⟨doc', hdoc', hentry'⟩ := (he.lookup_changed hdocs).mp hv'
  have hids : doc.id = doc'.id := by
    rw [← he.id hentry, ← he.id hentry']
    exact hid
  have hsame := he.given hentry
  rw [hstored.eq_of_id hdoc hdoc' hids, he.given hentry'] at hsame
  exact (Option.some.inj hsame).symm

theorem lookup_upserts_of_mem (he : Replaces evaluate) (hdocs : Distinct docs)
    (hstored : StoredIn docs c) (hdoc : doc ∈ docs) :
    ((Dict.setAll ∅ (docs.filterMap evaluate)).values.foldl upsertItem c).lookup doc.id =
      some (((evaluate doc).map Prod.snd).getD doc) := by
  rw [upserts_eq_setAll, Dict.lookup_setAll (he.nodup_upserts hdocs hstored)
    (w := (evaluate doc).map Prod.snd) fun v => ?_, hstored doc hdoc]
  · cases evaluate doc <;> rfl
  rw [he.mem_upserts hdocs]
  constructor
  · rintro ⟨other, hother, hid, hv⟩
    rwa [← hstored.eq_of_id hother hdoc hid]
  · exact fun hv => ⟨doc, hdoc, rfl, hv⟩

theorem lookup_upserts_of_not_mem (he : Replaces evaluate) (hdocs : Distinct docs) {id : String}
    (hid : ∀ doc ∈ docs, doc.id ≠ id) :
    ((Dict.setAll ∅ (docs.filterMap evaluate)).values.foldl upsertItem c).lookup id =
      c.lookup id := by
  rw [upserts_eq_setAll]
  refine Dict.lookup_setAll_of_not_mem fun hkey => ?_
  obtain ⟨⟨_, doc'⟩, hmem, rfl⟩ := List.mem_map.mp hkey
  obtain ⟨doc, hdoc, hsame, -⟩ := (he.mem_upserts hdocs).mp hmem
  exact hid doc hdoc hsame

end Replaces

theorem Arithmetic.replaces (a : Arithmetic) (usage : Usage) (pricing : Dict Rate)
    (nowIso : String) : Replaces (a.evaluateDowngrade usage pricing nowIso) := by
  have hreplaced : ∀ {doc consumer doc'},
      a.evaluateDowngrade usage pricing nowIso doc = some (consumer, doc') →
        ∃ budgetUsd, doc.Budgeted consumer budgetUsd ∧ doc'.id = doc.id := by
    intro doc consumer doc' h
    by_cases hbudgeted : ∃ named budgetUsd, doc.Budgeted named budgetUsd
    · obtain ⟨named, budgetUsd, hbudgeted⟩ := hbudgeted
      rw [evaluateDowngrade_of_budgeted hbudgeted] at h
      split_ifs at h
      all_goals
        cases h
        exact ⟨budgetUsd, hbudgeted, rfl⟩
    · rw [evaluateDowngrade_of_not_budgeted fun named budgetUsd hb =>
        hbudgeted ⟨named, budgetUsd, hb⟩] at h
      cases h
  refine ⟨fun h => ?_, fun h => ?_⟩
  · obtain ⟨budgetUsd, hbudgeted, -⟩ := hreplaced h
    exact hbudgeted.consumer
  · obtain ⟨budgetUsd, -, hid⟩ := hreplaced h
    exact hid

theorem replaces_evaluateDowngrade : Replaces (evaluateDowngrade usage pricing nowIso) :=
  Arithmetic.exact.replaces usage pricing nowIso

theorem given_of_evaluateDowngrade
    (h : evaluateDowngrade usage pricing nowIso doc = some (consumer, doc')) :
    given doc.consumer = some consumer :=
  replaces_evaluateDowngrade.given h

theorem lookup_evaluateDowngrades (hdocs : Distinct docs) :
    (evaluateDowngrades usage pricing nowIso docs).lookup consumer = some doc' ↔
      ∃ doc ∈ docs, evaluateDowngrade usage pricing nowIso doc = some (consumer, doc') :=
  replaces_evaluateDowngrade.lookup_changed hdocs

theorem nodup_upserts (hdocs : Distinct docs) (hstored : StoredIn docs c) :
    (((evaluateDowngrades usage pricing nowIso docs).values.map
      fun doc => (doc.id, doc)).map Prod.fst).Nodup :=
  replaces_evaluateDowngrade.nodup_upserts hdocs hstored

theorem lookup_upserts_of_mem (hdocs : Distinct docs) (hstored : StoredIn docs c)
    (hdoc : doc ∈ docs) :
    ((evaluateDowngrades usage pricing nowIso docs).values.foldl upsertItem c).lookup doc.id =
      some (evaluated usage pricing nowIso doc) :=
  replaces_evaluateDowngrade.lookup_upserts_of_mem hdocs hstored hdoc

theorem lookup_upserts_of_not_mem (hdocs : Distinct docs) {id : String}
    (hid : ∀ doc ∈ docs, doc.id ≠ id) :
    ((evaluateDowngrades usage pricing nowIso docs).values.foldl upsertItem c).lookup id =
      c.lookup id :=
  replaces_evaluateDowngrade.lookup_upserts_of_not_mem hdocs hid

end Batch

section Container
variable {c : Container} {usage : Usage} {pricing : Dict Rate} {nowIso : String}

theorem mem_queryItems (hc : WellFormed c) {doc : Doc} :
    doc ∈ queryItems c ↔
      ∃ consumer, c.lookup (docId consumer) = some doc ∧ doc.FiledUnder consumer := by
  rw [queryItems, List.mem_filter, Dict.mem_values_iff]
  constructor
  · rintro ⟨⟨id, hid⟩, -⟩
    obtain ⟨consumer, rfl, hfiled⟩ := hc id doc hid
    exact ⟨consumer, hid, hfiled⟩
  · rintro ⟨consumer, hdoc, hfiled⟩
    exact ⟨⟨_, hdoc⟩, by rw [hfiled.docType]; rfl⟩

theorem storedIn_queryItems (hc : WellFormed c) : StoredIn (queryItems c) c := by
  intro doc hdoc
  obtain ⟨consumer, hid, hfiled⟩ := (mem_queryItems hc).mp hdoc
  rwa [hfiled.id]

theorem distinct_queryItems (hc : WellFormed c) : Distinct (queryItems c) := by
  have hids : (c.values.map (·.id)).Nodup := by
    refine Dict.nodup_values fun id id' doc doc' hid hid' hsame => ?_
    obtain ⟨consumer, rfl, hfiled⟩ := hc id doc hid
    obtain ⟨consumer', rfl, hfiled'⟩ := hc id' doc' hid'
    rwa [hfiled.id, hfiled'.id] at hsame
  have hdocs : (queryItems c).Pairwise (·.id ≠ ·.id) := (List.pairwise_map.mp hids).filter _
  refine hdocs.imp_of_mem fun {doc doc'} hdoc hdoc' hne consumer hgiven hgiven' => hne ?_
  obtain ⟨named, -, hfiled⟩ := (mem_queryItems hc).mp hdoc
  obtain ⟨named', -, hfiled'⟩ := (mem_queryItems hc).mp hdoc'
  rw [hfiled.id, hfiled'.id, hfiled.named hgiven, hfiled'.named hgiven']

theorem Replaces.lookup_upserts {evaluate : Doc → Option (String × Doc)}
    (he : Replaces evaluate) (hc : WellFormed c) (id : String) :
    ((Dict.setAll ∅ ((queryItems c).filterMap evaluate)).values.foldl upsertItem c).lookup id =
      (c.lookup id).map fun doc => ((evaluate doc).map Prod.snd).getD doc := by
  have hdocs := distinct_queryItems hc
  have hstored := storedIn_queryItems hc
  cases hid : c.lookup id with
  | none =>
    rw [he.lookup_upserts_of_not_mem hdocs, hid]
    · rfl
    · rintro doc hdoc rfl
      rw [hstored doc hdoc] at hid
      cases hid
  | some doc =>
    obtain ⟨consumer, rfl, hfiled⟩ := hc id doc hid
    have hdoc : doc ∈ queryItems c := (mem_queryItems hc).mpr ⟨consumer, hid, hfiled⟩
    rw [← hfiled.id, he.lookup_upserts_of_mem hdocs hstored hdoc]
    rfl

theorem lookup_upserts (hc : WellFormed c) (id : String) :
    ((evaluateDowngrades usage pricing nowIso (queryItems c)).values.foldl upsertItem c).lookup id =
      (c.lookup id).map (evaluated usage pricing nowIso) :=
  replaces_evaluateDowngrade.lookup_upserts hc id

end Container

end ConsumerConfig
