import NocAgent.ConsumerConfig.Budget

namespace ConsumerConfig
open Pricing HalfEven

def consumerSafe (consumer : String) : Bool :=
  let name := beforeEnd consumer
  1 ≤ name.length && name.length ≤ 128 &&
    name.all fun c => c.isAlphanum || c ∈ [' ', '_', '.', ':', '-']

def Tokens.assign (slot : Tokens) (tokKind : String) (tokens : ℤ) : Tokens :=
  if tokKind = "prompt" then { slot with prompt := tokens }
  else { slot with completion := tokens }

def modelRow (write : Tokens → String → ℤ → Tokens) (out : Dict Tokens) (r : Row) : Dict Tokens :=
  match given r.model, r.tokKind with
  | some model, some tokKind =>
    if tokKind ∈ ["prompt", "completion"] then
      let slot := (out.lookup model).getD ⟨0, 0⟩
      let tokens := r.tokens.getD 0
      out.insert model (write slot tokKind (tokens.num.tdiv tokens.den))
    else out
  | _, _ => out

-- The query names one consumer; how it ends does not matter for a name that is not sent.
def consumerUsage (consumer : String) (query : Except String (List Row)) :
    Except String (Dict Tokens) :=
  if consumerSafe consumer then query.map fun rows => rows.foldl (modelRow Tokens.assign) ∅
  else pure ∅

def costUsd (modelUsage : Dict Tokens) (pricing : Dict Rate) : ℚ :=
  roundTo 6 (modelUsage.items.foldl (fun total entry =>
    match pricing.lookup entry.1 with
    | none => total
    | some rate =>
      total + entry.2.prompt / 1000 * rate.prompt + entry.2.completion / 1000 * rate.completion) 0)

structure Spend where
  usageUsd : Option ℚ
  pct : Option ℚ
deriving DecidableEq

def liveSpend (consumer : String) (doc : Fields) (query : Except String (List Row))
    (modelPrices : Dict Rate) : Spend :=
  match consumerUsage consumer query with
  | .ok modelUsage =>
    let usageUsd := costUsd modelUsage modelPrices
    { usageUsd := some usageUsd
      pct := (doc.dailyBudgetUsd.filter (· ≠ 0)).map fun budget => roundTo 4 (usageUsd / budget) }
  | .error _ => ⟨doc.activeDowngrade.map (·.usageUsd), doc.activeDowngrade.map (·.pct)⟩

def consumerRows (consumer : String) (rows : List Row) : List Row :=
  rows.filter (·.consumer = some consumer)

def Row.key (r : Row) : Option String × Option String × Option String :=
  (r.consumer, r.model, r.tokKind)

section Rows
variable {consumer : String} {rows : List Row} {out : Dict Tokens} {r r' : Row}

theorem nonempty_of_safe (h : consumerSafe consumer = true) : consumer ≠ "" := by
  rintro rfl
  revert h
  decide

theorem given_of_ne {text : String} (h : text ≠ "") : given (some text) = some text :=
  Option.filter_some_pos (by simpa using h)

theorem some_of_given {field : Option String} {text : String} (h : given field = some text) :
    field = some text := (Option.filter_eq_some_iff.mp h).1

theorem usage_shapeRow (hname : consumer ≠ "") (usage : Usage) (d : Row) :
    ((shapeRow usage d).lookup consumer).getD ∅ =
      if d.consumer = some consumer then
        modelRow Tokens.count ((usage.lookup consumer).getD ∅) d
      else (usage.lookup consumer).getD ∅ := by
  rw [shapeRow, modelRow]
  split_ifs with hd
  · rw [hd, given_of_ne hname]
    cases given d.model with
    | none => rfl
    | some model =>
      cases d.tokKind with
      | none => rfl
      | some tokKind =>
        dsimp only
        split_ifs
        · rw [AList.lookup_insert, Option.getD_some]
        · rfl
  · cases hgiven : given d.consumer with
    | none => rfl
    | some named =>
      have hne : consumer ≠ named := by
        rintro rfl
        exact hd (some_of_given hgiven)
      cases given d.model with
      | none => rfl
      | some model =>
        cases d.tokKind with
        | none => rfl
        | some tokKind =>
          dsimp only
          split_ifs
          · rw [AList.lookup_insert_ne hne]
          · rfl

theorem usage_foldl (hname : consumer ≠ "") (rows : List Row) (usage : Usage) :
    ((rows.foldl shapeRow usage).lookup consumer).getD ∅ =
      (consumerRows consumer rows).foldl (modelRow Tokens.count)
        ((usage.lookup consumer).getD ∅) := by
  induction rows generalizing usage with
  | nil => rfl
  | cons d rest ih =>
    rw [List.foldl_cons, ih, usage_shapeRow hname, consumerRows, consumerRows, List.filter_cons]
    by_cases hd : d.consumer = some consumer
    · simp only [hd, decide_true, if_true, List.foldl_cons]
    · simp only [hd, decide_false, if_false, Bool.false_eq_true]

def Tokens.of (slot : Tokens) (tokKind : String) : ℤ :=
  if tokKind = "prompt" then slot.prompt else slot.completion

def Unwritten (out : Dict Tokens) (r : Row) : Prop :=
  ∀ model tokKind, r.model = some model → r.tokKind = some tokKind →
    tokKind ∈ ["prompt", "completion"] → ((out.lookup model).getD ⟨0, 0⟩).of tokKind = 0

theorem unwritten_empty (r : Row) : Unwritten ∅ r := by
  intro model tokKind _ _ _
  rw [AList.lookup_empty, Option.getD_none, Tokens.of]
  split_ifs <;> rfl

theorem count_eq_assign {slot : Tokens} {tokKind : String} (h : slot.of tokKind = 0) (tokens : ℤ) :
    slot.count tokKind tokens = slot.assign tokKind tokens := by
  rw [Tokens.of] at h
  rw [Tokens.count, Tokens.assign]
  split_ifs at h ⊢ with hkind
  · rw [h, Int.zero_add]
  · rw [h, Int.zero_add]

theorem modelRow_of_unwritten (h : Unwritten out r) :
    modelRow Tokens.count out r = modelRow Tokens.assign out r := by
  rw [modelRow, modelRow]
  cases hmodel : given r.model with
  | none => rfl
  | some model =>
    cases hkind : r.tokKind with
    | none => rfl
    | some tokKind =>
      dsimp only
      split_ifs with hknown
      · rw [count_eq_assign (h model tokKind (some_of_given hmodel) hkind hknown)]
      · rfl

theorem assign_of_ne {slot : Tokens} {tokKind tokKind' : String} (hne : tokKind' ≠ tokKind)
    (hknown : tokKind ∈ ["prompt", "completion"]) (hknown' : tokKind' ∈ ["prompt", "completion"])
    (tokens : ℤ) : (slot.assign tokKind tokens).of tokKind' = slot.of tokKind' := by
  simp only [List.mem_cons, List.not_mem_nil, or_false] at hknown hknown'
  rcases hknown with rfl | rfl <;> rcases hknown' with rfl | rfl
  · exact absurd rfl hne
  · rfl
  · rfl
  · exact absurd rfl hne

theorem Unwritten.modelRow (h : Unwritten out r')
    (hne : (r.model, r.tokKind) ≠ (r'.model, r'.tokKind)) :
    Unwritten (modelRow Tokens.assign out r) r' := by
  intro model' tokKind' hmodel' hkind' hknown'
  have hold := h model' tokKind' hmodel' hkind' hknown'
  rw [ConsumerConfig.modelRow]
  cases hmodel : given r.model with
  | none => exact hold
  | some model =>
    cases hkind : r.tokKind with
    | none => exact hold
    | some tokKind =>
      dsimp only
      split_ifs with hknown
      · rw [Dict.lookup_insert_eq]
        split_ifs with hsame
        · have hother : tokKind' ≠ tokKind := by
            rintro rfl
            exact hne (by rw [some_of_given hmodel, hkind, hmodel', hkind', hsame])
          rw [Option.getD_some, assign_of_ne hother hknown hknown', ← hsame]
          exact hold
        · exact hold
      · exact hold

theorem foldl_count_eq_assign (hkeys : (rows.map fun r => (r.model, r.tokKind)).Nodup)
    (hout : ∀ r ∈ rows, Unwritten out r) :
    rows.foldl (modelRow Tokens.count) out = rows.foldl (modelRow Tokens.assign) out := by
  induction rows generalizing out with
  | nil => rfl
  | cons r rest ih =>
    rw [List.map_cons, List.nodup_cons] at hkeys
    rw [List.foldl_cons, List.foldl_cons, modelRow_of_unwritten (hout r List.mem_cons_self)]
    refine ih hkeys.2 fun r' hr' => (hout r' (List.mem_cons_of_mem r hr')).modelRow fun hsame => ?_
    exact hkeys.1 (hsame ▸ List.mem_map_of_mem hr')

theorem nodup_consumerRows (hkeys : (rows.map Row.key).Nodup) :
    ((consumerRows consumer rows).map fun r => (r.model, r.tokKind)).Nodup := by
  have hrows : ((consumerRows consumer rows).map Row.key).Nodup :=
    hkeys.sublist (List.filter_sublist.map _)
  have hpair : (consumerRows consumer rows).map Row.key =
      ((consumerRows consumer rows).map fun r => (r.model, r.tokKind)).map (some consumer, ·) := by
    rw [List.map_map]
    refine List.map_congr_left fun r hr => ?_
    have hconsumer : r.consumer = some consumer := by simpa using (List.mem_filter.mp hr).2
    rw [Row.key, hconsumer]
    rfl
  rw [hpair] at hrows
  exact hrows.of_map _

theorem consumerUsage_rows (hsafe : consumerSafe consumer = true)
    (hkeys : (rows.map Row.key).Nodup) :
    consumerUsage consumer (.ok (consumerRows consumer rows)) =
      .ok (((shapeUsage rows).lookup consumer).getD ∅) := by
  rw [consumerUsage, if_pos hsafe, shapeUsage, usage_foldl (nonempty_of_safe hsafe),
    AList.lookup_empty, Option.getD_none,
    foldl_count_eq_assign (nodup_consumerRows hkeys) fun r _ => unwritten_empty r]
  rfl

end Rows

theorem costUsd_eq_costFor (modelUsage : Dict Tokens) (pricing : Dict Rate) :
    costUsd modelUsage pricing = costFor modelUsage pricing := rfl

section Displayed
variable {doc : Doc} {consumer : String} {budgetUsd : ℚ}

theorem liveSpend_of_ok {query : Except String (List Row)} {modelUsage : Dict Tokens}
    (hdoc : doc.Budgeted consumer budgetUsd) (h : consumerUsage consumer query = .ok modelUsage)
    (modelPrices : Dict Rate) : liveSpend consumer doc.toFields query modelPrices =
      ⟨some (costUsd modelUsage modelPrices),
        some (roundTo 4 (costUsd modelUsage modelPrices / budgetUsd))⟩ := by
  have hbudget : doc.dailyBudgetUsd.filter (· ≠ 0) = some budgetUsd := by
    rw [hdoc.budget, Option.filter_some_pos (by simpa using hdoc.nonzero)]
  simp only [liveSpend, h, hbudget, Option.map_some]

theorem active_of_evaluateDowngrade {usage : Usage} {pricing : Dict Rate} {nowIso : String}
    {doc' : Doc} {active : ActiveDowngrade} (hdoc : doc.Budgeted consumer budgetUsd)
    (h : evaluateDowngrade usage pricing nowIso doc = some (consumer, doc'))
    (hactive : doc'.activeDowngrade = some active) :
    active.usageUsd = cost usage pricing consumer ∧
      active.pct = roundTo 4 (cost usage pricing consumer / budgetUsd) := by
  rw [evaluateDowngrade_of_budgeted hdoc] at h
  split_ifs at h
  cases h
  simp only [activeAt] at hactive
  split_ifs at hactive
  cases hactive
  exact ⟨rfl, rfl⟩

theorem displayed_is_enforced {rows : List Row} (hdoc : doc.Budgeted consumer budgetUsd)
    (hsafe : consumerSafe consumer = true) (hkeys : (rows.map Row.key).Nodup)
    (pricing : Dict Rate) (nowIso : String) :
    ∃ usageUsd pct, liveSpend consumer doc.toFields (.ok (consumerRows consumer rows)) pricing =
        ⟨some usageUsd, some pct⟩ ∧
      usageUsd = cost (shapeUsage rows) pricing consumer ∧
      pct = roundTo 4 (cost (shapeUsage rows) pricing consumer / budgetUsd) ∧
      (evaluated (shapeUsage rows) pricing nowIso doc).level = levelFor pct ∧
      ∀ doc' active,
        evaluateDowngrade (shapeUsage rows) pricing nowIso doc = some (consumer, doc') →
          doc'.activeDowngrade = some active → active.usageUsd = usageUsd ∧ active.pct = pct := by
  have hlive := liveSpend_of_ok hdoc (consumerUsage_rows hsafe hkeys) pricing
  rw [costUsd_eq_costFor] at hlive
  exact ⟨_, _, hlive, rfl, rfl, level_evaluated hdoc,
    fun doc' active h hactive => active_of_evaluateDowngrade hdoc h hactive⟩

end Displayed

section Example

def teamRows : List Row :=
  [⟨some "team-a", some "gpt-5.4", some "prompt", some 400000⟩,
    ⟨some "team-a", some "gpt-5.4", some "completion", none⟩,
    ⟨some "team-b", some "gpt-5.4", some "prompt", some 7⟩,
    ⟨some "team-a", some "unpriced", some "prompt", some 9⟩,
    ⟨none, some "gpt-5.4", some "prompt", some 5⟩]

def teamDoc : Doc where
  id := docId "team-a"
  docType := "consumer_config"
  consumer := some "team-a"
  dailyBudgetUsd := some 1
  downgradeLadder := some ["gpt-5.4-mini"]

theorem teamDoc_budgeted : teamDoc.Budgeted "team-a" 1 where
  consumer := by decide
  budget := rfl
  nonzero := by decide
  ladder := ⟨["gpt-5.4-mini"], rfl, List.cons_ne_nil _ _⟩

def teamPrices : Dict Rate := AList.singleton "gpt-5.4" ⟨25 / 10000, 1 / 100⟩

theorem displayed_is_enforced_team :
    ∃ usageUsd pct, liveSpend "team-a" teamDoc.toFields (.ok (consumerRows "team-a" teamRows))
        teamPrices = ⟨some usageUsd, some pct⟩ ∧
      usageUsd = cost (shapeUsage teamRows) teamPrices "team-a" ∧
      pct = roundTo 4 (cost (shapeUsage teamRows) teamPrices "team-a" / 1) ∧
      (evaluated (shapeUsage teamRows) teamPrices "now" teamDoc).level = levelFor pct ∧
      ∀ doc' active, evaluateDowngrade (shapeUsage teamRows) teamPrices "now" teamDoc =
          some ("team-a", doc') →
        doc'.activeDowngrade = some active → active.usageUsd = usageUsd ∧ active.pct = pct :=
  displayed_is_enforced teamDoc_budgeted (by decide) (by decide) teamPrices "now"

end Example

end ConsumerConfig
