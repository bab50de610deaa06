import NocAgent.ConsumerConfig.Budget
import NocAgent.Library.Grouping

namespace UsageDetail
open ConsumerConfig Pricing HalfEven

structure UsageEvent where
  runId : Option String
  accountingMode : Option String
  model : Option String
  inputTokens : Option ℤ
  outputTokens : Option ℤ
deriving DecidableEq

namespace UsageEvent
variable (event : UsageEvent)

def tokens : Tokens := ⟨event.inputTokens.getD 0, event.outputTokens.getD 0⟩

def run : String := (given event.runId).getD "unscoped"

def mode : String := (given event.accountingMode).getD "actual"

end UsageEvent

def eventCost (prices : Dict Rate) (event : UsageEvent) : ℚ :=
  if event.accountingMode = some "no_llm" then 0
  else
    match given event.model with
    | none => 0
    | some model => costFor (AList.singleton model event.tokens) prices

@[ext] structure Summary where
  rows : ℕ
  actualTokens : ℤ
  estimatedTokens : ℤ
  noLlmRows : ℕ
  actualCost : ℚ
  estimatedCost : ℚ
deriving DecidableEq

def Summary.start : Summary := ⟨0, 0, 0, 0, 0, 0⟩

def Summary.count (prices : Dict Rate) (summary : Summary) (event : UsageEvent) : Summary :=
  let counted := { summary with rows := summary.rows + 1 }
  let tokens := event.tokens.prompt + event.tokens.completion
  if event.mode = "no_llm" then { counted with noLlmRows := counted.noLlmRows + 1 }
  else if event.mode = "estimate" then
    { counted with
      estimatedTokens := counted.estimatedTokens + tokens
      estimatedCost := counted.estimatedCost + eventCost prices event }
  else
    { counted with
      actualTokens := counted.actualTokens + tokens
      actualCost := counted.actualCost + eventCost prices event }

def byRun (events : List UsageEvent) : List (String × UsageEvent) :=
  events.map fun event => (event.run, event)

def summarizeRuns (prices : Dict Rate) (events : List UsageEvent) : Dict Summary :=
  Dict.collect (Summary.count prices) .start ∅ (byRun events)

instance : Add Summary where
  add s t :=
    { rows := s.rows + t.rows
      actualTokens := s.actualTokens + t.actualTokens
      estimatedTokens := s.estimatedTokens + t.estimatedTokens
      noLlmRows := s.noLlmRows + t.noLlmRows
      actualCost := s.actualCost + t.actualCost
      estimatedCost := s.estimatedCost + t.estimatedCost }

instance : Zero Summary := ⟨.start⟩

instance : AddCommMonoid Summary where
  add_assoc s t u := Summary.ext (Nat.add_assoc _ _ _) (Int.add_assoc _ _ _) (Int.add_assoc _ _ _)
    (Nat.add_assoc _ _ _) (Rat.add_assoc _ _ _) (Rat.add_assoc _ _ _)
  zero_add s := Summary.ext (Nat.zero_add _) (Int.zero_add _) (Int.zero_add _) (Nat.zero_add _)
    (Rat.zero_add _) (Rat.zero_add _)
  add_zero s := Summary.ext (Nat.add_zero _) (Int.add_zero _) (Int.add_zero _) (Nat.add_zero _)
    (Rat.add_zero _) (Rat.add_zero _)
  add_comm s t := Summary.ext (Nat.add_comm _ _) (Int.add_comm _ _) (Int.add_comm _ _)
    (Nat.add_comm _ _) (Rat.add_comm _ _) (Rat.add_comm _ _)
  nsmul := nsmulRec

def eventsOf (run : String) (events : List UsageEvent) : List UsageEvent :=
  events.filter (·.run = run)

structure Actual (event : UsageEvent) : Prop where
  mode : event.mode ≠ "no_llm" ∧ event.mode ≠ "estimate"
  named : (given event.model).isSome

def byModel (events : List UsageEvent) : List (String × Tokens) :=
  events.filterMap fun event => (given event.model).map (·, event.tokens)

def Tokens.add (s t : Tokens) : Tokens := ⟨s.prompt + t.prompt, s.completion + t.completion⟩

def tokenTotals (events : List UsageEvent) : Dict Tokens :=
  Dict.collect Tokens.add ⟨0, 0⟩ ∅ (byModel events)

def modelCost (prices : Dict Rate) (model : String) (tokens : Tokens) : ℚ :=
  match prices.lookup model with
  | none => 0
  | some rate => tokens.prompt / 1000 * rate.prompt + tokens.completion / 1000 * rate.completion

section Costs
variable {prices : Dict Rate} {event : UsageEvent} {events : List UsageEvent}

theorem costFor_eq (usage : Dict Tokens) (prices : Dict Rate) :
    costFor usage prices = roundTo 6 (Dict.sumBy (modelCost prices) usage) := by
  have hfold : ∀ (entries : List (String × Tokens)) (start : ℚ),
      entries.foldl (fun total entry =>
        match prices.lookup entry.1 with
        | none => total
        | some rate => total + entry.2.prompt / 1000 * rate.prompt +
            entry.2.completion / 1000 * rate.completion) start =
        start + (entries.map fun entry => modelCost prices entry.1 entry.2).sum := by
    intro entries
    induction entries with
    | nil => exact fun start => (add_zero start).symm
    | cons entry entries ih =>
      intro start
      rw [List.foldl_cons, ih, List.map_cons, List.sum_cons, modelCost, ← add_assoc]
      cases prices.lookup entry.1 with
      | none => rw [add_zero]
      | some rate => rw [← add_assoc]
  exact congrArg (roundTo 6) ((hfold usage.items 0).trans (zero_add _))

theorem modelCost_zero (prices : Dict Rate) (model : String) :
    modelCost prices model ⟨0, 0⟩ = 0 := by
  rw [modelCost]
  cases prices.lookup model with
  | none => rfl
  | some rate => simp

theorem modelCost_add (prices : Dict Rate) (model : String) (s t : Tokens) :
    modelCost prices model (Tokens.add s t) =
      modelCost prices model s + modelCost prices model t := by
  rw [modelCost, modelCost, modelCost]
  cases prices.lookup model with
  | none => rw [add_zero]
  | some rate =>
    simp only [Tokens.add, Int.cast_add]
    ring

theorem sumBy_tokenTotals (prices : Dict Rate) (events : List UsageEvent) :
    Dict.sumBy (modelCost prices) (tokenTotals events) =
      ((byModel events).map fun entry => modelCost prices entry.1 entry.2).sum := by
  rw [tokenTotals,
    Dict.sumBy_collect _ (modelCost prices) (modelCost_zero prices) (modelCost_add prices),
    Dict.sumBy_empty, zero_add]

theorem costFor_singleton (model : String) (tokens : Tokens) (prices : Dict Rate) :
    costFor (AList.singleton model tokens) prices = roundTo 6 (modelCost prices model tokens) := by
  rw [costFor_eq, Dict.sumBy_eq]
  exact congrArg (roundTo 6) (List.sum_singleton)

def exactCost (prices : Dict Rate) (event : UsageEvent) : ℚ :=
  (given event.model).elim 0 fun model => modelCost prices model event.tokens

theorem sum_byModel (prices : Dict Rate) (events : List UsageEvent) :
    ((byModel events).map fun entry => modelCost prices entry.1 entry.2).sum =
      (events.map (exactCost prices)).sum := by
  induction events with
  | nil => rfl
  | cons event events ih =>
    rw [List.map_cons, List.sum_cons, ← ih, exactCost, byModel, List.filterMap_cons]
    cases given event.model with
    | none => exact (zero_add _).symm
    | some model => rfl

theorem Actual.eventCost_eq (h : Actual event) (prices : Dict Rate) :
    eventCost prices event = roundTo 6 (exactCost prices event) := by
  have hmode : event.accountingMode ≠ some "no_llm" := by
    intro hmode
    exact h.mode.1 (by rw [UsageEvent.mode, hmode]; rfl)
  obtain ⟨model, hmodel⟩ := Option.isSome_iff_exists.mp h.named
  rw [eventCost, if_neg hmode, exactCost, hmodel]
  exact costFor_singleton model event.tokens prices

end Costs

section Summaries
variable {prices : Dict Rate} {events events' : List UsageEvent} {run : String} {summary : Summary}

def contribution (prices : Dict Rate) (event : UsageEvent) : Summary :=
  Summary.count prices 0 event

theorem count_eq (prices : Dict Rate) (summary : Summary) (event : UsageEvent) :
    summary.count prices event = summary + contribution prices event := by
  rw [contribution, Summary.count, Summary.count]
  split_ifs with hnone hestimate
  · exact Summary.ext rfl (Int.add_zero _).symm (Int.add_zero _).symm rfl (Rat.add_zero _).symm
      (Rat.add_zero _).symm
  · exact Summary.ext rfl (Int.add_zero _).symm
      (congrArg (summary.estimatedTokens + ·) (Int.zero_add _).symm) rfl (Rat.add_zero _).symm
      (congrArg (summary.estimatedCost + ·) (Rat.zero_add _).symm)
  · exact Summary.ext rfl (congrArg (summary.actualTokens + ·) (Int.zero_add _).symm)
      (Int.add_zero _).symm rfl (congrArg (summary.actualCost + ·) (Rat.zero_add _).symm)
      (Rat.add_zero _).symm

theorem foldl_count (prices : Dict Rate) (summary : Summary) (events : List UsageEvent) :
    events.foldl (Summary.count prices) summary =
      summary + (events.map (contribution prices)).sum := by
  induction events generalizing summary with
  | nil => exact (add_zero _).symm
  | cons event events ih =>
    rw [List.foldl_cons, ih, count_eq, List.map_cons, List.sum_cons, add_assoc]

theorem valuesAt_byRun (run : String) (events : List UsageEvent) :
    Dict.valuesAt run (byRun events) = eventsOf run events := by
  rw [Dict.valuesAt, byRun, List.filter_map, List.map_map]
  exact List.map_id _

theorem lookup_summarizeRuns (prices : Dict Rate) (events : List UsageEvent) (run : String) :
    (summarizeRuns prices events).lookup run =
      if eventsOf run events = [] then none
      else some ((eventsOf run events).foldl (Summary.count prices) .start) := by
  rw [summarizeRuns, Dict.lookup_collect_empty, valuesAt_byRun]

theorem foldl_start (prices : Dict Rate) (events : List UsageEvent) :
    events.foldl (Summary.count prices) .start = (events.map (contribution prices)).sum :=
  (foldl_count prices .start events).trans (zero_add _)

theorem lookup_summarizeRuns_eq (prices : Dict Rate) (events : List UsageEvent) (run : String) :
    (summarizeRuns prices events).lookup run =
      if eventsOf run events = [] then none
      else some (((eventsOf run events).map (contribution prices)).sum) := by
  rw [lookup_summarizeRuns, foldl_start]

theorem summarizeRuns_perm (h : events'.Perm events) :
    (summarizeRuns prices events').Same (summarizeRuns prices events) := by
  intro run
  have hrun : (eventsOf run events').Perm (eventsOf run events) := h.filter _
  have hnil : eventsOf run events' = [] ↔ eventsOf run events = [] :=
    ⟨fun hnil => List.nil_perm.mp (hnil ▸ hrun), fun hnil => List.perm_nil.mp (hnil ▸ hrun)⟩
  rw [lookup_summarizeRuns_eq, lookup_summarizeRuns_eq, (hrun.map _).sum_eq]
  exact if_congr hnil rfl rfl

theorem eventsOf_append (run : String) (events events' : List UsageEvent) :
    eventsOf run (events ++ events') = eventsOf run events ++ eventsOf run events' :=
  List.filter_append ..

theorem summarizeRuns_append (prices : Dict Rate) (events events' : List UsageEvent)
    (run : String) : (summarizeRuns prices (events ++ events')).lookup run =
      Option.merge (· + ·) ((summarizeRuns prices events).lookup run)
        ((summarizeRuns prices events').lookup run) := by
  rw [lookup_summarizeRuns_eq, lookup_summarizeRuns_eq, lookup_summarizeRuns_eq, eventsOf_append,
    List.map_append, List.sum_append]
  by_cases hleft : eventsOf run events = []
  · by_cases hright : eventsOf run events' = []
    · simp [hleft, hright]
    · simp [hleft, hright]
  · by_cases hright : eventsOf run events' = []
    · simp [hleft, hright]
    · simp [hleft, hright]

theorem rows_foldl (prices : Dict Rate) (summary : Summary) (events : List UsageEvent) :
    (events.foldl (Summary.count prices) summary).rows = summary.rows + events.length := by
  induction events generalizing summary with
  | nil => rfl
  | cons event events ih =>
    have hrows : (summary.count prices event).rows = summary.rows + 1 := by
      rw [Summary.count]
      split_ifs
      · rfl
      · rfl
      · rfl
    rw [List.foldl_cons, ih, hrows, List.length_cons, Nat.add_assoc, Nat.add_comm 1]

theorem rows_of_lookup (h : (summarizeRuns prices events).lookup run = some summary) :
    summary.rows = (eventsOf run events).length := by
  rw [lookup_summarizeRuns] at h
  split_ifs at h
  cases h
  exact (rows_foldl prices .start _).trans (Nat.zero_add _)

theorem sum_rows (prices : Dict Rate) (events : List UsageEvent) :
    Dict.sumBy (fun _ => Summary.rows) (summarizeRuns prices events) = events.length := by
  have hcollect : Dict.sumBy (fun _ => Summary.rows)
      (Dict.collect (Summary.count prices) .start ∅ (byRun events)) =
        Dict.sumBy (fun _ => Summary.rows) ∅ + ((byRun events).map fun _ => 1).sum :=
    Dict.sumBy_collect (fun _ => Summary.rows) (fun _ _ => 1) (fun _ => rfl)
      (fun _ summary event => rows_foldl prices summary [event]) ∅ (byRun events)
  rw [summarizeRuns, hcollect, Dict.sumBy_empty, zero_add, List.map_const', List.sum_replicate,
    nsmul_one, Nat.cast_id, byRun, List.length_map]

theorem actualCost_foldl (h : ∀ event ∈ events, Actual event) (summary : Summary) :
    (events.foldl (Summary.count prices) summary).actualCost =
      summary.actualCost + (events.map (eventCost prices)).sum := by
  induction events generalizing summary with
  | nil => exact (add_zero _).symm
  | cons event events ih =>
    obtain ⟨hnone, hestimate⟩ := (h event List.mem_cons_self).mode
    have hcost : (summary.count prices event).actualCost =
        summary.actualCost + eventCost prices event := by
      rw [Summary.count, if_neg hnone, if_neg hestimate]
    rw [List.foldl_cons, ih fun event hevent => h event (List.mem_cons_of_mem _ hevent), hcost,
      List.map_cons, List.sum_cons, add_assoc]

-- Each event is rounded once, and the cost of the totals once more.
theorem actualCost_near (h : (summarizeRuns prices events).lookup run = some summary)
    (hactual : ∀ event ∈ eventsOf run events, Actual event) :
    |summary.actualCost - costFor (tokenTotals (eventsOf run events)) prices| ≤
      ((eventsOf run events).length + 1) * 0.0000005 := by
  rw [lookup_summarizeRuns] at h
  split_ifs at h
  cases h
  generalize eventsOf run events = own at hactual
  have hcosts : own.map (eventCost prices) = (own.map (exactCost prices)).map (roundTo 6) := by
    rw [List.map_map]
    exact List.map_congr_left fun event hevent => (hactual event hevent).eventCost_eq prices
  have heach := abs_sum_roundTo_sub_le 6 (own.map (exactCost prices))
  have htotal := abs_roundTo_sub_le 6 (own.map (exactCost prices)).sum
  rw [actualCost_foldl hactual, hcosts, costFor_eq, sumBy_tokenTotals, sum_byModel]
  rw [List.length_map, abs_le] at heach
  rw [abs_le] at htotal ⊢
  change -_ ≤ 0 + _ - _ ∧ 0 + _ - _ ≤ _
  norm_num at heach htotal ⊢
  constructor <;> linarith [heach.1, heach.2, htotal.1, htotal.2]

theorem runs_reconcile (prices : Dict Rate) :
    (∀ events events' : List UsageEvent, events'.Perm events →
      (summarizeRuns prices events').Same (summarizeRuns prices events)) ∧
    (∀ events events' run, (summarizeRuns prices (events ++ events')).lookup run =
      Option.merge (· + ·) ((summarizeRuns prices events).lookup run)
        ((summarizeRuns prices events').lookup run)) ∧
    (∀ events, Dict.sumBy (fun _ => Summary.rows) (summarizeRuns prices events) =
        events.length ∧
      (∀ event ∈ events, ∃ summary,
        (summarizeRuns prices events).lookup event.run = some summary) ∧
      ∀ run summary, (summarizeRuns prices events).lookup run = some summary →
        summary.rows = (eventsOf run events).length) ∧
    ∀ events run summary, (summarizeRuns prices events).lookup run = some summary →
      (∀ event ∈ eventsOf run events, Actual event) →
      |summary.actualCost - costFor (tokenTotals (eventsOf run events)) prices| ≤
        ((eventsOf run events).length + 1) * 0.0000005 := by
  refine ⟨fun _ _ => summarizeRuns_perm, summarizeRuns_append prices, fun events => ⟨sum_rows prices
    events, fun event hevent => ?_, fun _ _ => rows_of_lookup⟩, fun _ _ _ => actualCost_near⟩
  have hmem : event ∈ eventsOf event.run events :=
    List.mem_filter.mpr ⟨hevent, decide_eq_true rfl⟩
  rw [lookup_summarizeRuns, if_neg (List.ne_nil_of_mem hmem)]
  exact ⟨_, rfl⟩

end Summaries

end UsageDetail
