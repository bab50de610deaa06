import NocAgent.Library.Grouping
import NocAgent.Library.UtcText
import NocAgent.Pricing.PriceTables
import Mathlib.Data.List.Sort

namespace AdminUi
open Calendar Dict
open Pricing (CostRow Rate costByRun costRow given)
open ConsumerConfig (Tokens costUsd modelRow)

structure RunRow where
  runId : Option String
  lastSeen : Option String
  callCount : Option ℤ
  agents : List String
  steps : Option ℤ
deriving DecidableEq

structure HaltRow where
  timeGenerated : Option String
  runId : Option String
  reason : Option String
deriving DecidableEq

structure DowngradeRow where
  timeGenerated : Option String
  runId : Option String
  requestedModel : Option String
  effectiveModel : Option String
  downgradeLevel : Option String
deriving DecidableEq

structure RunTables where
  runs : List RunRow := []
  costs : List CostRow := []
  halts : List HaltRow := []
  downgrades : List DowngradeRow := []

structure RunHalt where
  time : Option String
  reason : String
deriving DecidableEq

structure RunDowngrade where
  time : Option String
  requestedModel : Option String
  effectiveModel : Option String
  downgradeLevel : Option String
deriving DecidableEq

structure RunSummary where
  runId : String
  lastSeen : Option String
  callCount : ℤ
  steps : ℤ
  agents : List String
  costUsd : ℚ
  halts : List RunHalt
  downgrades : List RunDowngrade
deriving DecidableEq

-- The order in which a set of strings comes out, which Python leaves open.
structure SetOrder where
  iterate : List String → List String
  perm : ∀ keys, (iterate keys).Perm keys.dedup

def RunHalt.ofRow (row : HaltRow) : Option RunHalt :=
  (given row.reason).map fun reason => ⟨row.timeGenerated, reason⟩

def RunDowngrade.ofRow (row : DowngradeRow) : Option RunDowngrade :=
  some ⟨row.timeGenerated, row.requestedModel, row.effectiveModel, row.downgradeLevel⟩

namespace RunsQuery

def runsById (rows : List RunRow) : Dict RunRow :=
  setAll ∅ (rows.filterMap fun row => (given row.runId).map fun runId => (runId, row))

def haltByRun : List HaltRow → Dict (List RunHalt) :=
  gather (fun halts halt => halts ++ [halt]) []
    (keyed (fun row => given row.runId) RunHalt.ofRow)

def downgradeByRun : List DowngradeRow → Dict (List RunDowngrade) :=
  gather (fun downgrades downgrade => downgrades ++ [downgrade]) []
    (keyed (fun row => given row.runId) RunDowngrade.ofRow)

def sortKey (runs : Dict RunRow) (runId : String) : String :=
  match runs.lookup runId with
  | some row => row.lastSeen.getD "None"
  | none => ""

section List
variable (order : SetOrder) (t : RunTables) (modelPrices : Dict Rate)

def runIds : List String :=
  order.iterate ((runsById t.runs).keys ++ (costByRun t.costs).keys ++ (haltByRun t.halts).keys ++
    (downgradeByRun t.downgrades).keys)

def summary (runId : String) : RunSummary :=
  let row := (runsById t.runs).lookup runId
  { runId := runId
    lastSeen := row.bind (·.lastSeen)
    callCount := (row.bind (·.callCount)).getD 0
    steps := (row.bind (·.steps)).getD 0
    agents := ((row.map (·.agents)).getD []).filter (· ≠ "")
    costUsd := costUsd (((costByRun t.costs).lookup runId).getD ∅) modelPrices
    halts := ((haltByRun t.halts).lookup runId).getD []
    downgrades := ((downgradeByRun t.downgrades).lookup runId).getD [] }

-- sorted(..., reverse=True) leaves ids of one key in the order they come in.
def sortedIds : List String :=
  (runIds order t).insertionSort fun a b =>
    sortKey (runsById t.runs) b ≤ sortKey (runsById t.runs) a

def list : List RunSummary := (sortedIds order t).map (summary t modelPrices)

end List

end RunsQuery

namespace RunTables
variable (t : RunTables)

def tokenRow (row : CostRow) : Option ConsumerConfig.Row :=
  if given row.model ≠ none ∧ (row.tokKind = some "prompt" ∨ row.tokKind = some "completion") then
    some ⟨row.runId, row.model, row.tokKind, row.tokens⟩
  else none

def runRow (runId : String) : Option RunRow :=
  if runId = "" then none else (t.runs.filter (·.runId = some runId)).getLast?

def tokenUsage (runId : String) : Dict Tokens :=
  ((t.costs.filter (·.runId = some runId)).filterMap tokenRow).foldl (modelRow Tokens.count) ∅

def joined (modelPrices : Dict Rate) (runId : String) : RunSummary where
  runId := runId
  lastSeen := (t.runRow runId).bind (·.lastSeen)
  callCount := ((t.runRow runId).bind (·.callCount)).getD 0
  steps := ((t.runRow runId).bind (·.steps)).getD 0
  agents := (((t.runRow runId).map (·.agents)).getD []).filter (· ≠ "")
  costUsd := costUsd (t.tokenUsage runId) modelPrices
  halts := (t.halts.filter (·.runId = some runId)).filterMap RunHalt.ofRow
  downgrades := (t.downgrades.filter (·.runId = some runId)).filterMap RunDowngrade.ofRow

def Listed (runId : String) : Prop :=
  runId ≠ "" ∧ ((∃ row ∈ t.runs, row.runId = some runId) ∨
    (∃ row ∈ t.costs, row.runId = some runId ∧ tokenRow row ≠ none) ∨
    (∃ row ∈ t.halts, row.runId = some runId ∧ RunHalt.ofRow row ≠ none) ∨
    ∃ row ∈ t.downgrades, row.runId = some runId)

def UtcTimes : Prop := ∀ row ∈ t.runs, ∃ u : UtcText, row.lastSeen = some u.toText

def DistinctCosts : Prop := (t.costs.map fun row => (row.runId, row.model, row.tokKind)).Nodup

instance : Decidable t.DistinctCosts := inferInstanceAs (Decidable (List.Nodup _))

def Precedes (item item' : RunSummary) : Prop :=
  ∀ v : UtcText, item'.lastSeen = some v.toText →
    item.lastSeen ≠ none ∧ ∀ u : UtcText, item.lastSeen = some u.toText → v.instant ≤ u.instant

structure Lossless (modelPrices : Dict Rate) (items : List RunSummary) : Prop where
  once : (items.map RunSummary.runId).Nodup
  complete : ∀ runId, runId ∈ items.map RunSummary.runId ↔ t.Listed runId
  exact : ∀ item ∈ items, item = t.joined modelPrices item.runId
  ordered : items.Pairwise Precedes

def NoneMisread : Prop :=
  ∀ runId runId' : String, runId ≠ runId' → ∀ row row', t.runRow runId = some row →
    t.runRow runId' = some row' → ∀ u v : UtcText, row.lastSeen = some u.toText →
      row'.lastSeen = some v.toText → ¬ u.Misread v

end RunTables
namespace RunsQuery
variable {order : SetOrder} {t : RunTables} {modelPrices : Dict Rate} {runId : String}

section Join

theorem given_eq_some_iff {text : Option String} :
    given text = some runId ↔ text = some runId ∧ runId ≠ "" := by
  rw [given, Option.filter_eq_some_iff, decide_eq_true_eq]

theorem filter_given {ρ : Type} (hid : runId ≠ "") (key : ρ → Option String) (rows : List ρ) :
    (rows.filter fun row => given (key row) = some runId) = rows.filter (key · = some runId) := by
  simp only [given_eq_some_iff, hid, ne_eq, not_false_eq_true, and_true]

theorem lookup_runsById (t : RunTables) (runId : String) :
    (runsById t.runs).lookup runId = t.runRow runId := by
  have hentries : (t.runs.filterMap fun row => (given row.runId).map fun id => (id, row)) =
      t.runs.filterMap (keyed (fun row => given row.runId) some) := by
    congr
    funext row
    rw [keyed]
    cases given row.runId <;> rfl
  have hvalues := valuesAt_keyed (fun row : RunRow => given row.runId) some t.runs runId
  rw [valuesAt, List.filterMap_some] at hvalues
  rw [runsById, lookup_setAll_last, ← List.getLast?_map, hentries, hvalues, AList.lookup_empty,
    Option.or_none, RunTables.runRow]
  split_ifs with hid
  · rw [hid]
    simp [given_eq_some_iff]
  · rw [filter_given hid]

theorem known_iff {tokKind : String} : tokKind ∈ ["prompt", "completion"] ↔
    some tokKind = some "prompt" ∨ some tokKind = some "completion" := by
  simp

theorem tokenRow_eq_some {row : CostRow} {r : ConsumerConfig.Row}
    (h : RunTables.tokenRow row = some r) :
    r = ⟨row.runId, row.model, row.tokKind, row.tokens⟩ ∧ ∃ model tokKind,
      given row.model = some model ∧ row.tokKind = some tokKind ∧
        tokKind ∈ ["prompt", "completion"] := by
  rw [RunTables.tokenRow] at h
  split_ifs at h with husable
  obtain ⟨model, hmodel⟩ := Option.ne_none_iff_exists'.mp husable.1
  refine ⟨(Option.some.inj h).symm, model, ?_⟩
  rcases husable.2 with hkind | hkind
  · exact ⟨"prompt", hmodel, hkind, by decide⟩
  · exact ⟨"completion", hmodel, hkind, by decide⟩

theorem costRow_of_entry {row : CostRow} {id : String} {r : ConsumerConfig.Row}
    (hid : given row.runId = some id) (h : RunTables.tokenRow row = some r)
    (costs : Dict (Dict Tokens)) :
    costRow costs row = slot (modelRow Tokens.assign) ∅ costs (id, r) := by
  obtain ⟨rfl, model, tokKind, hmodel, hkind, hknown⟩ := tokenRow_eq_some h
  rw [costRow, hid, hmodel, hkind, slot, modelRow, hmodel]
  simp only [if_pos hknown]

theorem costRow_of_none {row : CostRow} (h : given row.runId = none ∨ RunTables.tokenRow row = none)
    (costs : Dict (Dict Tokens)) : costRow costs row = costs := by
  rw [costRow]
  rcases h with hid | htoken
  · rw [hid]
  · rw [RunTables.tokenRow, ite_eq_right_iff] at htoken
    cases given row.runId with
    | none => rfl
    | some id =>
      cases hmodel : given row.model with
      | none => rfl
      | some model =>
        cases hkind : row.tokKind with
        | none => rfl
        | some tokKind =>
          have hunknown : tokKind ∉ ["prompt", "completion"] := by
            intro hknown
            rw [hmodel, hkind] at htoken
            cases htoken ⟨Option.some_ne_none _, known_iff.mp hknown⟩
          dsimp only
          rw [if_neg hunknown]

theorem costByRun_eq (rows : List CostRow) : costByRun rows =
    gather (modelRow Tokens.assign) ∅
      (keyed (fun row => given row.runId) RunTables.tokenRow) rows := by
  rw [costByRun, gather]
  congr
  funext costs row
  cases hentry : keyed (fun row => given row.runId) RunTables.tokenRow row with
  | none => exact costRow_of_none (keyed_eq_none_iff.mp hentry) costs
  | some kv =>
    obtain ⟨hid, htoken⟩ := keyed_eq_some_iff.mp hentry
    exact costRow_of_entry hid htoken costs

theorem foldl_concat {α : Type} (before xs : List α) :
    xs.foldl (fun ys y => ys ++ [y]) before = before ++ xs := by
  induction xs generalizing before with
  | nil => rw [List.foldl_nil, List.append_nil]
  | cons x xs ih => rw [List.foldl_cons, ih, List.append_assoc, List.singleton_append]

theorem filterMap_sublist_map {α β : Type} {f : α → Option β} {g : α → β}
    (h : ∀ a b, f a = some b → b = g a) (xs : List α) :
    (xs.filterMap f).Sublist (xs.map g) := by
  induction xs with
  | nil => exact .slnil
  | cons x xs ih =>
    cases hx : f x with
    | none =>
      rw [List.filterMap_cons_none hx]
      exact ih.cons _
    | some b =>
      rw [List.filterMap_cons_some hx, h x b hx]
      exact ih.cons_cons _

theorem nodup_tokenRows (h : t.DistinctCosts) (runId : String) :
    (((t.costs.filter (·.runId = some runId)).filterMap RunTables.tokenRow).map
      fun r => (r.model, r.tokKind)).Nodup := by
  let row : CostRow → ConsumerConfig.Row := fun r => ⟨r.runId, r.model, r.tokKind, r.tokens⟩
  have hkeys : ((t.costs.map row).map ConsumerConfig.Row.key).Nodup := by
    rw [List.map_map]
    exact h
  have hnodup : ((ConsumerConfig.consumerRows runId (t.costs.map row)).map
      fun r => (r.model, r.tokKind)).Nodup := ConsumerConfig.nodup_consumerRows hkeys
  rw [ConsumerConfig.consumerRows, List.filter_map] at hnodup
  have hsublist : ((t.costs.filter (·.runId = some runId)).filterMap RunTables.tokenRow).Sublist
      ((t.costs.filter (·.runId = some runId)).map row) :=
    filterMap_sublist_map (fun _ _ hrow => (tokenRow_eq_some hrow).1) _
  exact hnodup.sublist (hsublist.map _)

theorem usage_eq (h : t.DistinctCosts) (hid : runId ≠ "") :
    ((costByRun t.costs).lookup runId).getD ∅ = t.tokenUsage runId := by
  rw [costByRun_eq, getD_gather, filter_given hid, RunTables.tokenUsage,
    ConsumerConfig.foldl_count_eq_assign (nodup_tokenRows h runId)
      fun r _ => ConsumerConfig.unwritten_empty r]

theorem summary_eq (h : t.DistinctCosts) (hid : runId ≠ "") :
    summary t modelPrices runId = t.joined modelPrices runId := by
  rw [summary, RunTables.joined, lookup_runsById, usage_eq h hid, haltByRun, downgradeByRun,
    getD_gather, getD_gather, foldl_concat, foldl_concat, filter_given hid, filter_given hid,
    List.nil_append, List.nil_append]

theorem mem_runsById_iff :
    runId ∈ runsById t.runs ↔ runId ≠ "" ∧ ∃ row ∈ t.runs, row.runId = some runId := by
  rw [← AList.lookup_isSome, lookup_runsById, RunTables.runRow]
  split_ifs with hid
  · simp [hid]
  · simp [hid]

theorem mem_runIds_iff : runId ∈ runIds order t ↔ t.Listed runId := by
  rw [runIds, (order.perm _).mem_iff, List.mem_dedup]
  simp only [List.mem_append, ← AList.mem_keys, mem_runsById_iff, costByRun_eq, haltByRun,
    downgradeByRun, mem_gather_iff, given_eq_some_iff, RunTables.Listed, RunDowngrade.ofRow]
  by_cases hid : runId = ""
  · simp [hid]
  · simp [hid, or_assoc]

end Join

section Order

theorem sortedIds_perm (order : SetOrder) (t : RunTables) :
    (sortedIds order t).Perm (runIds order t) := List.perm_insertionSort _ _

theorem nodup_sortedIds (order : SetOrder) (t : RunTables) : (sortedIds order t).Nodup := by
  rw [(sortedIds_perm order t).nodup_iff, runIds, (order.perm _).nodup_iff]
  exact List.nodup_dedup _

theorem mem_sortedIds_iff : runId ∈ sortedIds order t ↔ t.Listed runId := by
  rw [(sortedIds_perm order t).mem_iff, mem_runIds_iff]

theorem list_runIds (order : SetOrder) (t : RunTables) (modelPrices : Dict Rate) :
    (list order t modelPrices).map RunSummary.runId = sortedIds order t := by
  rw [list, List.map_map]
  exact List.map_id _

theorem sortedIds_descending (order : SetOrder) (t : RunTables) :
    (sortedIds order t).Pairwise fun a b =>
      sortKey (runsById t.runs) b ≤ sortKey (runsById t.runs) a := by
  have : Std.Total fun a b : String =>
      sortKey (runsById t.runs) b ≤ sortKey (runsById t.runs) a :=
    ⟨fun a b => le_total _ _⟩
  have : IsTrans String fun a b => sortKey (runsById t.runs) b ≤ sortKey (runsById t.runs) a :=
    ⟨fun _ _ _ hab hbc => hbc.trans hab⟩
  exact List.pairwise_insertionSort _ _

theorem summary_lastSeen (t : RunTables) (modelPrices : Dict Rate) (runId : String) :
    (summary t modelPrices runId).lastSeen = (t.runRow runId).bind (·.lastSeen) := by
  rw [summary, lookup_runsById]

theorem mem_of_runRow {row : RunRow} (h : t.runRow runId = some row) : row ∈ t.runs := by
  rw [RunTables.runRow] at h
  split_ifs at h
  exact (List.mem_filter.mp (List.mem_of_getLast? h)).1

-- A run's key is the text it was last seen at, and empty for a run without a row.
theorem sortKey_eq (htimes : t.UtcTimes) (modelPrices : Dict Rate) (runId : String) :
    sortKey (runsById t.runs) runId = (summary t modelPrices runId).lastSeen.getD "" := by
  rw [summary_lastSeen, sortKey, lookup_runsById]
  cases hrow : t.runRow runId with
  | none => rfl
  | some row =>
    obtain ⟨u, hu⟩ := htimes row (mem_of_runRow hrow)
    change row.lastSeen.getD "None" = row.lastSeen.getD ""
    rw [hu, Option.getD_some, Option.getD_some]

theorem precedes_of_descending (htimes : t.UtcTimes) (hnone : t.NoneMisread) {a b : String}
    (hne : a ≠ b) (h : sortKey (runsById t.runs) b ≤ sortKey (runsById t.runs) a) :
    RunTables.Precedes (summary t modelPrices a) (summary t modelPrices b) := by
  intro v hv
  rw [sortKey_eq htimes modelPrices, sortKey_eq htimes modelPrices, hv, Option.getD_some] at h
  constructor
  · intro hnever
    rw [hnever, Option.getD_none] at h
    exact v.toText_ne_empty (le_antisymm h (not_lt.mp (List.not_lt_nil _)))
  · intro u hu
    rw [hu, Option.getD_some] at h
    by_contra hlater
    rw [summary_lastSeen] at hu hv
    obtain ⟨row, hrow, hseen⟩ := Option.bind_eq_some_iff.mp hu
    obtain ⟨row', hrow', hseen'⟩ := Option.bind_eq_some_iff.mp hv
    have hnot := hnone a b hne row row' hrow hrow' u v hseen hseen'
    have hlt : u.toText < v.toText := (UtcText.toText_lt_iff (not_le.mp hlater)).mpr hnot
    exact absurd h (not_le_of_gt hlt)

theorem either_of_pairwise {α : Type} {R : α → α → Prop} {xs : List α} (h : xs.Pairwise R) {a b : α}
    (ha : a ∈ xs) (hb : b ∈ xs) (hne : a ≠ b) : R a b ∨ R b a := by
  have : Std.Symm fun a b => R a b ∨ R b a := ⟨fun _ _ => Or.symm⟩
  have heither : xs.Pairwise fun a b => R a b ∨ R b a := h.imp Or.inl
  exact heither.forall ha hb hne

theorem mem_sortedIds_of_runRow {row : RunRow} (h : t.runRow runId = some row) :
    runId ∈ sortedIds order t := by
  rw [mem_sortedIds_iff]
  rw [RunTables.runRow] at h
  split_ifs at h with hid
  obtain ⟨hmem, hrow⟩ := List.mem_filter.mp (List.mem_of_getLast? h)
  exact ⟨hid, .inl ⟨row, hmem, by simpa using hrow⟩⟩

theorem noneMisread_of_ordered (htimes : t.UtcTimes)
    (h : (list order t modelPrices).Pairwise RunTables.Precedes) : t.NoneMisread := by
  intro a b hne row row' hrow hrow' u v hu hv hmisread
  have hseen : (summary t modelPrices a).lastSeen = some u.toText := by
    rw [summary_lastSeen, hrow, Option.bind_some, hu]
  have hseen' : (summary t modelPrices b).lastSeen = some v.toText := by
    rw [summary_lastSeen, hrow', Option.bind_some, hv]
  rw [list, List.pairwise_map] at h
  rcases either_of_pairwise ((sortedIds_descending order t).and h) (mem_sortedIds_of_runRow hrow)
    (mem_sortedIds_of_runRow hrow') hne with ⟨-, hprecedes⟩ | ⟨hdescending, -⟩
  · exact absurd hmisread.2.2.2 (not_lt_of_ge ((hprecedes v hseen').2 u hseen))
  · rw [sortKey_eq htimes modelPrices, sortKey_eq htimes modelPrices, hseen, hseen'] at hdescending
    exact absurd hmisread.toText_lt (not_lt_of_ge hdescending)

end Order

theorem list_once (order : SetOrder) (t : RunTables) (modelPrices : Dict Rate) :
    ((list order t modelPrices).map RunSummary.runId).Nodup := by
  rw [list_runIds]
  exact nodup_sortedIds order t

theorem list_complete (order : SetOrder) (t : RunTables) (modelPrices : Dict Rate)
    (runId : String) :
    runId ∈ (list order t modelPrices).map RunSummary.runId ↔ t.Listed runId := by
  rw [list_runIds, mem_sortedIds_iff]

theorem list_exact (order : SetOrder) (modelPrices : Dict Rate) (h : t.DistinctCosts) :
    ∀ item ∈ list order t modelPrices, item = t.joined modelPrices item.runId := by
  intro item hitem
  obtain ⟨runId, hid, rfl⟩ := List.mem_map.mp hitem
  exact summary_eq h (mem_sortedIds_iff.mp hid).1

theorem list_ordered (order : SetOrder) (modelPrices : Dict Rate) (htimes : t.UtcTimes)
    (hnone : t.NoneMisread) : (list order t modelPrices).Pairwise RunTables.Precedes := by
  rw [list, List.pairwise_map]
  have hnodup : (sortedIds order t).Pairwise (· ≠ ·) := nodup_sortedIds order t
  refine ((sortedIds_descending order t).and hnodup).imp fun {a b} hpair => ?_
  exact precedes_of_descending htimes hnone hpair.2 hpair.1

theorem listing_lossless_iff (order : SetOrder) (t : RunTables) (modelPrices : Dict Rate)
    (htimes : t.UtcTimes) (hcosts : t.DistinctCosts) :
    t.Lossless modelPrices (list order t modelPrices) ↔ t.NoneMisread := by
  constructor
  · intro h
    exact noneMisread_of_ordered htimes h.ordered
  · intro hnone
    exact ⟨list_once order t modelPrices, list_complete order t modelPrices,
      list_exact order modelPrices hcosts, list_ordered order modelPrices htimes hnone⟩

section Example

def firstSeen : SetOrder := ⟨List.dedup, fun _ => .refl _⟩

theorem newYear_valid : Valid 2026 1 1 := by decide

def newYear (time : Clock) : DateTime := ⟨⟨2026, 1, 1, newYear_valid⟩, time⟩

def wholeSecond : UtcText := ⟨newYear .midnight, [], .zulu, rfl, List.forall_mem_nil _⟩

def halfSecond : UtcText := ⟨newYear .midnight, ['5'], .zulu, rfl, by decide⟩

def twoMinutes : UtcText :=
  ⟨newYear ⟨0, 2, 0, 0, by decide⟩, [], .zulu, rfl, List.forall_mem_nil _⟩

def run (runId lastSeen : String) : RunRow :=
  ⟨some runId, some lastSeen, some 3, ["noc-agent"], some 4⟩

def sample : RunTables where
  runs := [run "run-1" "2026-01-01T00:02:00Z", run "run-2" "2026-01-01T00:00:00.5Z"]
  costs := [⟨some "run-1", some "gpt-5.4", some "prompt", some 1000⟩,
    ⟨some "run-3", some "gpt-5.4", some "completion", some 500⟩]
  halts := [⟨some "2026-01-01T00:03:00Z", some "run-1", some "step_cap"⟩]

theorem sample_utcTimes : sample.UtcTimes := by
  intro row hrow
  rcases List.mem_pair.mp hrow with rfl | rfl
  · exact ⟨twoMinutes, by decide +kernel⟩
  · exact ⟨halfSecond, by decide +kernel⟩

theorem sample_seen {row : RunRow} (hrow : row ∈ sample.runs) {u : UtcText}
    (hu : row.lastSeen = some u.toText) :
    u.toText = "2026-01-01T00:02:00Z" ∨ u.toText = "2026-01-01T00:00:00.5Z" := by
  rcases List.mem_pair.mp hrow with rfl | rfl
  · exact .inl (Option.some.inj hu).symm
  · exact .inr (Option.some.inj hu).symm

theorem sample_noneMisread : sample.NoneMisread := by
  intro a b _ row row' hrow hrow' u v hu hv hmisread
  have htake := hmisread.take_eq
  have hne := hmisread.toText_ne
  rcases sample_seen (mem_of_runRow hrow) hu with hu | hu <;>
    rcases sample_seen (mem_of_runRow hrow') hv with hv | hv
  · exact hne (hu.trans hv.symm)
  · rw [hu, hv] at htake
    revert htake
    decide +kernel
  · rw [hu, hv] at htake
    revert htake
    decide +kernel
  · exact hne (hu.trans hv.symm)

theorem sample_listed_losslessly : sample.Lossless ∅ (list firstSeen sample ∅) :=
  (listing_lossless_iff firstSeen sample ∅ sample_utcTimes (by decide +kernel)).mpr
    sample_noneMisread

def tied : RunTables where
  runs := [run "run-1" "2026-01-01T00:00:00Z", run "run-2" "2026-01-01T00:00:00.5Z"]

theorem tied_utcTimes : tied.UtcTimes := by
  intro row hrow
  rcases List.mem_pair.mp hrow with rfl | rfl
  · exact ⟨wholeSecond, by decide +kernel⟩
  · exact ⟨halfSecond, by decide +kernel⟩

theorem wholeSecond_misread : wholeSecond.Misread halfSecond :=
  ⟨rfl, rfl, List.nil_prefix, by decide +kernel⟩

theorem later_run_listed_last :
    tied.UtcTimes ∧ tied.DistinctCosts ∧
      (list firstSeen tied ∅).map RunSummary.runId = ["run-1", "run-2"] ∧
      wholeSecond.instant < halfSecond.instant ∧
      ¬ tied.Lossless ∅ (list firstSeen tied ∅) := by
  refine ⟨tied_utcTimes, by decide +kernel, by decide +kernel, wholeSecond_misread.2.2.2,
    fun h => ?_⟩
  have hnone := noneMisread_of_ordered tied_utcTimes h.ordered
  exact hnone "run-1" "run-2" (by decide) _ _ rfl rfl wholeSecond halfSecond (by decide +kernel)
    (by decide +kernel) wholeSecond_misread

end Example

end RunsQuery
end AdminUi
