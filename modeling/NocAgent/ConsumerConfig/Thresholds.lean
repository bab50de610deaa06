import NocAgent.ConsumerConfig.FailSafe

namespace ConsumerConfig
open Pricing HalfEven

-- The part of the budget from which a level is given, as exact rounding to four digits has it.
def Reaches (share : ℚ) : ℕ → Prop
  | 0 => True
  | 1 => 79995 / 100000 ≤ share
  | 2 => 99995 / 100000 ≤ share
  | _ => False

theorem le_levelFor_iff (share : ℚ) (level : ℕ) :
    level ≤ levelFor (roundTo 4 share) ↔ Reaches share level := by
  have hfull : 1 ≤ roundTo 4 share ↔ 99995 / 100000 ≤ share := by
    have h := le_roundTo_iff_of_even 4 (n := 10000) rfl share
    norm_num at h ⊢
    exact h
  have hmost : 8 / 10 ≤ roundTo 4 share ↔ 79995 / 100000 ≤ share := by
    have h := le_roundTo_iff_of_even 4 (n := 8000) rfl share
    norm_num at h ⊢
    exact h
  match level with
  | 0 => exact iff_of_true (Nat.zero_le _) trivial
  | 1 =>
    rw [Reaches, ← hmost, levelFor]
    split_ifs with h1 h2
    · exact iff_of_true (by omega) (by linarith)
    · exact iff_of_true (by omega) h2
    · exact iff_of_false (by omega) h2
  | 2 =>
    rw [Reaches, ← hfull, levelFor]
    split_ifs with h1 h2
    · exact iff_of_true (by omega) h1
    · exact iff_of_false (by omega) h1
    · exact iff_of_false (by omega) h1
  | n + 3 =>
    refine iff_of_false ?_ id
    rw [levelFor]
    split_ifs <;> omega

def total (modelUsage : Dict Tokens) (pricing : Dict Rate) : ℚ :=
  modelUsage.items.foldl (fun total entry =>
    match pricing.lookup entry.1 with
    | none => total
    | some rate =>
      total + entry.2.prompt / 1000 * rate.prompt + entry.2.completion / 1000 * rate.completion) 0

def exactCost (usage : Usage) (pricing : Dict Rate) (consumer : String) : ℚ :=
  total ((usage.lookup consumer).getD ∅) pricing

structure ExactLevel (spent budget : ℚ) (level : ℕ) : Prop where
  full : level = 2 ↔ budget ≤ spent
  most : level = 1 ↔ 8 / 10 * budget ≤ spent ∧ spent < budget
  normal : level = 0 ↔ spent < 8 / 10 * budget

-- The millionths of a dollar that count as the share of the budget.
def crossing (share budget : ℚ) : ℤ := ⌈(share - 5 / 100000) * budget * 10 ^ 6⌉

def Crosses (share budget spent : ℚ) : Prop := RoundsTo (crossing share budget) (spent * 10 ^ 6)

instance (share budget spent : ℚ) : Decidable (Crosses share budget spent) :=
  inferInstanceAs (Decidable (RoundsTo _ _))

def Between (share budget spent : ℚ) : Prop :=
  spent < share * budget ∧ Crosses share budget spent ∨
    share * budget ≤ spent ∧ ¬ Crosses share budget spent

instance (share budget spent : ℚ) : Decidable (Between share budget spent) :=
  inferInstanceAs (Decidable (_ ∨ _))

section Thresholds
variable {budget spent : ℚ}

theorem reaches_iff (hbudget : 0 < budget) (share : ℚ) :
    share - 5 / 100000 ≤ roundTo 6 spent / budget ↔ Crosses share budget spent := by
  rw [le_div_iff₀ hbudget, le_roundTo_iff]
  rfl

theorem two_le_level_iff (hbudget : 0 < budget) :
    2 ≤ levelFor (roundTo 4 (roundTo 6 spent / budget)) ↔ Crosses 1 budget spent := by
  rw [le_levelFor_iff, Reaches, ← reaches_iff hbudget]
  norm_num

theorem one_le_level_iff (hbudget : 0 < budget) :
    1 ≤ levelFor (roundTo 4 (roundTo 6 spent / budget)) ↔ Crosses (8 / 10) budget spent := by
  rw [le_levelFor_iff, Reaches, ← reaches_iff hbudget]
  norm_num

theorem levelFor_le (share : ℚ) : levelFor share ≤ 2 := by
  rw [levelFor]
  split_ifs <;> omega

theorem crosses_iff_of_not_between {share : ℚ} :
    (Crosses share budget spent ↔ share * budget ≤ spent) ↔ ¬ Between share budget spent := by
  rw [Between, ← not_le]
  tauto

theorem exactLevel_iff {level : ℕ} (hlevel : level ≤ 2) :
    ExactLevel spent budget level ↔
      (2 ≤ level ↔ budget ≤ spent) ∧ (1 ≤ level ↔ 8 / 10 * budget ≤ spent) := by
  constructor
  · rintro ⟨hfull, hmost, hnormal⟩
    refine ⟨⟨fun h => hfull.mp (by omega), fun h => (hfull.mpr h).ge⟩, ?_⟩
    rw [← not_lt (a := spent), ← hnormal]
    omega
  · rintro ⟨hfull, hmost⟩
    refine ⟨?_, ?_, ?_⟩
    · rw [← hfull]
      omega
    · rw [← hmost, ← not_le, ← hfull]
      omega
    · rw [← not_le, ← hmost]
      omega

end Thresholds

section Assigned
variable {usage : Usage} {pricing : Dict Rate} {nowIso : String} {docs : List Doc} {doc doc' : Doc}
  {consumer : String} {budgetUsd : ℚ}

theorem lookup_of_only (hmem : doc ∈ docs) (hconsumer : given doc.consumer = some consumer)
    (honly : ∀ other ∈ docs, given other.consumer = some consumer → other = doc) :
    (evaluateDowngrades usage pricing nowIso docs).lookup consumer =
      (evaluateDowngrade usage pricing nowIso doc).map Prod.snd := by
  have hentry : ∀ entry ∈ docs.filterMap (evaluateDowngrade usage pricing nowIso),
      entry.1 = consumer → evaluateDowngrade usage pricing nowIso doc = some entry := by
    rintro ⟨named, doc'⟩ hentry rfl
    obtain ⟨other, hother, hevaluate⟩ := List.mem_filterMap.mp hentry
    rwa [← honly other hother (given_of_evaluateDowngrade hevaluate)]
  rw [evaluateDowngrades, Dict.lookup_setAll_last, AList.lookup_empty, Option.or_none]
  cases hlast : ((docs.filterMap (evaluateDowngrade usage pricing nowIso)).filter
      (·.1 = consumer)).getLast? with
  | some entry =>
    have hfiltered := List.mem_filter.mp (List.mem_of_getLast? hlast)
    rw [hentry entry hfiltered.1 (by simpa using hfiltered.2)]
  | none =>
    cases hevaluate : evaluateDowngrade usage pricing nowIso doc with
    | none => rfl
    | some entry =>
      have hsame : entry.1 = consumer :=
        Option.some.inj ((given_of_evaluateDowngrade hevaluate).symm.trans hconsumer)
      have hmem' : entry ∈ (docs.filterMap (evaluateDowngrade usage pricing nowIso)).filter
          (·.1 = consumer) :=
        List.mem_filter.mpr ⟨List.mem_filterMap.mpr ⟨doc, hmem, hevaluate⟩, by simpa using hsame⟩
      rw [List.getLast?_eq_none_iff.mp hlast] at hmem'
      cases hmem'

def assignedLevel (usage : Usage) (pricing : Dict Rate) (nowIso : String) (docs : List Doc)
    (doc : Doc) (consumer : String) : ℕ :=
  (((evaluateDowngrades usage pricing nowIso docs).lookup consumer).getD doc).level

theorem exact_level_iff (hmem : doc ∈ docs) (hdoc : doc.Budgeted consumer budgetUsd)
    (honly : ∀ other ∈ docs, given other.consumer = some consumer → other = doc)
    (hbudget : 0 < budgetUsd) :
    ExactLevel (exactCost usage pricing consumer) budgetUsd
        (assignedLevel usage pricing nowIso docs doc consumer) ↔
      ∀ share ∈ [8 / 10, 1], ¬ Between share budgetUsd (exactCost usage pricing consumer) := by
  have hlevel : assignedLevel usage pricing nowIso docs doc consumer =
      levelFor (roundTo 4 (roundTo 6 (exactCost usage pricing consumer) / budgetUsd)) := by
    rw [assignedLevel, lookup_of_only hmem hdoc.consumer honly]
    exact level_evaluated hdoc
  rw [hlevel, exactLevel_iff (levelFor_le _), two_le_level_iff hbudget,
    one_le_level_iff hbudget, List.forall_mem_cons, List.forall_mem_singleton,
    ← crosses_iff_of_not_between, ← crosses_iff_of_not_between, one_mul, and_comm]

end Assigned

section Example

def ladderDoc : Doc :=
  mergedDoc none "team-a" { dailyBudgetUsd := some 1, downgradeLadder := some ["gpt-5.4-mini"] }

def pricedModel : Dict Rate := AList.singleton "gpt-5.4" ⟨25 / 10000, 15 / 1000⟩

def promptTokens (n : ℤ) : Usage := AList.singleton "team-a" (AList.singleton "gpt-5.4" ⟨n, 0⟩)

theorem ladderDoc_budgeted : ladderDoc.Budgeted "team-a" 1 :=
  ⟨rfl, rfl, one_ne_zero, ["gpt-5.4-mini"], rfl, by decide⟩

theorem exact_level_at_budget :
    ExactLevel (exactCost (promptTokens 400000) pricedModel "team-a") 1
      (assignedLevel (promptTokens 400000) pricedModel "now" [ladderDoc] ladderDoc "team-a") := by
  refine (exact_level_iff List.mem_cons_self ladderDoc_budgeted (fun other hother _ => ?_)
    one_pos).mpr ?_
  · exact List.mem_singleton.mp hother
  · decide +kernel

-- 319984 prompt tokens cost 0.79996 dollars.
theorem level_one_below_share :
    exactCost (promptTokens 319984) pricedModel "team-a" = 79996 / 100000 ∧
      assignedLevel (promptTokens 319984) pricedModel "now" [ladderDoc] ladderDoc "team-a" = 1 ∧
      ¬ ExactLevel (exactCost (promptTokens 319984) pricedModel "team-a") 1
        (assignedLevel (promptTokens 319984) pricedModel "now" [ladderDoc] ladderDoc
          "team-a") := by
  have hcost : exactCost (promptTokens 319984) pricedModel "team-a" = 79996 / 100000 := by
    decide +kernel
  have hlevel : assignedLevel (promptTokens 319984) pricedModel "now" [ladderDoc] ladderDoc
      "team-a" = 1 := by decide +kernel
  refine ⟨hcost, hlevel, fun h => ?_⟩
  have hmost := (h.most.mp hlevel).1
  rw [hcost] at hmost
  norm_num at hmost

end Example

end ConsumerConfig
