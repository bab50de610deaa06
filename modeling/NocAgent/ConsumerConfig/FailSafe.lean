import NocAgent.ConsumerConfig.Budget

namespace ConsumerConfig
open Pricing

inductive Shortfall where
  | noWorkspace
  | raised (text : String)
  | incomplete (partialData : Option (List (List Row)))

def Shortfall.query : Shortfall → UsageQuery
  | .noWorkspace => .noWorkspace
  | .raised text => .raised text
  | .incomplete partialData => .incomplete partialData

-- The rows that came are enough to keep every stored level, with the cost and the share of the
-- budget as the program rounds them.
def StillReached (a : Arithmetic) (pricing : Dict Rate) (c : Container) (rows : List Row) : Prop :=
  ∀ id doc consumer budgetUsd, c.lookup id = some doc → doc.Budgeted consumer budgetUsd →
    doc.level ≤ levelFor (a.share (a.cost (shapeUsage rows) pricing consumer) budgetUsd)

def NeverLowers (c c' : Container) : Prop :=
  ∀ id doc doc', c.lookup id = some doc → c'.lookup id = some doc' → doc.level ≤ doc'.level

theorem neverLowers_upserts_iff (a : Arithmetic) {c : Container} (hc : WellFormed c)
    (rows : List Row) (pricing : Dict Rate) (nowIso : String) :
    NeverLowers c ((a.evaluateDowngrades (shapeUsage rows) pricing nowIso
      (queryItems c)).values.foldl upsertItem c) ↔ StillReached a pricing c rows := by
  have hupserts := (a.replaces (shapeUsage rows) pricing nowIso).lookup_upserts hc
  simp only [NeverLowers, Arithmetic.evaluateDowngrades, hupserts, StillReached]
  constructor
  · intro h id doc consumer budgetUsd hdoc hbudgeted
    have hlevel := h id doc _ hdoc (by rw [hdoc, Option.map_some])
    rwa [Arithmetic.level_evaluated hbudgeted] at hlevel
  · intro h id doc doc' hdoc hdoc'
    rw [hdoc, Option.map_some, Option.some.injEq] at hdoc'
    rw [← hdoc']
    by_cases hbudgeted : ∃ consumer budgetUsd, doc.Budgeted consumer budgetUsd
    · obtain ⟨consumer, budgetUsd, hbudgeted⟩ := hbudgeted
      rw [Arithmetic.level_evaluated hbudgeted]
      exact h id doc consumer budgetUsd hdoc hbudgeted
    · rw [Arithmetic.evaluateDowngrade_of_not_budgeted fun consumer budgetUsd h =>
        hbudgeted ⟨consumer, budgetUsd, h⟩]
      exact le_rfl

theorem never_lowers_iff (a : Arithmetic) {c : Container} (hc : WellFormed c)
    (outcome : Shortfall) (pricing : Dict Rate) (nowIso : String) :
    NeverLowers c (a.syncBudgetDowngrades outcome.query pricing nowIso c) ↔
      (∃ text, outcome = .raised text) ∨ StillReached a pricing c outcome.query.rows := by
  cases outcome with
  | raised text =>
    refine iff_of_true (fun id doc doc' hdoc hdoc' => ?_) (.inl ⟨text, rfl⟩)
    have hsame : c.lookup id = some doc' := hdoc'
    rw [hdoc, Option.some.injEq] at hsame
    rw [hsame]
  | noWorkspace =>
    refine (neverLowers_upserts_iff a hc [] pricing nowIso).trans ⟨.inr, ?_⟩
    rintro (⟨text, htext⟩ | h)
    · cases htext
    · exact h
  | incomplete partialData =>
    refine (neverLowers_upserts_iff a hc _ pricing nowIso).trans ⟨.inr, ?_⟩
    rintro (⟨text, htext⟩ | h)
    · cases htext
    · exact h

section Example

def downgradedDoc : Doc where
  id := docId "noc"
  docType := "consumer_config"
  consumer := some "noc"
  dailyBudgetUsd := some 10
  downgradeLadder := some ["gpt-5.4", "gpt-5.4-mini"]
  activeDowngrade := some ⟨2, 12, 12 / 10, "2026-01-01T00:00:00+00:00"⟩

def downgraded : Container := AList.singleton (docId "noc") downgradedDoc

theorem downgraded_wellFormed : WellFormed downgraded := by
  intro id doc h
  have hmem := AList.mem_lookup_iff.mp (Option.mem_def.mpr h)
  rw [downgraded, AList.singleton_entries, List.mem_singleton] at hmem
  cases hmem
  exact ⟨"noc", rfl, rfl, rfl, rfl⟩

def oneRow (tokens : ℚ) : Shortfall :=
  .incomplete (some [[⟨some "noc", some "gpt-5.4", some "prompt", some tokens⟩]])

def dollarPrices : Dict Rate := AList.singleton "gpt-5.4" ⟨1, 1⟩

theorem never_lowers_iff_oneRow : NeverLowers downgraded
    (Arithmetic.exact.syncBudgetDowngrades (oneRow 11000).query dollarPrices
      "2026-01-01T01:00:00+00:00" downgraded) := by
  refine (never_lowers_iff .exact downgraded_wellFormed (oneRow 11000) dollarPrices _).mpr
    (.inr fun id doc consumer budgetUsd hdoc hbudgeted => ?_)
  obtain ⟨rfl, rfl, rfl⟩ : consumer = "noc" ∧ budgetUsd = 10 ∧ doc = downgradedDoc := by
    have hmem := AList.mem_lookup_iff.mp (Option.mem_def.mpr hdoc)
    rw [downgraded, AList.singleton_entries, List.mem_singleton] at hmem
    cases hmem
    exact ⟨(Option.some.inj hbudgeted.consumer).symm, (Option.some.inj hbudgeted.budget).symm, rfl⟩
  decide +kernel

theorem partial_rows_lower_the_level : ¬ NeverLowers downgraded
    (Arithmetic.exact.syncBudgetDowngrades (oneRow 7000).query dollarPrices
      "2026-01-01T01:00:00+00:00" downgraded) := by
  intro h
  have hnext : (Arithmetic.exact.syncBudgetDowngrades (oneRow 7000).query dollarPrices
      "2026-01-01T01:00:00+00:00" downgraded).lookup (docId "noc") =
        some { downgradedDoc with activeDowngrade := none } := by decide +kernel
  have hlevel := h (docId "noc") downgradedDoc _ rfl hnext
  revert hlevel
  decide +kernel

end Example

end ConsumerConfig
