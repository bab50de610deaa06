import NocAgent.Pricing.WorkerSync

namespace Pricing
open Fallible

-- preview_refresh with its own default, for a caller that hands it no overrides at all.
def previewRefreshFrom (currentDoc : PricingDoc) (fetched : Except FetchFault (Dict Rate))
    (region : String) (overrides : Option (Dict PriceOverrideRequest)) : Except Failure Preview :=
  previewRefresh fetched region (overrides.getD (asOverrides currentDoc.overrides))

section Calls
variable (azureLocation : Option String) (site : Site) (call : Call)

def pricingPreview : Except Failure Preview :=
  previewRefreshFrom site.get (call.fetched azureLocation site) (call.region azureLocation site)
    (some (pricingOverrides call.body))

def Shows (table overrides : Dict Rate) (answer : Except Failure Preview) : Prop :=
  ∃ preview, answer = .ok preview ∧ preview.models.Same (table.update overrides)

def Stores (table overrides : Dict Rate) (answer : Except Failure PricingDoc) : Prop :=
  ∃ doc, answer = .ok doc ∧ doc.models.Same (table.update overrides) ∧ doc.overrides.Same overrides

def Call.GoesBy {α : Type} (Leaves : Dict Rate → Dict Rate → Except Failure α → Prop)
    (answer : Except Failure α) : Prop :=
  ∀ table, call.fetched azureLocation site = .ok table →
    match call.body.overrides with
    | none => Leaves table site.get.overrides answer
    | some _ =>
      (Usable (pricingOverrides call.body) → Leaves table call.overrides answer) ∧
        (¬ Usable (pricingOverrides call.body) → ∃ failure, answer = .error failure)

def PreviewKeeps : Prop :=
  call.GoesBy azureLocation site Shows (pricingPreview azureLocation site call)

def RefreshKeeps : Prop :=
  call.GoesBy azureLocation site Stores (pricingRefresh azureLocation site call)

def StoredAreFetched : Prop :=
  call.body.overrides = none → ∀ table, call.fetched azureLocation site = .ok table →
    ∀ model rate, site.get.overrides.lookup model = some rate → table.lookup model = some rate

def NoneStored : Prop :=
  call.body.overrides = none → ∀ table, call.fetched azureLocation site = .ok table →
    site.get.overrides.entries = []

end Calls

section Kept
variable {azureLocation : Option String} {site : Site} {call : Call} {table : Dict Rate}

theorem pricingRefresh_eq : pricingRefresh azureLocation site call =
    (pricingPreview azureLocation site call >>= fun preview =>
      (saveDoc site.get preview.region preview.sourceModels (asOverrides preview.overrides)
        call.now).mapError (.http 400)) := rfl

theorem previewRefresh_models {fetched : Except FetchFault (Dict Rate)} {region : String}
    {overrides : Dict PriceOverrideRequest} {preview : Preview}
    (h : previewRefresh fetched region overrides = .ok preview) :
    applyOverrides preview.sourceModels (asOverrides preview.overrides) = .ok preview.models := by
  obtain ⟨sourceModels, -, h⟩ := ok_of_bind h
  obtain ⟨finalOverrides, -, h⟩ := ok_of_bind h
  obtain ⟨nextModels, hmodels, h⟩ := ok_of_bind h
  cases h
  exact ok_of_mapError hmodels

theorem shows_of_usable {overrides : Dict PriceOverrideRequest} (h : Usable overrides)
    {fetched : Except FetchFault (Dict Rate)} (hfetched : fetched = .ok table) (region : String) :
    Shows table (overrides.filterMap PriceOverrideRequest.clean)
      (previewRefresh fetched region overrides) := by
  obtain ⟨preview, hpreview, -, htable, hfinal⟩ := previewRefresh_of_usable region table h hfetched
  have hmodels := previewRefresh_models hpreview
  rw [htable, hfinal, applyOverrides_of_usable table h.settled.usable, Except.ok.injEq] at hmodels
  refine ⟨preview, hpreview, ?_⟩
  rw [← hmodels]
  exact (Dict.Same.refl _).update h.settled.clean_same

theorem shows_stored (h : Settled site.get.overrides)
    (htable : call.fetched azureLocation site = .ok table) :
    Shows table site.get.overrides (previewRefreshFrom site.get (call.fetched azureLocation site)
      (call.region azureLocation site) none) := by
  obtain ⟨preview, hpreview, hmodels⟩ :=
    shows_of_usable h.usable htable (call.region azureLocation site)
  exact ⟨preview, hpreview, hmodels.trans ((Dict.Same.refl _).update h.clean_same)⟩

theorem pricingPreview_of_usable (h : Usable (pricingOverrides call.body))
    (htable : call.fetched azureLocation site = .ok table) :
    Shows table call.overrides (pricingPreview azureLocation site call) :=
  shows_of_usable h htable _

theorem pricingRefresh_stores (h : Usable (pricingOverrides call.body))
    (htable : call.fetched azureLocation site = .ok table) :
    Stores table call.overrides (pricingRefresh azureLocation site call) := by
  obtain ⟨doc, hdoc, -, hoverrides, -, hmodels⟩ :=
    @pricingRefresh_of_usable azureLocation site { call with kind := .refresh } rfl h table htable
  exact ⟨doc, hdoc, hmodels, hoverrides⟩

theorem pricingPreview_of_not_usable (azureLocation : Option String) (site : Site)
    (h : ¬ Usable (pricingOverrides call.body)) :
    ∃ failure, pricingPreview azureLocation site call = .error failure :=
  previewRefresh_of_not_usable _ h _

theorem pricingRefresh_of_not_usable (h : ¬ Usable (pricingOverrides call.body)) :
    ∃ failure, pricingRefresh azureLocation site call = .error failure := by
  obtain ⟨failure, hfailure⟩ := pricingPreview_of_not_usable azureLocation site h
  rw [pricingRefresh_eq, hfailure]
  exact ⟨failure, rfl⟩

theorem overrides_of_absent (h : call.body.overrides = none) :
    Usable (pricingOverrides call.body) ∧ call.overrides.entries = [] := by
  have hnone : pricingOverrides call.body = ∅ := by rw [pricingOverrides, h]; rfl
  rw [Call.overrides, hnone]
  exact ⟨fun model rate clean hm => absurd hm (Dict.lookup_empty_ne model rate), rfl⟩

theorem same_update_iff {overrides : Dict Rate} : table.Same (table.update overrides) ↔
    ∀ model rate, overrides.lookup model = some rate → table.lookup model = some rate := by
  refine forall_congr' fun model => ?_
  rw [Dict.lookup_update]
  cases overrides.lookup model with
  | none => simp
  | some rate => simp

theorem shows_iff {overrides : Dict Rate} {answer : Except Failure Preview} {preview : Preview}
    (h : answer = .ok preview) :
    Shows table overrides answer ↔ preview.models.Same (table.update overrides) := by
  simp only [Shows, h, Except.ok.injEq, exists_eq_left']

theorem stores_iff {overrides : Dict Rate} {answer : Except Failure PricingDoc} {doc : PricingDoc}
    (h : answer = .ok doc) : Stores table overrides answer ↔
      doc.models.Same (table.update overrides) ∧ doc.overrides.Same overrides := by
  simp only [Stores, h, Except.ok.injEq, exists_eq_left']

theorem previewKeeps_iff :
    PreviewKeeps azureLocation site call ↔ StoredAreFetched azureLocation site call := by
  rw [PreviewKeeps, Call.GoesBy, StoredAreFetched]
  cases hbody : call.body.overrides with
  | some overrides =>
    simp only [reduceCtorEq, false_implies, iff_true]
    exact fun table htable =>
      ⟨fun h => pricingPreview_of_usable h htable,
        pricingPreview_of_not_usable azureLocation site⟩
  | none =>
    simp only [forall_const]
    refine forall₂_congr fun table htable => ?_
    obtain ⟨husable, hnone⟩ := overrides_of_absent hbody
    obtain ⟨preview, hpreview, hmodels⟩ := pricingPreview_of_usable husable htable
    have htable' : preview.models.Same table :=
      hmodels.trans (Dict.update_of_entries_nil hnone)
    rw [shows_iff hpreview, ← same_update_iff]
    exact ⟨htable'.symm.trans, htable'.trans⟩

theorem refreshKeeps_iff :
    RefreshKeeps azureLocation site call ↔ NoneStored azureLocation site call := by
  rw [RefreshKeeps, Call.GoesBy, NoneStored]
  cases hbody : call.body.overrides with
  | some overrides =>
    simp only [reduceCtorEq, false_implies, iff_true]
    exact fun table htable =>
      ⟨fun h => pricingRefresh_stores h htable, pricingRefresh_of_not_usable⟩
  | none =>
    simp only [forall_const]
    refine forall₂_congr fun table htable => ?_
    obtain ⟨husable, hnone⟩ := overrides_of_absent hbody
    obtain ⟨doc, hdoc, hmodels, hoverrides⟩ := pricingRefresh_stores husable htable
    rw [stores_iff hdoc]
    constructor
    · rintro ⟨-, hkept⟩
      exact (hoverrides.symm.trans hkept).entries_nil hnone
    · intro hempty
      have hsame : call.overrides = site.get.overrides := AList.ext (hnone.trans hempty.symm)
      rw [← hsame]
      exact ⟨hmodels, hoverrides⟩

theorem stored_overrides_kept_iff (azureLocation : Option String) (site : Site) (call : Call) :
    (PreviewKeeps azureLocation site call ↔ StoredAreFetched azureLocation site call) ∧
      (RefreshKeeps azureLocation site call ↔ NoneStored azureLocation site call) :=
  ⟨previewKeeps_iff, refreshKeeps_iff⟩

end Kept

section Example

def refreshAgain : Call where
  kind := .refresh
  body := {}
  fetchModelPricing := retailTable
  now := "2026-09-16T12:00:00Z"

theorem refresh_drops_override :
    (Site.handle none ⟨some overridden, ∅⟩ refreshAgain).get.models.lookup "gpt-5.4" =
        some retailRate ∧
      ¬ (∀ site call, PreviewKeeps none site call) ∧
      ¬ ∀ site call, RefreshKeeps none site call := by
  have hstored : (Site.get ⟨some overridden, ∅⟩).overrides.lookup "gpt-5.4" =
      some History.rate := by decide +kernel
  refine ⟨by decide +kernel, fun hall => ?_, fun hall => ?_⟩
  · have hlost := previewKeeps_iff.mp (hall ⟨some overridden, ∅⟩ refreshAgain) rfl _ rfl _ _ hstored
    revert hlost
    decide +kernel
  · have hnone := refreshKeeps_iff.mp (hall ⟨some overridden, ∅⟩ refreshAgain) rfl _ rfl
    have hempty : (Site.get ⟨some overridden, ∅⟩).overrides = ∅ := AList.ext hnone
    rw [hempty] at hstored
    exact Dict.lookup_empty_ne _ _ hstored

end Example

end Pricing
