import NocAgent.Pricing.ModelsPricing
import NocAgent.Library.Trace

namespace Pricing

-- The store beside the table of the latest accepted refresh, empty before the first one.
structure History where
  site : Site
  source : Dict Rate

def Call.overrides (call : Call) : Dict Rate :=
  (pricingOverrides call.body).filterMap PriceOverrideRequest.clean

-- Read off the call alone: its table is there and every override stays positive when rounded.
def Call.Acceptable (azureLocation : Option String) (site : Site) (call : Call) : Prop :=
  Usable (pricingOverrides call.body) ∧
    (call.kind = .refresh → ∃ table, call.fetched azureLocation site = .ok table)

section Respond
variable (azureLocation : Option String) {site : Site} {call : Call}

theorem pricingPut_of_usable (hkind : call.kind = .put) (h : Usable (pricingOverrides call.body)) :
    ∃ doc, call.respond azureLocation site = .ok doc ∧ doc.sourceModels = some site.get.base ∧
      doc.overrides.Same call.overrides ∧ Settled doc.overrides ∧
        doc.models.Same (site.get.base.update call.overrides) := by
  obtain ⟨doc, hsave, hsource, hoverrides, hmodels⟩ :=
    saveDoc_of_usable site.get (call.region azureLocation site) call.now site.get.base h
  refine ⟨doc, ?_, hsource, ?_, ?_, ?_⟩
  · rw [Call.respond, hkind]
    simp only [pricingPut, hsave]
    rfl
  · rw [hoverrides]
    exact Dict.Same.refl _
  · rw [hoverrides]
    exact h.settled
  · rw [hmodels]
    exact (Dict.Same.refl _).update h.settled.clean_same

theorem pricingRefresh_of_usable (hkind : call.kind = .refresh)
    (h : Usable (pricingOverrides call.body)) {table : Dict Rate}
    (htable : call.fetched azureLocation site = .ok table) :
    ∃ doc, call.respond azureLocation site = .ok doc ∧ doc.sourceModels = some table ∧
      doc.overrides.Same call.overrides ∧ Settled doc.overrides ∧
        doc.models.Same (table.update call.overrides) := by
  obtain ⟨preview, hpreview, hregion, htables, hfinal⟩ :=
    previewRefresh_of_usable (call.region azureLocation site) table h htable
  have husable := h.settled.usable
  obtain ⟨doc, hsave, hsource, hoverrides, hmodels⟩ :=
    saveDoc_of_usable site.get (call.region azureLocation site) call.now table husable
  refine ⟨doc, ?_, hsource, ?_, ?_, ?_⟩
  · rw [Call.respond, hkind]
    simp only [pricingRefresh, hpreview, bind, Except.bind, hregion, htables, hfinal, hsave]
    rfl
  · rw [hoverrides]
    exact h.settled.clean_same
  · rw [hoverrides]
    exact husable.settled
  · rw [hmodels]
    exact (Dict.Same.refl _).update (husable.settled.clean_same.trans h.settled.clean_same)

theorem respond_of_not_acceptable (h : ¬ call.Acceptable azureLocation site) :
    ∃ failure, call.respond azureLocation site = .error failure := by
  rw [Call.respond]
  cases hkind : call.kind with
  | put =>
    have husable : ¬ Usable (pricingOverrides call.body) := by
      intro husable
      refine h ⟨husable, fun hrefresh => ?_⟩
      rw [hkind] at hrefresh
      cases hrefresh
    obtain ⟨e, he⟩ := saveDoc_of_not_usable site.get (call.region azureLocation site) call.now
      site.get.base husable
    simp only [pricingPut, he]
    exact ⟨_, rfl⟩
  | refresh =>
    by_cases husable : Usable (pricingOverrides call.body)
    · simp only [pricingRefresh]
      cases hfetched : call.fetched azureLocation site with
      | error fault => exact ⟨_, rfl⟩
      | ok table => exact absurd ⟨husable, fun _ => ⟨table, hfetched⟩⟩ h
    · obtain ⟨failure, hpreview⟩ := previewRefresh_of_not_usable
        (call.region azureLocation site) husable (call.fetched azureLocation site)
      simp only [pricingRefresh, hpreview]
      exact ⟨_, rfl⟩

end Respond

namespace History
variable (azureLocation : Option String)

def init (prices : Dict Rate) : History := ⟨⟨none, prices⟩, ∅⟩

def sourceAfter (h : History) (call : Call) : Dict Rate :=
  match call.kind, call.fetched azureLocation h.site with
  | .refresh, .ok table => table
  | _, _ => h.source

def step (h : History) (call : Call) : History where
  site := h.site.handle azureLocation call
  source :=
    match call.respond azureLocation h.site with
    | .ok _ => h.sourceAfter azureLocation call
    | .error _ => h.source

def Effective (h : History) (call : Call) : Prop :=
  match call.respond azureLocation h.site with
  | .ok _ => (h.step azureLocation call).site.get.models.Same
      ((h.sourceAfter azureLocation call).update call.overrides)
  | .error _ => (h.step azureLocation call).site = h.site

-- Whatever overrides a PUT leaves out or brings in, it would be effective now.
def Reverts (h : History) : Prop :=
  ∀ call : Call, call.kind = .put → h.Effective azureLocation call

def Resubmits (h : History) : Prop :=
  ∀ call : Call, call.kind = .put →
    (pricingOverrides call.body).Same (asOverrides h.site.get.overrides) →
      (∃ doc, call.respond azureLocation h.site = .ok doc) ∧
        (h.step azureLocation call).site.get.models.Same h.site.get.models

def OnSource (h : History) (call : Call) : Prop :=
  call.Acceptable azureLocation h.site →
    (h.sourceAfter azureLocation call).entries ≠ [] ∨ call.overrides.entries = []

structure Sound (h : History) : Prop where
  base : h.site.get.base.Same h.source
  settled : Settled h.site.get.overrides
  models : h.site.get.models.Same (h.source.update h.site.get.overrides)

section Step
variable {azureLocation} {h : History} {call : Call}

def start (azureLocation : Option String) (h : History) (call : Call) : Dict Rate :=
  match call.kind, call.fetched azureLocation h.site with
  | .refresh, .ok table => table
  | _, _ => h.site.get.base

theorem start_same (azureLocation : Option String) (call : Call)
    (hbase : h.site.get.base.Same h.source) :
    (h.start azureLocation call).Same (h.sourceAfter azureLocation call) := by
  rw [start, sourceAfter]
  split
  · exact Dict.Same.refl _
  · exact hbase

theorem respond_of_acceptable (hcall : call.Acceptable azureLocation h.site) :
    ∃ doc, call.respond azureLocation h.site = .ok doc ∧
      doc.sourceModels = some (h.start azureLocation call) ∧
      doc.overrides.Same call.overrides ∧ Settled doc.overrides ∧
        doc.models.Same ((h.start azureLocation call).update call.overrides) := by
  obtain ⟨husable, hfetched⟩ := hcall
  cases hkind : call.kind with
  | put =>
    have hstart : h.start azureLocation call = h.site.get.base := by rw [start, hkind]
    rw [hstart]
    exact pricingPut_of_usable azureLocation hkind husable
  | refresh =>
    obtain ⟨table, htable⟩ := hfetched hkind
    have hstart : h.start azureLocation call = table := by rw [start, hkind, htable]
    rw [hstart]
    exact pricingRefresh_of_usable azureLocation hkind husable htable

theorem step_of_ok {doc : PricingDoc} (hdoc : call.respond azureLocation h.site = .ok doc) :
    h.step azureLocation call = ⟨.save doc, h.sourceAfter azureLocation call⟩ := by
  simp only [step, Site.handle, hdoc]

theorem step_of_error {failure : Failure}
    (hfailure : call.respond azureLocation h.site = .error failure) :
    h.step azureLocation call = h := by
  simp only [step, Site.handle, hfailure]

theorem effective_of_base (hbase : h.site.get.base.Same h.source) :
    h.Effective azureLocation call := by
  by_cases hcall : call.Acceptable azureLocation h.site
  · obtain ⟨doc, hdoc, -, -, -, hmodels⟩ := respond_of_acceptable hcall
    rw [Effective, hdoc, step_of_ok hdoc]
    exact hmodels.trans ((start_same azureLocation call hbase).update (Dict.Same.refl _))
  · obtain ⟨failure, hfailure⟩ := respond_of_not_acceptable azureLocation hcall
    rw [Effective, hfailure, step_of_error hfailure]

theorem Effective.models (heffective : h.Effective azureLocation call) {doc : PricingDoc}
    (hdoc : call.respond azureLocation h.site = .ok doc) :
    doc.models.Same ((h.sourceAfter azureLocation call).update call.overrides) := by
  rw [Effective, hdoc, step_of_ok hdoc] at heffective
  exact heffective

def withoutOverrides : Call where
  kind := .put
  body := {}
  fetchModelPricing _ := .error (.other "")
  now := ""

theorem base_of_reverts (hreverts : h.Reverts azureLocation) : h.site.get.base.Same h.source := by
  have hnone : withoutOverrides.overrides.entries = [] := rfl
  have hcall : withoutOverrides.Acceptable azureLocation h.site := by
    refine ⟨fun model rate clean hm => ?_, fun hkind => by cases hkind⟩
    exact absurd hm (Dict.lookup_empty_ne model rate)
  obtain ⟨doc, hdoc, -, -, -, hmodels⟩ := respond_of_acceptable hcall
  have heffective := (hreverts withoutOverrides rfl).models hdoc
  exact ((Dict.update_of_entries_nil hnone).symm.trans hmodels.symm).trans
    (heffective.trans (Dict.update_of_entries_nil hnone))

theorem Sound.resubmits (hsound : h.Sound) : h.Resubmits azureLocation := by
  intro call hkind hsame
  have hcall : call.Acceptable azureLocation h.site := by
    refine ⟨hsound.settled.usable.same hsame, fun hrefresh => ?_⟩
    rw [hkind] at hrefresh
    cases hrefresh
  have hoverrides : call.overrides.Same h.site.get.overrides :=
    (hsame.filterMap _).trans hsound.settled.clean_same
  obtain ⟨doc, hdoc, -, -, -, hmodels⟩ := respond_of_acceptable hcall
  refine ⟨⟨doc, hdoc⟩, ?_⟩
  have hsource : h.sourceAfter azureLocation call = h.source := by rw [sourceAfter, hkind]
  rw [step_of_ok hdoc]
  have hstart := start_same azureLocation call hsound.base
  rw [hsource] at hstart
  exact (hmodels.trans (hstart.update hoverrides)).trans hsound.models.symm

theorem base_of_doc {doc : PricingDoc} {table : Dict Rate} (h : doc.sourceModels = some table) :
    doc.base = if table.entries = [] then doc.models else table := by
  rw [PricingDoc.base, h]

theorem Sound.step (hsound : h.Sound) (hcall : h.OnSource azureLocation call) :
    (h.step azureLocation call).Sound := by
  by_cases hacceptable : call.Acceptable azureLocation h.site
  · obtain ⟨doc, hdoc, hsource, hoverrides, hsettled, hmodels⟩ := respond_of_acceptable hacceptable
    have hstart := start_same azureLocation call hsound.base
    rw [step_of_ok hdoc]
    refine ⟨?_, hsettled, hmodels.trans (hstart.update hoverrides.symm)⟩
    change doc.base.Same _
    rw [base_of_doc hsource]
    split_ifs with hempty
    · have hnone := (hcall hacceptable).resolve_left fun h => h (hstart.entries_nil hempty)
      exact (hmodels.trans (Dict.update_of_entries_nil hnone)).trans hstart
    · exact hstart
  · obtain ⟨failure, hfailure⟩ := respond_of_not_acceptable azureLocation hacceptable
    rw [step_of_error hfailure]
    exact hsound

theorem onSource_of_reverts (hreverts : h.Reverts azureLocation)
    (hnext : (h.step azureLocation call).Reverts azureLocation) :
    h.OnSource azureLocation call := by
  intro hacceptable
  by_contra hcontra
  rw [not_or, not_not] at hcontra
  obtain ⟨hempty, hsome⟩ := hcontra
  obtain ⟨doc, hdoc, hsource, -, -, hmodels⟩ := respond_of_acceptable hacceptable
  have hstart : (h.start azureLocation call).entries = [] :=
    (start_same azureLocation call (base_of_reverts hreverts)).symm.entries_nil hempty
  have hbase := base_of_reverts hnext
  rw [step_of_ok hdoc] at hbase
  change doc.base.Same _ at hbase
  rw [base_of_doc hsource, if_pos hstart] at hbase
  have hsame : (h.sourceAfter azureLocation call).Same call.overrides :=
    hbase.symm.trans (hmodels.trans (Dict.entries_nil_update hstart))
  exact hsome (hsame.entries_nil hempty)

end Step

theorem init_sound (prices : Dict Rate) : (init prices).Sound where
  base := Dict.Same.refl _
  settled model rate hm := absurd hm (Dict.lookup_empty_ne model rate)
  models := Dict.Same.refl _

theorem prices_effective_iff (prices : Dict Rate) (calls : List Call) :
    Trace.Along (step azureLocation) (Effective azureLocation) (init prices) calls ∧
        Trace.Always (step azureLocation)
          (fun h => h.Reverts azureLocation ∧ h.Resubmits azureLocation) (init prices) calls ↔
      Trace.Along (step azureLocation) (OnSource azureLocation) (init prices) calls := by
  constructor
  · rintro ⟨-, halways⟩
    rw [Trace.along_iff]
    intro before call after hcalls
    refine onSource_of_reverts (halways before (call :: after) hcalls).1 ?_
    have hnext := halways (before ++ [call]) after (by rw [hcalls, List.append_cons])
    rw [Trace.run_append] at hnext
    exact hnext.1
  · intro halong
    have hsound : Trace.Always (step azureLocation) Sound (init prices) calls :=
      Trace.always_of_invariant (fun _ _ h => h.step) (init_sound prices) halong
    refine ⟨?_, fun before after hcalls => ?_⟩
    · rw [Trace.along_iff]
      intro before call after hcalls
      exact effective_of_base (hsound before (call :: after) hcalls).base
    · have hs := hsound before after hcalls
      exact ⟨fun _ _ => effective_of_base hs.base, hs.resubmits⟩

section Example

def rate : Rate := ⟨3 / 1000, 2 / 100⟩

def putRate : Call :=
  { withoutOverrides with
    body := { overrides := some (AList.singleton "gpt-5.4" (some rate.asOverride)) } }

-- Before any refresh an override is put and then taken out again.
theorem removed_override_stays :
    (Trace.run (step none) (init ∅) [putRate, withoutOverrides]).site.get.models.lookup "gpt-5.4" =
        some rate ∧
      ¬ (Trace.Along (step none) (Effective none) (init ∅) [putRate, withoutOverrides] ∧
        Trace.Always (step none) (fun h => h.Reverts none ∧ h.Resubmits none) (init ∅)
          [putRate, withoutOverrides]) := by
  have hstays : (Trace.run (step none) (init ∅)
      [putRate, withoutOverrides]).site.get.models.lookup "gpt-5.4" = some rate := by
    decide +kernel
  refine ⟨hstays, fun h => ?_⟩
  have hbase := base_of_reverts (h.2 [putRate] [withoutOverrides] rfl).1 "gpt-5.4"
  revert hbase
  decide +kernel

end Example

end History

end Pricing
