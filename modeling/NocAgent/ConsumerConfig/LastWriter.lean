import NocAgent.ConsumerConfig.Budget
import NocAgent.Library.Trace

namespace ConsumerConfig
open Pricing

-- An admin PUT or an evaluation by the worker, which one after another have the container alone.
inductive Operation where
  | put (consumer : String) (incoming : ConsumerConfigRequest)
  | evaluate (query : UsageQuery) (pricing : Dict Rate) (nowIso : String)

-- The container, and for each consumer the accepted bodies, newest first.
structure Edits where
  container : Container
  accepted : String → List ConsumerConfigRequest

def operatorFields (doc : Option Doc) : ConsumerConfigRequest where
  allowedModels := doc.bind (·.allowedModels)
  tier := doc.bind (·.tier)
  dailyBudget := doc.bind (·.dailyBudget)
  dailyBudgetUsd := doc.bind (·.dailyBudgetUsd)
  downgradeLadder := doc.bind (·.downgradeLadder)

def latest (bodies : List ConsumerConfigRequest) : ConsumerConfigRequest where
  allowedModels := bodies.findSome? (·.allowedModels)
  tier := bodies.findSome? (·.tier)
  dailyBudget := bodies.findSome? (·.dailyBudget)
  dailyBudgetUsd := bodies.findSome? (·.dailyBudgetUsd)
  downgradeLadder := bodies.findSome? (·.downgradeLadder)

def downgradeOf (doc : Option Doc) : Option ActiveDowngrade := doc.bind (·.activeDowngrade)

def ConsumerConfigRequest.over (incoming old : ConsumerConfigRequest) : ConsumerConfigRequest where
  allowedModels := incoming.allowedModels.or old.allowedModels
  tier := incoming.tier.or old.tier
  dailyBudget := incoming.dailyBudget.or old.dailyBudget
  dailyBudgetUsd := incoming.dailyBudgetUsd.or old.dailyBudgetUsd
  downgradeLadder := incoming.downgradeLadder.or old.downgradeLadder

theorem latest_cons (incoming : ConsumerConfigRequest) (bodies : List ConsumerConfigRequest) :
    latest (incoming :: bodies) = incoming.over (latest bodies) := by
  have hcons {α : Type} (f : ConsumerConfigRequest → Option α) :
      (incoming :: bodies).findSome? f = (f incoming).or (bodies.findSome? f) := by
    rw [List.findSome?_cons]
    cases f incoming <;> rfl
  simp only [latest, ConsumerConfigRequest.over, hcons]

theorem operatorFields_merged (existing : Option Doc) (consumer : String)
    (incoming : ConsumerConfigRequest) :
    operatorFields (some (mergedDoc existing consumer incoming)) =
      incoming.over (operatorFields existing) := rfl

theorem downgradeOf_merged (existing : Option Doc) (consumer : String)
    (incoming : ConsumerConfigRequest) :
    downgradeOf (some (mergedDoc existing consumer incoming)) = downgradeOf existing := rfl

theorem operatorFields_evaluated (usage : Usage) (pricing : Dict Rate) (nowIso : String)
    (doc : Option Doc) :
    operatorFields (doc.map (evaluated usage pricing nowIso)) = operatorFields doc := by
  cases doc with
  | none => rfl
  | some doc =>
    obtain ⟨activeDowngrade, hdoc⟩ :=
      evaluated_eq usage pricing nowIso doc
    rw [Option.map_some, hdoc]
    rfl

theorem WellFormed.sync {c : Container} (hc : WellFormed c) (query : UsageQuery)
    (pricing : Dict Rate) (nowIso : String) :
    WellFormed (syncBudgetDowngrades query pricing nowIso c) := by
  rw [syncBudgetDowngrades_eq]
  cases queryUsage query with
  | error e => exact hc
  | ok usage =>
    intro id doc' h
    simp only [lookup_upserts hc, Option.map_eq_some_iff] at h
    obtain ⟨doc, hdoc, rfl⟩ := h
    obtain ⟨consumer, hid, hfiled⟩ := hc id doc hdoc
    exact ⟨consumer, hid, hfiled.evaluated⟩

theorem operatorFields_sync {c : Container} (hc : WellFormed c) (query : UsageQuery)
    (pricing : Dict Rate) (nowIso : String) (consumer : String) :
    operatorFields
        (ConsumerConfigStore.get (syncBudgetDowngrades query pricing nowIso c) consumer) =
      operatorFields (ConsumerConfigStore.get c consumer) := by
  rw [syncBudgetDowngrades_eq]
  cases queryUsage query with
  | error e => rfl
  | ok usage =>
    simp only [ConsumerConfigStore.get, lookup_upserts hc]
    exact operatorFields_evaluated ..

namespace Edits
variable (s : Settings)

def init : Edits := ⟨∅, fun _ => []⟩

def step (e : Edits) : Operation → Edits
  | .put consumer incoming =>
    let result := putConsumerConfig s e.container consumer incoming
    { container := result.1
      accepted :=
        match result.2 with
        | .ok _ =>
          Function.update e.accepted consumer (incoming :: e.accepted consumer)
        | .error _ => e.accepted }
  | .evaluate query pricing nowIso =>
    { e with container := syncBudgetDowngrades query pricing nowIso e.container }

structure LastWriterWins (e : Edits) : Prop where
  fields : ∀ consumer,
    operatorFields (ConsumerConfigStore.get e.container consumer) = latest (e.accepted consumer)
  filed : ∀ consumer doc, ConsumerConfigStore.get e.container consumer = some doc →
    doc.FiledUnder consumer

def PutKeeps (e : Edits) : Operation → Prop
  | .put consumer incoming =>
    (∀ named, downgradeOf (ConsumerConfigStore.get
        (e.step s (.put consumer incoming)).container named) =
      downgradeOf (ConsumerConfigStore.get e.container named)) ∧
    ∀ rejection, (putConsumerConfig s e.container consumer incoming).2 = .error rejection →
      rejection.statusCode = 400 ∧ (e.step s (.put consumer incoming)).container = e.container
  | .evaluate .. => True

structure Sound (e : Edits) : Prop where
  wellFormed : WellFormed e.container
  fields : ∀ consumer,
    operatorFields (ConsumerConfigStore.get e.container consumer) = latest (e.accepted consumer)

variable {s} {e : Edits}

theorem init_sound : init.Sound where
  wellFormed := .empty
  fields _ := rfl

theorem Sound.step (h : e.Sound) (op : Operation) : (e.step s op).Sound := by
  cases op with
  | put consumer incoming =>
    rcases putConsumerConfig_cases s e.container consumer incoming with
      ⟨detail, hresult⟩ | ⟨saved, hresult⟩
    · simp only [Edits.step, hresult]
      exact h
    · simp only [Edits.step, hresult]
      refine ⟨h.wellFormed.upsertItem (mergedDoc_filedUnder consumer incoming _), fun named => ?_⟩
      simp only [get_upsertItem _ _ (mergedDoc_filedUnder consumer incoming _).id,
        Function.update_apply]
      split_ifs with hnamed
      · rw [operatorFields_merged, latest_cons, h.fields consumer]
      · exact h.fields named
  | evaluate query pricing nowIso =>
    refine ⟨h.wellFormed.sync query pricing nowIso, fun consumer => ?_⟩
    exact (operatorFields_sync h.wellFormed ..).trans (h.fields consumer)

theorem putKeeps (e : Edits) (op : Operation) : e.PutKeeps s op := by
  cases op with
  | evaluate query pricing nowIso => trivial
  | put consumer incoming =>
    rcases putConsumerConfig_cases s e.container consumer incoming with
      ⟨detail, hresult⟩ | ⟨saved, hresult⟩
    · refine ⟨fun named => ?_, fun rejection hrejection => ?_⟩
      · simp only [step, hresult]
      · rw [hresult] at hrejection
        cases hrejection
        exact ⟨rfl, by simp only [step, hresult]⟩
    · refine ⟨fun named => ?_, fun rejection hrejection => ?_⟩
      · simp only [step, hresult, get_upsertItem _ _ (mergedDoc_filedUnder consumer incoming _).id]
        split_ifs with hnamed
        · rw [hnamed, downgradeOf_merged]
        · rfl
      · rw [hresult] at hrejection
        cases hrejection

theorem last_writer_wins (s : Settings) (ops : List Operation) :
    Trace.Always (step s) LastWriterWins init ops ∧ Trace.Along (step s) (PutKeeps s) init ops := by
  constructor
  · have hsound : Trace.Always (step s) Sound init ops :=
      Trace.always_of_invariant (fun _ op h _ => h.step op) init_sound (Trace.along_trivial _ _)
    intro before after hops
    have h := hsound before after hops
    refine ⟨h.fields, fun consumer doc hdoc => ?_⟩
    obtain ⟨named, hid, hfiled⟩ := h.wellFormed _ _ hdoc
    rw [docId_injective hid]
    exact hfiled
  · exact Trace.along_of_forall fun op _ e => e.putKeeps op

end Edits

end ConsumerConfig
