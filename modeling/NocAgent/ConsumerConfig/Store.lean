import NocAgent.Library.Dict
import Mathlib.Algebra.Field.Rat
import Mathlib.Algebra.Order.Ring.Rat

namespace ConsumerConfig

structure ActiveDowngrade where
  level : ℕ
  usageUsd : ℚ
  pct : ℚ
  evaluatedAt : String
deriving DecidableEq

structure Fields where
  allowedModels : Option (List String) := none
  tier : Option String := none
  tokensPerMinute : Option ℤ := none
  tokenQuota : Option ℤ := none
  tokenQuotaPeriod : Option String := none
  dailyBudget : Option ℤ := none
  dailyBudgetUsd : Option ℚ := none
  downgradeLadder : Option (List String) := none
  activeDowngrade : Option ActiveDowngrade := none
deriving DecidableEq

structure Doc extends Fields where
  id : String
  docType : String
  consumer : Option String
deriving DecidableEq

-- The documents of the config container by id.
abbrev Container := Dict Doc

def upsertItem (c : Container) (body : Doc) : Container := c.insert body.id body

def docId (consumer : String) : String := "consumer:" ++ consumer

def PERIODS : List String := ["Hourly", "Daily", "Weekly", "Monthly"]

def TIERS : List String := ["small", "medium", "large"]

def tupleText (options : List String) : String :=
  "(" ++ ", ".intercalate (options.map fun option => "'" ++ option ++ "'") ++ ")"

section Validate

def oneOf (field : String) (options : List String) : Option String → Except String Unit
  | none => pure ()
  | some value =>
    if value ∈ options then pure ()
    else throw (field ++ " '" ++ value ++ "' must be one of " ++ tupleText options)

def positive {α : Type} [Zero α] [LT α] [DecidableLT α] (field kind : String) :
    Option α → Except String Unit
  | none => pure ()
  | some value => if 0 < value then pure () else throw (field ++ " must be a positive " ++ kind)

def knownAliases (validAliases : Option (List String)) : Option (List String) → Except String Unit
  | none => pure ()
  | some models =>
    match validAliases with
    | none => pure ()
    | some known =>
      match models.find? (· ∉ known) with
      | none => pure ()
      | some model => throw ("allowed_models contains unknown alias '" ++ model ++ "'")

def validate (fields : Fields) (validAliases : Option (List String)) : Except String Unit := do
  oneOf "token_quota_period" PERIODS fields.tokenQuotaPeriod
  oneOf "tier" TIERS fields.tier
  positive "tokens_per_minute" "integer" fields.tokensPerMinute
  positive "token_quota" "integer" fields.tokenQuota
  positive "daily_budget" "integer" fields.dailyBudget
  positive "daily_budget_usd" "number" fields.dailyBudgetUsd
  knownAliases validAliases fields.allowedModels

end Validate

namespace ConsumerConfigStore

def get (c : Container) (consumer : String) : Option Doc := c.lookup (docId consumer)

def put (c : Container) (consumer : String) (fields : Fields)
    (validAliases : Option (List String)) : Except String Container := do
  validate fields validAliases
  pure (upsertItem c
    { toFields := fields
      id := docId consumer
      docType := "consumer_config"
      consumer := some consumer })

end ConsumerConfigStore

structure ConsumerConfigRequest where
  allowedModels : Option (List String) := none
  tier : Option String := none
  dailyBudget : Option ℤ := none
  dailyBudgetUsd : Option ℚ := none
  downgradeLadder : Option (List String) := none
deriving DecidableEq

structure Settings where
  allowedModelAliases : List String
  -- What starting the worker job returns, none when no starter is configured.
  jobStarter : Option Bool

structure HTTPException where
  statusCode : ℕ
  detail : String
deriving DecidableEq

structure Saved where
  consumer : String
  saved : Bool
  reevaluationTriggered : Bool
deriving DecidableEq

def kept (existing : Option Doc) : Fields where
  allowedModels := existing.bind (·.allowedModels)
  tier := existing.bind (·.tier)
  dailyBudget := existing.bind (·.dailyBudget)
  dailyBudgetUsd := existing.bind (·.dailyBudgetUsd)
  downgradeLadder := existing.bind (·.downgradeLadder)
  activeDowngrade := existing.bind (·.activeDowngrade)

def Fields.update (fields : Fields) (incoming : ConsumerConfigRequest) : Fields :=
  { fields with
    allowedModels := incoming.allowedModels.or fields.allowedModels
    tier := incoming.tier.or fields.tier
    dailyBudget := incoming.dailyBudget.or fields.dailyBudget
    dailyBudgetUsd := incoming.dailyBudgetUsd.or fields.dailyBudgetUsd
    downgradeLadder := incoming.downgradeLadder.or fields.downgradeLadder }

def Settings.aliases (s : Settings) : Option (List String) :=
  if s.allowedModelAliases = [] then none else some s.allowedModelAliases

def putConsumerConfig (s : Settings) (c : Container) (consumer : String)
    (incoming : ConsumerConfigRequest) : Container × Except HTTPException Saved :=
  if incoming = {} then
    (c, .error ⟨400, "request body must contain at least one field"⟩)
  else
    let merged := (kept (ConsumerConfigStore.get c consumer)).update incoming
    match ConsumerConfigStore.put c consumer merged s.aliases with
    | .error e => (c, .error ⟨400, e⟩)
    | .ok c' =>
      (c', .ok
        { consumer := consumer
          saved := true
          reevaluationTriggered := incoming.dailyBudgetUsd.isSome && s.jobStarter.getD false })

def mergedDoc (existing : Option Doc) (consumer : String) (incoming : ConsumerConfigRequest) :
    Doc where
  toFields := (kept existing).update incoming
  id := docId consumer
  docType := "consumer_config"
  consumer := some consumer

structure Doc.FiledUnder (doc : Doc) (consumer : String) : Prop where
  id : doc.id = docId consumer
  docType : doc.docType = "consumer_config"
  consumer : doc.consumer = some consumer

def WellFormed (c : Container) : Prop :=
  ∀ id doc, c.lookup id = some doc → ∃ consumer, id = docId consumer ∧ doc.FiledUnder consumer

theorem docId_injective {consumer consumer' : String} (h : docId consumer = docId consumer') :
    consumer = consumer' := by
  have hchars := congrArg String.toList h
  rw [docId, docId, String.toList_append, String.toList_append,
    List.append_cancel_left_eq] at hchars
  exact String.toList_injective hchars

section Put
variable (s : Settings) (c : Container) (consumer : String) (incoming : ConsumerConfigRequest)

theorem putConsumerConfig_cases :
    (∃ detail, putConsumerConfig s c consumer incoming = (c, .error ⟨400, detail⟩)) ∨
      ∃ saved, putConsumerConfig s c consumer incoming =
        (upsertItem c (mergedDoc (ConsumerConfigStore.get c consumer) consumer incoming),
          .ok saved) := by
  rw [putConsumerConfig]
  split_ifs
  · exact .inl ⟨_, rfl⟩
  · simp only [ConsumerConfigStore.put]
    cases validate ((kept (ConsumerConfigStore.get c consumer)).update incoming) s.aliases with
    | error e => exact .inl ⟨e, rfl⟩
    | ok u => exact .inr ⟨_, rfl⟩

theorem get_upsertItem {doc : Doc} {named : String} (hdoc : doc.id = docId named) :
    ConsumerConfigStore.get (upsertItem c doc) consumer =
      if consumer = named then some doc else ConsumerConfigStore.get c consumer := by
  rw [ConsumerConfigStore.get, upsertItem, Dict.lookup_insert_eq, hdoc]
  split_ifs with hid hname hname
  · rfl
  · exact absurd (docId_injective hid) hname
  · exact absurd (congrArg docId hname) hid
  · rfl

theorem mergedDoc_filedUnder (existing : Option Doc) :
    (mergedDoc existing consumer incoming).FiledUnder consumer := ⟨rfl, rfl, rfl⟩

theorem WellFormed.empty : WellFormed ∅ := fun id doc h => absurd h (Dict.lookup_empty_ne id doc)

theorem WellFormed.upsertItem {c : Container} (hc : WellFormed c) {doc : Doc} {named : String}
    (hdoc : doc.FiledUnder named) : WellFormed (ConsumerConfig.upsertItem c doc) := by
  intro id doc' h
  rw [ConsumerConfig.upsertItem, Dict.lookup_insert_eq] at h
  split_ifs at h with hid
  · cases h
    exact ⟨named, hid.trans hdoc.id, hdoc⟩
  · exact hc id doc' h

end Put

end ConsumerConfig
