import NocAgent.ConsumerConfig.Store
import NocAgent.Library.Base64
import NocAgent.Library.Dumps

namespace ConsumerConfig

-- The text that json.dumps gives to the numbers of an active downgrade.
structure NumberText where
  int : ℕ → List Char
  float : ℚ → List Char
  quote_not_mem_int : ∀ n, '"' ∉ int n
  quote_not_mem_float : ∀ q, '"' ∉ float q

inductive BundleValue where
  | text (text : String)
  | downgrade (downgrade : ActiveDowngrade)

-- The members of an entry in the order of CONSUMER_BUNDLE_FIELDS.
abbrev Entry := List (String × BundleValue)

def commaJoined (names : List String) : BundleValue := .text (",".intercalate names)

def bundleEntry (fields : Fields) : Entry :=
  (fields.allowedModels.map fun models => ("allowed_models", commaJoined models)).toList ++
  (fields.tier.map fun tier => ("tier", .text tier)).toList ++
  (fields.activeDowngrade.map fun downgrade => ("active_downgrade", .downgrade downgrade)).toList ++
  (fields.downgradeLadder.map fun ladder => ("downgrade_ladder", commaJoined ladder)).toList

def bundled (doc : Doc) : Option (String × Entry) :=
  (doc.consumer.filter (· ≠ "")).map fun consumer => (consumer, bundleEntry doc.toFields)

def buildConsumerBundle (docs : List Doc) : Dict Entry := .setAll ∅ (docs.filterMap bundled)

section Encode
variable (numbers : NumberText)

def downgradeText (downgrade : ActiveDowngrade) : List Char :=
  Dumps.object (Dumps.sortKeys
    [("level", numbers.int downgrade.level), ("usage_usd", numbers.float downgrade.usageUsd),
      ("pct", numbers.float downgrade.pct), ("evaluated_at", Dumps.quote downgrade.evaluatedAt)])

def valueText : BundleValue → List Char
  | .text text => Dumps.quote text
  | .downgrade downgrade => downgradeText numbers downgrade

def entryText (entry : Entry) : List Char :=
  Dumps.object ((Dumps.sortKeys entry).map fun m => (m.1, valueText numbers m.2))

def bundleText (bundle : Dict Entry) : List Char :=
  Dumps.object ((Dumps.sortKeys bundle.items).map fun m => (m.1, entryText numbers m.2))

def encodeBundle (bundle : Dict Entry) : List Char :=
  Base64.encode (String.ofList (bundleText numbers bundle)).toUTF8.data.toList

end Encode

def bareTier : Entry → Option String
  | [("tier", .text tier)] => some tier
  | _ => none

def sortedEntry (fields : Fields) : Entry :=
  (fields.activeDowngrade.map fun downgrade => ("active_downgrade", .downgrade downgrade)).toList ++
  (fields.allowedModels.map fun models => ("allowed_models", commaJoined models)).toList ++
  (fields.downgradeLadder.map fun ladder => ("downgrade_ladder", commaJoined ladder)).toList ++
  (fields.tier.map fun tier => ("tier", .text tier)).toList

theorem downgradeText_eq (numbers : NumberText) (downgrade : ActiveDowngrade) :
    downgradeText numbers downgrade = Dumps.object
      [("evaluated_at", Dumps.quote downgrade.evaluatedAt), ("level", numbers.int downgrade.level),
        ("pct", numbers.float downgrade.pct), ("usage_usd", numbers.float downgrade.usageUsd)] := by
  simp [downgradeText, Dumps.sortKeys]

theorem sortKeys_bundleEntry (fields : Fields) :
    Dumps.sortKeys (bundleEntry fields) = sortedEntry fields := by
  obtain ⟨models, tier, -, -, -, -, -, ladder, downgrade⟩ := fields
  cases models <;> cases tier <;> cases ladder <;> cases downgrade <;>
    simp [bundleEntry, sortedEntry, Dumps.sortKeys]

def Fields.Bare (fields : Fields) : Prop :=
  fields.allowedModels = none ∧ fields.activeDowngrade = none ∧ fields.downgradeLadder = none

instance (fields : Fields) : Decidable fields.Bare := inferInstanceAs (Decidable (_ ∧ _ ∧ _))

theorem bareTier_bundleEntry (fields : Fields) :
    bareTier (bundleEntry fields) = if fields.Bare then fields.tier else none := by
  obtain ⟨models, tier, -, -, -, -, -, ladder, downgrade⟩ := fields
  cases models <;> cases tier <;> cases ladder <;> cases downgrade <;> rfl

end ConsumerConfig
