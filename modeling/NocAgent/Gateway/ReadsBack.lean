import NocAgent.Gateway.TierKey

namespace Gateway

open ConsumerConfig TierKey

structure Configs where
  docs : List Doc
  distinct : (docs.filterMap (·.consumer)).Nodup
  tiers : ∀ doc ∈ docs, ∀ tier, doc.tier = some tier → tier ∈ TIERS

namespace Configs
variable (c : Configs)

def entries : List (String × Entry) := Dumps.sortKeys (buildConsumerBundle c.docs).items

def tier? (consumer : String) : Option String :=
  (c.docs.find? fun doc => doc.consumer = some consumer && consumer ≠ "").bind (·.tier)

def body (numbers : NumberText) : List Char :=
  consumerConfigJson (some (encodeBundle numbers (buildConsumerBundle c.docs)))

def ReadsBack (numbers : NumberText) (consumer : String) : Prop :=
  tierKey (c.body numbers) consumer = ((c.tier? consumer).getD "").toList

variable {c}

theorem doc_of_mem_entries {m : String × Entry} (h : m ∈ c.entries) :
    ∃ doc ∈ c.docs, doc.consumer = some m.1 ∧ m.1 ≠ "" ∧ m.2 = bundleEntry doc.toFields := by
  have hlookup := Dict.mem_items_iff.mp (Dumps.mem_sortKeys.mp h)
  obtain ⟨doc, hdoc, hbundled⟩ := List.mem_filterMap.mp (Dict.mem_of_lookup_ofItems hlookup)
  obtain ⟨consumer, hconsumer, hm⟩ := Option.map_eq_some_iff.mp hbundled
  obtain ⟨hconsumer, hne⟩ := Option.filter_eq_some_iff.mp hconsumer
  obtain ⟨rfl, hentry⟩ := Prod.mk.inj hm
  exact ⟨doc, hdoc, hconsumer, by simpa using hne, hentry.symm⟩

theorem plain_of_mem_tiers {tier : String} (h : tier ∈ TIERS) : Dumps.Plain tier := by
  simp only [TIERS, List.mem_cons, List.not_mem_nil, or_false] at h
  obtain rfl | rfl | rfl := h <;> simp [Dumps.Plain]

theorem written_entries (c : Configs) : Written c.entries := by
  intro m hm
  obtain ⟨doc, hdoc, -, -, hentry⟩ := doc_of_mem_entries hm
  exact ⟨doc.toFields, hentry, fun tier htier => plain_of_mem_tiers (c.tiers doc hdoc tier htier)⟩

theorem tierKey_body (numbers : NumberText) (consumer : String) :
    tierKey (c.body numbers) consumer =
      (found numbers consumer ['\x7b'] c.entries).elim [] String.toList := by
  rw [tierKey_eq, body, consumerConfigJson_encodeBundle]
  exact scan_object consumer c.written_entries

theorem mem_of_bareTier {m : String × Entry} (h : m ∈ c.entries) {tier : String}
    (hbare : bareTier m.2 = some tier) : tier ∈ TIERS := by
  obtain ⟨doc, hdoc, -, -, hentry⟩ := doc_of_mem_entries h
  rw [hentry] at hbare
  exact c.tiers doc hdoc tier (bareTier_eq_some hbare)

theorem tier?_mem {consumer tier : String} (h : c.tier? consumer = some tier) : tier ∈ TIERS := by
  obtain ⟨doc, hfind, htier⟩ := Option.bind_eq_some_iff.mp h
  exact c.tiers doc (List.mem_of_find?_eq_some hfind) tier htier

theorem found_mem {numbers : NumberText} {consumer : String} {before : List Char} {tier : String}
    (h : found numbers consumer before c.entries = some tier) : tier ∈ TIERS := by
  obtain ⟨key, hfind, rfl⟩ := Option.map_eq_some_iff.mp h
  obtain ⟨m, hm, hbare⟩ := mem_bareKeys (List.mem_of_find?_eq_some hfind)
  exact mem_of_bareTier hm hbare

theorem readsBack_iff (numbers : NumberText) (consumer : String) :
    c.ReadsBack numbers consumer ↔
      found numbers consumer ['\x7b'] c.entries = c.tier? consumer := by
  have hne {tier : String} (h : tier ∈ TIERS) : tier.toList ≠ [] := by
    revert h
    unfold TIERS
    simp only [List.mem_cons, List.not_mem_nil, or_false]
    rintro (rfl | rfl | rfl) <;> decide
  rw [ReadsBack, tierKey_body]
  cases hfound : found numbers consumer ['\x7b'] c.entries with
  | none =>
    cases htier : c.tier? consumer with
    | none => simp
    | some tier => simpa using (hne (tier?_mem htier)).symm
  | some first =>
    cases htier : c.tier? consumer with
    | none => simpa using hne (found_mem hfound)
    | some tier => simp [String.toList_inj]

def firstBare (matching : String → Bool) (entries : List (String × Entry)) : Option String :=
  entries.findSome? fun m => if matching m.1 then bareTier m.2 else none

def keyEndsWith (consumer name : String) : Bool :=
  endsWith ordinalIgnoreCase (opening consumer) ('"' :: Dumps.escape name)

def sameIgnoringCase (consumer name : String) : Bool :=
  consumer.toList.map Char.toLower = name.toList.map Char.toLower

theorem readsBack_iff_of_quote_not_mem (numbers : NumberText) {consumer : String}
    (hconsumer : '"' ∉ consumer.toList) : c.ReadsBack numbers consumer ↔
      firstBare (keyEndsWith consumer) c.entries = c.tier? consumer := by
  have hkeyed : ∀ m ∈ c.entries, ∀ before, endsWith ordinalIgnoreCase (opening consumer)
      (before ++ '"' :: Dumps.escape m.1) = keyEndsWith consumer m.1 :=
    fun _ _ before => endsWith_key hconsumer before _
  rw [readsBack_iff, found_eq_findSome hkeyed]
  rfl

theorem readsBack_iff_of_plain (numbers : NumberText) {consumer : String}
    (hconsumer : '"' ∉ consumer.toList) (hplain : ∀ m ∈ c.entries, Dumps.Plain m.1) :
    c.ReadsBack numbers consumer ↔
      firstBare (sameIgnoringCase consumer) c.entries = c.tier? consumer := by
  have hkeyed : ∀ m ∈ c.entries, ∀ before, endsWith ordinalIgnoreCase (opening consumer)
      (before ++ '"' :: Dumps.escape m.1) = sameIgnoringCase consumer m.1 := by
    intro m hm before
    have hescape := Dumps.escape_of_plain (hplain m hm)
    have hname : '"' ∉ m.1.toList := fun h => (hplain m hm _ h).2.2.1 rfl
    rw [endsWith_key hconsumer, hescape, endsWith_of_quote_not_mem hconsumer hname]
    rfl
  rw [readsBack_iff, found_eq_findSome hkeyed]
  rfl

theorem tierKey_reads_back_iff (numbers : NumberText) (c : Configs) (consumer : String) :
    (c.ReadsBack numbers consumer ↔
      found numbers consumer ['\x7b'] c.entries = c.tier? consumer) ∧
    ('"' ∉ consumer.toList → (c.ReadsBack numbers consumer ↔
      firstBare (keyEndsWith consumer) c.entries = c.tier? consumer)) ∧
    ('"' ∉ consumer.toList → (∀ m ∈ c.entries, Dumps.Plain m.1) →
      (c.ReadsBack numbers consumer ↔
        firstBare (sameIgnoringCase consumer) c.entries = c.tier? consumer)) :=
  ⟨readsBack_iff numbers consumer, readsBack_iff_of_quote_not_mem numbers,
    readsBack_iff_of_plain numbers⟩

theorem keys_bundled (docs : List Doc) : (docs.filterMap bundled).map Prod.fst =
    (docs.filterMap (·.consumer)).filter fun consumer => decide (consumer ≠ "") := by
  induction docs with
  | nil => rfl
  | cons doc docs ih =>
    cases hconsumer : doc.consumer with
    | none => simpa [bundled, hconsumer] using ih
    | some consumer =>
      by_cases hne : consumer = ""
      · simpa [bundled, hconsumer, hne] using ih
      · simpa [bundled, hconsumer, hne] using ih

theorem mem_entries {doc : Doc} (hdoc : doc ∈ c.docs) {consumer : String}
    (hconsumer : doc.consumer = some consumer) (hne : consumer ≠ "") :
    (consumer, bundleEntry doc.toFields) ∈ c.entries := by
  have hkeys : ((c.docs.filterMap bundled).map Prod.fst).Nodup := by
    rw [keys_bundled]
    exact c.distinct.filter _
  refine Dumps.mem_sortKeys.mpr (Dict.mem_items_iff.mpr (Dict.lookup_setAll_of_mem hkeys ?_))
  refine List.mem_filterMap.mpr ⟨doc, hdoc, ?_⟩
  simp [bundled, hconsumer, hne]

theorem entry_unique {consumer : String} {entry entry' : Entry}
    (h : (consumer, entry) ∈ c.entries) (h' : (consumer, entry') ∈ c.entries) :
    entry = entry' := by
  have hlookup := Dict.mem_items_iff.mp (Dumps.mem_sortKeys.mp h)
  rw [Dict.mem_items_iff.mp (Dumps.mem_sortKeys.mp h')] at hlookup
  exact (Option.some.inj hlookup).symm

theorem find_consumer {docs : List Doc} (hdistinct : (docs.filterMap (·.consumer)).Nodup)
    {doc : Doc} (hdoc : doc ∈ docs) {consumer : String}
    (hconsumer : doc.consumer = some consumer) :
    docs.find? (fun doc => decide (doc.consumer = some consumer)) = some doc := by
  induction docs with
  | nil => cases hdoc
  | cons first docs ih =>
    obtain rfl | hrest := List.mem_cons.mp hdoc
    · exact List.find?_cons_of_pos (by simpa using hconsumer)
    · cases hfirst : first.consumer with
      | none =>
        rw [List.filterMap_cons_none hfirst] at hdistinct
        rw [List.find?_cons_of_neg (by simp [hfirst])]
        exact ih hdistinct hrest
      | some other =>
        rw [List.filterMap_cons_some hfirst, List.nodup_cons] at hdistinct
        have hother : other ≠ consumer := by
          rintro rfl
          exact hdistinct.1 (List.mem_filterMap.mpr ⟨doc, hrest, hconsumer⟩)
        rw [List.find?_cons_of_neg (by simpa [hfirst] using hother)]
        exact ih hdistinct.2 hrest

theorem tier?_eq {doc : Doc} (hdoc : doc ∈ c.docs) {consumer : String}
    (hconsumer : doc.consumer = some consumer) (hne : consumer ≠ "") :
    c.tier? consumer = doc.tier := by
  have hfind := find_consumer c.distinct hdoc hconsumer
  simp [tier?, hne, hfind]

theorem firstBare_eq {matching : String → Bool} {consumer : String} {entry : Entry}
    (hmem : (consumer, entry) ∈ c.entries) (hmatching : matching consumer = true)
    (hapart : ∀ m ∈ c.entries, matching m.1 = true → m.1 = consumer) :
    firstBare matching c.entries = bareTier entry := by
  have hentry {m : String × Entry} (hm : m ∈ c.entries) (hmatch : matching m.1 = true) :
      m.2 = entry := by
    have hname := hapart m hm hmatch
    subst hname
    exact entry_unique hm hmem
  cases hfirst : firstBare matching c.entries with
  | none =>
    have hnone := List.findSome?_eq_none_iff.mp hfirst _ hmem
    rw [if_pos hmatching] at hnone
    exact hnone.symm
  | some tier =>
    obtain ⟨m, hm, hbare⟩ := List.exists_of_findSome?_eq_some hfirst
    split_ifs at hbare with hmatch
    rw [← hentry hm hmatch, hbare]

theorem readsBack_iff_bare (numbers : NumberText) {consumer : String} {doc : Doc}
    (hdoc : doc ∈ c.docs) (hconsumer : doc.consumer = some consumer) (hne : consumer ≠ "")
    (hplain : ∀ m ∈ c.entries, Dumps.Plain m.1)
    (hapart : ∀ m ∈ c.entries, sameIgnoringCase consumer m.1 = true → m.1 = consumer) :
    c.ReadsBack numbers consumer ↔ doc.tier = none ∨ doc.Bare := by
  have hmem := mem_entries hdoc hconsumer hne
  have hquote : '"' ∉ consumer.toList := fun h => (hplain _ hmem _ h).2.2.1 rfl
  rw [readsBack_iff_of_plain numbers hquote hplain, tier?_eq hdoc hconsumer hne,
    firstBare_eq hmem (by simp [sameIgnoringCase]) hapart, bareTier_bundleEntry]
  split_ifs with hbare
  · simp [hbare]
  · simp [hbare, eq_comm]

section Example

def withModels : Configs where
  docs := [
    { id := "consumer:consumer-a"
      docType := "consumer_config"
      consumer := some "consumer-a"
      allowedModels := some ["gpt-5.4-mini"]
      tier := some "medium" }]
  distinct := by decide
  tiers := by decide

def anyNumber : NumberText where
  int _ := ['0']
  float _ := ['0']
  quote_not_mem_int _ := by decide
  quote_not_mem_float _ := by decide

theorem allowed_models_hide_the_tier : ¬ withModels.ReadsBack anyNumber "consumer-a" := by
  rw [readsBack_iff]
  decide +kernel

end Example

end Configs

end Gateway
