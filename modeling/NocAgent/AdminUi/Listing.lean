import NocAgent.AdminUi.Stored

namespace AdminUi
open Trace
open Pricing (Failure)
open ConsumerConfig (Container WellFormed docId)

section Removal
variable {keys : Keys} {registry : Registry} {configs : Container} {consumer name : String}

theorem lookup_registry_erase (registry : Registry) (h : name ≠ consumer) :
    (AList.erase (registryId consumer) registry).lookup (registryId name) =
      registry.lookup (registryId name) :=
  AList.lookup_erase_ne fun hid => h (registryId_inj.mp hid)

theorem mem_consumerNames_erase (hfiled : registry.Filed) (hkey : ¬ HasKey keys consumer) :
    name ∈ consumerNames keys (AList.erase (registryId consumer) registry) ↔
      name ∈ consumerNames keys registry ∧ name ≠ consumer := by
  rw [mem_consumerNames (hfiled.erase _), mem_consumerNames hfiled]
  constructor
  · rintro (hname | hname)
    · exact ⟨.inl hname, fun hsame => hkey (hsame ▸ hname)⟩
    · have hne : name ≠ consumer := by
        rintro rfl
        exact hname (AList.lookup_erase _ _)
      rw [lookup_registry_erase registry hne] at hname
      exact ⟨.inr hname, hne⟩
  · rintro ⟨hname, hne⟩
    rwa [lookup_registry_erase registry hne]

theorem consumerNames_erase (hfiled : registry.Filed) (hkey : ¬ HasKey keys consumer) :
    consumerNames keys (AList.erase (registryId consumer) registry) =
      (consumerNames keys registry).filter (· ≠ consumer) := by
  have hperm : (consumerNames keys (AList.erase (registryId consumer) registry)).Perm
      ((consumerNames keys registry).filter (· ≠ consumer)) := by
    refine (List.perm_ext_iff_of_nodup nodup_consumerNames
      (nodup_consumerNames.filter _)).mpr fun name => ?_
    rw [mem_consumerNames_erase hfiled hkey, List.mem_filter]
    simp only [decide_eq_true_eq]
  exact hperm.eq_of_pairwise (fun _ _ _ _ h h' => absurd h (lt_asymm h'))
    sorted_consumerNames (sorted_consumerNames.filter _)

theorem WellFormed.erase (h : WellFormed configs) (id : String) :
    WellFormed (AList.erase id configs) := by
  intro id' doc hdoc
  rw [Dict.lookup_erase_eq] at hdoc
  split_ifs at hdoc
  exact h id' doc hdoc

theorem consumerRow_erase (hfiled : registry.Filed) (hconfigs : WellFormed configs)
    (h : name ≠ consumer) :
    consumerRow keys (AList.erase (registryId consumer) registry)
        (AList.erase (docId consumer) configs) name =
      consumerRow keys registry configs name := by
  have hregistered : (registered (AList.erase (registryId consumer) registry)).lookup name =
      (registered registry).lookup name := by
    rw [lookup_registered (hfiled.erase _), lookup_registered hfiled, lookup_registry_erase _ h]
  have hmem : name ∈ registered (AList.erase (registryId consumer) registry) ↔
      name ∈ registered registry := by
    rw [← AList.lookup_isSome, ← AList.lookup_isSome, hregistered]
  have hconfig : name ∈ configConsumers (AList.erase (docId consumer) configs) ↔
      name ∈ configConsumers configs := by
    rw [mem_configConsumers (WellFormed.erase hconfigs _), mem_configConsumers hconfigs,
      AList.lookup_erase_ne fun hid => h (ConsumerConfig.docId_injective hid)]
  simp only [consumerRow, source, hregistered, hmem, hconfig]

theorem listConsumers_erase (hfiled : registry.Filed) (hconfigs : WellFormed configs)
    (hkey : ¬ HasKey keys consumer) :
    listConsumers keys (AList.erase (registryId consumer) registry)
        (AList.erase (docId consumer) configs) =
      (listConsumers keys registry configs).filter (·.consumer ≠ consumer) := by
  rw [listConsumers, listConsumers, consumerNames_erase hfiled hkey, List.filter_map]
  refine List.map_congr_left fun name hname => ?_
  exact consumerRow_erase hfiled hconfigs (by simpa using (List.mem_filter.mp hname).2)

theorem length_keys (keys : Keys) (hne : consumer ≠ "") :
    (keys.mappings.values.filter (·.consumer = consumer)).length =
      ((keyCounts keys).lookup consumer).getD 0 := by
  rw [getD_keyCounts]
  congr 1
  refine List.filter_congr fun row _ => ?_
  rw [decide_eq_decide, namedConsumer_eq_some_iff]
  exact ⟨fun h => ⟨h, hne⟩, And.left⟩

def keysLeft (consumer : String) (keyCount : ℕ) : Failure :=
  .http 409 ("'" ++ consumer ++ "' still has " ++ toString keyCount ++
    " key(s); revoke them in 6 API Keys before deleting the consumer")

theorem deleteConsumer_of_hasKey (h : HasKey keys consumer) :
    deleteConsumer keys consumer =
      .error (keysLeft consumer (((keyCounts keys).lookup consumer).getD 0)) := by
  rw [deleteConsumer, length_keys keys h.1, if_pos (getD_keyCounts_ne_zero.mpr h)]
  rfl

theorem deleteConsumer_of_not_hasKey (hne : consumer ≠ "") (h : ¬ HasKey keys consumer) :
    deleteConsumer keys consumer = .ok () := by
  rw [deleteConsumer, length_keys keys hne, if_neg fun hcount => h (getD_keyCounts_ne_zero.mp hcount)]
  rfl

theorem hasKey_of_row {row : ConsumerRow} (h : row ∈ listConsumers keys registry configs) :
    HasKey keys row.consumer ↔ row.keyCount ≠ 0 := by
  obtain ⟨consumer, -, rfl⟩ := List.mem_map.mp h
  exact getD_keyCounts_ne_zero.symm

end Removal

theorem removals_match_listing (s : Settings) (v : TokenVerifier) (events : List Event) :
    let site := (run (World.step s v) {} events).site
    let rows := listConsumers site.keys site.registry site.configs
    Lists site.keys site.registry site.configs rows ∧
      (∀ row ∈ rows, row.keyCount ≠ 0 → removeConsumer site row.consumer =
        (site, .error (keysLeft row.consumer row.keyCount))) ∧
      ∀ consumer, consumer ≠ "" → (∀ row ∈ rows, row.consumer = consumer → row.keyCount = 0) →
        ∃ after, removeConsumer site consumer = (after, .ok (.deleted consumer)) ∧
          listConsumers after.keys after.registry after.configs =
            rows.filter (·.consumer ≠ consumer) := by
  intro site rows
  have hsound := World.Sound.run s v events
  have hconfigs : WellFormed site.configs := hsound.configs.wellFormed
  have hlists : Lists site.keys site.registry site.configs rows :=
    listConsumers_lists hsound.registry hconfigs
  refine ⟨hlists, fun row hrow hcount => ?_, fun consumer hne hnone => ?_⟩
  · have hkey := (hasKey_of_row hrow).mpr hcount
    have hrowCount : ((keyCounts site.keys).lookup row.consumer).getD 0 = row.keyCount := by
      rw [getD_keyCounts, hlists.counted row hrow]
    rw [removeConsumer, deleteConsumer_of_hasKey hkey, hrowCount]
  · have hkey : ¬ HasKey site.keys consumer := by
      intro hkey
      obtain ⟨row, hrow, rfl⟩ := (hlists.complete consumer).mpr (.inl hkey)
      exact (hasKey_of_row hrow).mp hkey (hnone row hrow rfl)
    have hguard := deleteConsumer_of_not_hasKey hne hkey
    refine ⟨{ site with
      registry := site.registry.erase (registryId consumer)
      configs := site.configs.erase (docId consumer) }, ?_,
      listConsumers_erase hsound.registry hconfigs hkey⟩
    rw [removeConsumer, hguard]

end AdminUi
