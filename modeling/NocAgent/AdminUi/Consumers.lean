import NocAgent.AdminUi.Registry
import NocAgent.ConsumerConfig.Budget
import NocAgent.Library.Grouping
import Mathlib.Data.List.Dedup
import Mathlib.Data.List.Sort
import Mathlib.Data.String.Basic

namespace AdminUi
open Pricing (given)
open ConsumerConfig (Container WellFormed queryItems docId)

inductive Source where
  | both
  | registry
  | keys
deriving DecidableEq

structure ConsumerRow where
  consumer : String
  keyCount : ℕ
  displayName : Option String
  entraGroupId : Option String
  hasConfig : Bool
  source : Source
deriving DecidableEq

section Listing
variable (keys : Keys) (registry : Registry) (configs : Container)

def namedConsumer (row : Mapping) : Option String := given (some row.consumer)

def keyCounts : Dict ℕ :=
  Dict.gather (fun n _ => n + 1) 0 (Dict.keyed namedConsumer fun _ => some ()) keys.mappings.values

def registered : Dict Registration := .setAll ∅ (registry.values.map fun d => (d.consumer, d))

def configConsumers : List String := (queryItems configs).filterMap (·.consumer)

def source (consumer : String) : Source :=
  if consumer ∈ registered registry ∧ consumer ∈ keyCounts keys then .both
  else if consumer ∈ registered registry then .registry
  else .keys

def consumerRow (consumer : String) : ConsumerRow where
  consumer := consumer
  keyCount := ((keyCounts keys).lookup consumer).getD 0
  displayName := ((registered registry).lookup consumer).bind (·.displayName)
  entraGroupId := ((registered registry).lookup consumer).bind (·.entraGroupId)
  hasConfig := decide (consumer ∈ configConsumers configs)
  source := source keys registry consumer

def consumerNames : List String :=
  ((keyCounts keys).keys ++ (registered registry).keys).dedup.insertionSort (· ≤ ·)

def listConsumers : List ConsumerRow :=
  (consumerNames keys registry).map (consumerRow keys registry configs)

def HasKey (consumer : String) : Prop :=
  consumer ≠ "" ∧ ∃ sid row, keys.mappings.lookup sid = some row ∧ row.consumer = consumer

end Listing

section Names
variable {keys : Keys} {registry : Registry} {configs : Container} {consumer : String}

theorem lookup_registered (hfiled : registry.Filed) (consumer : String) :
    (registered registry).lookup consumer = registry.lookup (registryId consumer) := by
  have hnodup : ((registry.values.map fun d => (d.consumer, d)).map Prod.fst).Nodup := by
    rw [List.map_map]
    refine Dict.nodup_values fun id id' doc doc' hid hid' hsame => ?_
    rw [hfiled id doc hid, hfiled id' doc' hid']
    exact congrArg registryId hsame
  refine Option.ext fun doc => ?_
  rw [registered, Dict.lookup_ofItems hnodup, List.mem_map]
  constructor
  · rintro ⟨doc', hdoc', hpair⟩
    obtain ⟨id, hid⟩ := Dict.mem_values_iff.mp hdoc'
    obtain ⟨rfl, rfl⟩ := Prod.mk.inj hpair
    rwa [← hfiled id doc' hid]
  · intro hdoc
    have hname := registryId_inj.mp (hfiled _ doc hdoc)
    exact ⟨doc, Dict.mem_values_iff.mpr ⟨_, hdoc⟩, by rw [hname]⟩

theorem namedConsumer_eq_some_iff {row : Mapping} :
    namedConsumer row = some consumer ↔ row.consumer = consumer ∧ consumer ≠ "" := by
  rw [namedConsumer, given, Option.filter_eq_some_iff, Option.some.injEq]
  constructor
  · rintro ⟨rfl, hne⟩
    exact ⟨rfl, by simpa using hne⟩
  · rintro ⟨rfl, hne⟩
    exact ⟨rfl, by simpa using hne⟩

theorem mem_keyCounts : consumer ∈ keyCounts keys ↔ HasKey keys consumer := by
  rw [keyCounts, Dict.mem_gather_iff, HasKey]
  constructor
  · rintro ⟨row, hrow, hname, -⟩
    obtain ⟨hconsumer, hne⟩ := namedConsumer_eq_some_iff.mp hname
    obtain ⟨sid, hsid⟩ := Dict.mem_values_iff.mp hrow
    exact ⟨hne, sid, row, hsid, hconsumer⟩
  · rintro ⟨hne, sid, row, hsid, hconsumer⟩
    exact ⟨row, Dict.mem_values_iff.mpr ⟨sid, hsid⟩,
      namedConsumer_eq_some_iff.mpr ⟨hconsumer, hne⟩, Option.some_ne_none ()⟩

theorem getD_keyCounts (keys : Keys) (consumer : String) :
    ((keyCounts keys).lookup consumer).getD 0 =
      (keys.mappings.values.filter (namedConsumer · = some consumer)).length := by
  have hcount (rows : List Mapping) (n : ℕ) :
      (rows.filterMap fun _ => some ()).foldl (fun n _ => n + 1) n = n + rows.length := by
    induction rows generalizing n with
    | nil => rfl
    | cons row rows ih =>
      rw [List.length_cons, Nat.add_comm rows.length, ← Nat.add_assoc]
      exact ih (n + 1)
  rw [keyCounts, Dict.getD_gather, hcount, Nat.zero_add]

theorem nodup_consumerNames : (consumerNames keys registry).Nodup := by
  rw [consumerNames, (List.perm_insertionSort _ _).nodup_iff]
  exact List.nodup_dedup _

theorem sorted_consumerNames : (consumerNames keys registry).Pairwise (· < ·) := by
  have hle : (consumerNames keys registry).Pairwise (· ≤ ·) := List.pairwise_insertionSort _ _
  have hne : (consumerNames keys registry).Pairwise (· ≠ ·) := nodup_consumerNames
  exact (hle.and hne).imp fun h => lt_of_le_of_ne h.1 h.2

theorem mem_consumerNames (hfiled : registry.Filed) :
    consumer ∈ consumerNames keys registry ↔
      HasKey keys consumer ∨ registry.lookup (registryId consumer) ≠ none := by
  rw [consumerNames, List.mem_insertionSort, List.mem_dedup, List.mem_append, ← AList.mem_keys,
    ← AList.mem_keys, mem_keyCounts, ← AList.lookup_isSome, lookup_registered hfiled,
    Option.isSome_iff_ne_none]

theorem consumers_listConsumers (keys : Keys) (registry : Registry) (configs : Container) :
    (listConsumers keys registry configs).map (·.consumer) = consumerNames keys registry := by
  rw [listConsumers, List.map_map]
  exact List.map_id _

end Names

structure Lists (keys : Keys) (registry : Registry) (configs : Container)
    (rows : List ConsumerRow) : Prop where
  sorted : (rows.map (·.consumer)).Pairwise (· < ·)
  complete : ∀ consumer, (∃ row ∈ rows, row.consumer = consumer) ↔
    HasKey keys consumer ∨ registry.lookup (registryId consumer) ≠ none
  counted : ∀ row ∈ rows, row.keyCount =
    (keys.mappings.values.filter (namedConsumer · = some row.consumer)).length
  total : (rows.map (·.keyCount)).sum =
    (keys.mappings.values.filter (·.consumer ≠ "")).length
  registration : ∀ row ∈ rows, row.displayName =
      (registry.lookup (registryId row.consumer)).bind (·.displayName) ∧
    row.entraGroupId = (registry.lookup (registryId row.consumer)).bind (·.entraGroupId)
  configured : ∀ row ∈ rows, row.hasConfig = true ↔ configs.lookup (docId row.consumer) ≠ none
  source : ∀ row ∈ rows, (row.source = .both ↔ row.keyCount ≠ 0 ∧
      registry.lookup (registryId row.consumer) ≠ none) ∧
    (row.source = .keys ↔ registry.lookup (registryId row.consumer) = none)

section Listed
variable {keys : Keys} {registry : Registry} {configs : Container} {consumer : String}

theorem getD_keyCounts_ne_zero :
    ((keyCounts keys).lookup consumer).getD 0 ≠ 0 ↔ HasKey keys consumer := by
  rw [getD_keyCounts, ← Nat.pos_iff_ne_zero, List.length_pos_iff_exists_mem]
  constructor
  · rintro ⟨row, hrow⟩
    obtain ⟨hmem, hname⟩ := List.mem_filter.mp hrow
    obtain ⟨hconsumer, hne⟩ := namedConsumer_eq_some_iff.mp (by simpa using hname)
    obtain ⟨sid, hsid⟩ := Dict.mem_values_iff.mp hmem
    exact ⟨hne, sid, row, hsid, hconsumer⟩
  · rintro ⟨hne, sid, row, hsid, hconsumer⟩
    exact ⟨row, List.mem_filter.mpr ⟨Dict.mem_values_iff.mpr ⟨sid, hsid⟩,
      by simpa using namedConsumer_eq_some_iff.mpr ⟨hconsumer, hne⟩⟩⟩

theorem mem_configConsumers (hconfigs : WellFormed configs) :
    consumer ∈ configConsumers configs ↔ configs.lookup (docId consumer) ≠ none := by
  rw [configConsumers, List.mem_filterMap]
  constructor
  · rintro ⟨doc, hdoc, hname⟩
    obtain ⟨named, hlookup, hfiled⟩ := (ConsumerConfig.mem_queryItems hconfigs).mp hdoc
    rw [hfiled.consumer, Option.some.injEq] at hname
    rw [← hname, hlookup]
    exact Option.some_ne_none doc
  · intro h
    obtain ⟨doc, hdoc⟩ := Option.ne_none_iff_exists'.mp h
    obtain ⟨named, hid, hfiled⟩ := hconfigs _ doc hdoc
    have hname := ConsumerConfig.docId_injective hid
    subst hname
    exact ⟨doc, (ConsumerConfig.mem_queryItems hconfigs).mpr ⟨consumer, hdoc, hfiled⟩,
      hfiled.consumer⟩

theorem sum_keyCounts (keys : Keys) : Dict.sumBy (fun _ n => n) (keyCounts keys) =
    (keys.mappings.values.filter (·.consumer ≠ "")).length := by
  have hrows (rows : List Mapping) :
      ((rows.filterMap (Dict.keyed namedConsumer fun _ => some ())).map fun _ => 1).sum =
        (rows.filter (·.consumer ≠ "")).length := by
    induction rows with
    | nil => rfl
    | cons row rows ih =>
      by_cases hname : row.consumer = ""
      · rw [List.filterMap_cons_none, List.filter_cons_of_neg (by simpa using hname), ih]
        exact Dict.keyed_eq_none_iff.mpr (.inl (by rw [namedConsumer, hname]; rfl))
      · have hrow : Dict.keyed namedConsumer (fun _ => some ()) row = some (row.consumer, ()) :=
          Dict.keyed_eq_some_iff.mpr ⟨namedConsumer_eq_some_iff.mpr ⟨rfl, hname⟩, rfl⟩
        rw [List.filterMap_cons_some hrow, List.filter_cons_of_pos (by simpa using hname),
          List.map_cons, List.sum_cons, ih, List.length_cons, Nat.add_comm]
  rw [keyCounts, Dict.gather_eq, Dict.sumBy_collect (fun _ n => n) (fun _ _ => 1) (fun _ => rfl)
    (fun _ _ _ => rfl), Dict.sumBy_empty, Nat.zero_add, hrows]

theorem sum_getD {d : Dict ℕ} {ks : List String} (hks : ks.Nodup) (hkeys : ∀ k ∈ d, k ∈ ks) :
    (ks.map fun k => (d.lookup k).getD 0).sum = Dict.sumBy (fun _ n => n) d := by
  have hperm : ks.Perm (d.keys ++ ks.filter (· ∉ d)) := by
    refine (List.perm_ext_iff_of_nodup hks ?_).mpr fun k => ?_
    · refine List.nodup_append.mpr ⟨d.keys_nodup, hks.filter _, fun k hk k' hk' hsame => ?_⟩
      have hnot := (List.mem_filter.mp hk').2
      rw [← hsame] at hnot
      exact absurd (AList.mem_keys.mpr hk) (by simpa using hnot)
    · rw [List.mem_append, ← AList.mem_keys, List.mem_filter]
      constructor
      · intro hk
        by_cases hd : k ∈ d
        · exact .inl hd
        · exact .inr ⟨hk, by simpa using hd⟩
      · rintro (hd | ⟨hk, -⟩)
        · exact hkeys k hd
        · exact hk
  have hrest : ((ks.filter (· ∉ d)).map fun k => (d.lookup k).getD 0).sum = 0 := by
    refine List.sum_eq_zero fun n hn => ?_
    obtain ⟨k, hk, rfl⟩ := List.mem_map.mp hn
    have hnot : k ∉ d := by simpa using (List.mem_filter.mp hk).2
    rw [AList.lookup_eq_none.mpr hnot, Option.getD_none]
  rw [(hperm.map _).sum_eq, List.map_append, List.sum_append, hrest, Nat.add_zero,
    Dict.sumBy_eq, AList.keys, List.keys, List.map_map]
  congr 1
  refine List.map_congr_left fun entry hentry => ?_
  have hlookup : d.lookup entry.1 = some entry.2 := AList.mem_lookup_iff.mpr hentry
  rw [Function.comp_apply, hlookup, Option.getD_some]

theorem listConsumers_lists (hfiled : registry.Filed) (hconfigs : WellFormed configs) :
    Lists keys registry configs (listConsumers keys registry configs) := by
  have hrow : ∀ row ∈ listConsumers keys registry configs,
      row = consumerRow keys registry configs row.consumer := by
    intro row hrow
    obtain ⟨consumer, -, rfl⟩ := List.mem_map.mp hrow
    rfl
  have hlisted : ∀ consumer, (∃ row ∈ listConsumers keys registry configs,
      row.consumer = consumer) ↔
        HasKey keys consumer ∨ registry.lookup (registryId consumer) ≠ none := by
    intro consumer
    rw [← mem_consumerNames hfiled, ← consumers_listConsumers keys registry configs, List.mem_map]
  have hregistered : ∀ consumer, consumer ∈ registered registry ↔
      registry.lookup (registryId consumer) ≠ none := by
    intro consumer
    rw [← AList.lookup_isSome, lookup_registered hfiled, Option.isSome_iff_ne_none]
  refine ⟨?_, hlisted, ?_, ?_, ?_, ?_, ?_⟩
  · rw [consumers_listConsumers]
    exact sorted_consumerNames
  · intro row hmem
    rw [hrow row hmem]
    exact getD_keyCounts keys row.consumer
  · rw [listConsumers, List.map_map, ← sum_keyCounts]
    refine sum_getD nodup_consumerNames fun consumer hkey => ?_
    exact (mem_consumerNames hfiled).mpr (.inl (mem_keyCounts.mp hkey))
  · intro row hmem
    rw [hrow row hmem, ← lookup_registered hfiled]
    exact ⟨rfl, rfl⟩
  · intro row hmem
    rw [hrow row hmem, consumerRow, decide_eq_true_iff]
    exact mem_configConsumers hconfigs
  · intro row hmem
    rw [hrow row hmem]
    have hcount : ((keyCounts keys).lookup row.consumer).getD 0 ≠ 0 ↔
        row.consumer ∈ keyCounts keys := getD_keyCounts_ne_zero.trans mem_keyCounts.symm
    simp only [consumerRow, source, hcount, ← hregistered, ← not_ne_iff (b := none)]
    split_ifs with hboth hregistry
    · exact ⟨iff_of_true rfl hboth.symm, iff_of_false not_false (not_not.mpr hboth.1)⟩
    · refine ⟨iff_of_false not_false fun h => hboth h.symm, ?_⟩
      exact iff_of_false not_false (not_not.mpr hregistry)
    · exact ⟨iff_of_false not_false fun h => hregistry h.2, iff_of_true rfl hregistry⟩

end Listed

end AdminUi
