import Mathlib.Data.List.AList

-- Tables by name, and what a sequence of writes leaves in one.
abbrev Dict (α : Type) := AList fun _ : String => α

namespace Dict
variable {α : Type}

def values (d : Dict α) : List α := d.entries.map Sigma.snd

def setAll (d : Dict α) (kvs : List (String × α)) : Dict α :=
  kvs.foldl (fun d kv => d.insert kv.1 kv.2) d

def items (d : Dict α) : List (String × α) := d.entries.map fun e => (e.1, e.2)

def update (d e : Dict α) : Dict α := d.setAll e.items

def filterMap {β : Type} (f : α → Option β) (d : Dict α) : Dict β :=
  setAll ∅ (d.items.filterMap fun kv => (f kv.2).map (kv.1, ·))

-- The same table, whatever the order its entries were written in.
def Same (d e : Dict α) : Prop := ∀ k, d.lookup k = e.lookup k

variable {d : Dict α} {kvs : List (String × α)} {k : String} {v : α}

theorem mem_values_iff : v ∈ d.values ↔ ∃ k, d.lookup k = some v := by
  simp only [values, List.mem_map, Sigma.exists, exists_eq_right]
  exact exists_congr fun k => AList.mem_lookup_iff.symm

theorem lookup_empty_ne (k : String) (v : α) : (∅ : Dict α).lookup k ≠ some v := by
  rw [AList.lookup_empty]
  exact (Option.some_ne_none v).symm

theorem lookup_insert_eq (d : Dict α) (k : String) (v : α) (k' : String) :
    (d.insert k v).lookup k' = if k' = k then some v else d.lookup k' := by
  split_ifs with h
  · rw [h, AList.lookup_insert]
  · exact AList.lookup_insert_ne h

theorem lookup_erase_eq (d : Dict α) (k k' : String) :
    (d.erase k).lookup k' = if k' = k then none else d.lookup k' := by
  split_ifs with h
  · rw [h, AList.lookup_erase]
  · exact AList.lookup_erase_ne h

theorem lookup_setAll_of_not_mem (h : k ∉ kvs.map Prod.fst) :
    (d.setAll kvs).lookup k = d.lookup k := by
  induction kvs generalizing d with
  | nil => rfl
  | cons kv rest ih =>
    rw [List.map_cons, List.mem_cons, not_or] at h
    calc
      (d.setAll (kv :: rest)).lookup k = (d.insert kv.1 kv.2).lookup k := ih h.2
      _ = d.lookup k := AList.lookup_insert_ne h.1

theorem lookup_setAll_of_mem (hkeys : (kvs.map Prod.fst).Nodup) (h : (k, v) ∈ kvs) :
    (d.setAll kvs).lookup k = some v := by
  induction kvs generalizing d with
  | nil => cases h
  | cons kv rest ih =>
    rw [List.map_cons, List.nodup_cons] at hkeys
    rcases List.mem_cons.mp h with rfl | hrest
    · calc
        (d.setAll ((k, v) :: rest)).lookup k = (d.insert k v).lookup k :=
          lookup_setAll_of_not_mem hkeys.1
        _ = some v := AList.lookup_insert d
    · exact ih hkeys.2 hrest

theorem lookup_setAll (hkeys : (kvs.map Prod.fst).Nodup) {w : Option α}
    (hw : ∀ v, (k, v) ∈ kvs ↔ w = some v) : (d.setAll kvs).lookup k = w.or (d.lookup k) := by
  cases w with
  | none =>
    refine lookup_setAll_of_not_mem fun hkey => ?_
    obtain ⟨⟨k', v⟩, hv, rfl⟩ := List.mem_map.mp hkey
    cases (hw v).mp hv
  | some v => exact lookup_setAll_of_mem hkeys ((hw v).mpr rfl)

theorem mem_of_lookup_setAll (h : (d.setAll kvs).lookup k = some v) :
    d.lookup k = some v ∨ (k, v) ∈ kvs := by
  induction kvs generalizing d with
  | nil => exact .inl h
  | cons kv rest ih =>
    rcases ih h with hold | hmem
    · rw [lookup_insert_eq] at hold
      split_ifs at hold with hk
      · cases hold
        rw [hk]
        exact .inr List.mem_cons_self
      · exact .inl hold
    · exact .inr (List.mem_cons_of_mem _ hmem)

theorem lookup_setAll_last (d : Dict α) (kvs : List (String × α)) (k : String) :
    (d.setAll kvs).lookup k =
      (((kvs.filter (·.1 = k)).getLast?).map (·.2)).or (d.lookup k) := by
  induction kvs generalizing d with
  | nil => rfl
  | cons kv rest ih =>
    have hrest := ih (d.insert kv.1 kv.2)
    rw [lookup_insert_eq] at hrest
    rw [List.filter_cons]
    by_cases hk : kv.1 = k
    · rw [if_pos hk.symm] at hrest
      rw [if_pos (by simpa using hk), List.getLast?_cons, Option.map_some, Option.some_or]
      refine hrest.trans ?_
      cases (rest.filter (·.1 = k)).getLast? <;> rfl
    · rw [if_neg (Ne.symm hk)] at hrest
      rwa [if_neg (by simpa using hk)]

theorem nodup_values {β : Type} {key : α → β}
    (h : ∀ k k' v v', d.lookup k = some v → d.lookup k' = some v' → key v = key v' → k = k') :
    (d.values.map key).Nodup := by
  rw [values, List.map_map]
  refine (List.Nodup.of_map Sigma.fst d.nodupKeys).map_on fun e he e' he' hkey => ?_
  have hlookup := AList.mem_lookup_iff.mpr he
  have hlookup' := AList.mem_lookup_iff.mpr he'
  have hk : e.1 = e'.1 := h e.1 e'.1 e.2 e'.2 hlookup hlookup' hkey
  refine Sigma.ext hk (heq_of_eq ?_)
  rw [Option.mem_def, hk] at hlookup
  exact Option.some.inj (hlookup.symm.trans hlookup')

section Items

theorem mem_items_iff : (k, v) ∈ d.items ↔ d.lookup k = some v := by
  rw [← Option.mem_def, AList.mem_lookup_iff, items, List.mem_map]
  constructor
  · rintro ⟨e, he, hkv⟩
    cases hkv
    exact he
  · intro he
    exact ⟨⟨k, v⟩, he, rfl⟩

theorem nodup_items (d : Dict α) : (d.items.map Prod.fst).Nodup := by
  have hkeys : d.items.map Prod.fst = d.keys := by
    rw [items, List.map_map]
    rfl
  rw [hkeys]
  exact d.keys_nodup

theorem lookup_update (d e : Dict α) (k : String) :
    (d.update e).lookup k = (e.lookup k).or (d.lookup k) :=
  lookup_setAll (nodup_items e) fun _ => mem_items_iff

theorem mem_of_lookup_ofItems (h : (setAll ∅ kvs).lookup k = some v) : (k, v) ∈ kvs :=
  (mem_of_lookup_setAll h).resolve_left (lookup_empty_ne k v)

theorem lookup_ofItems (hkeys : (kvs.map Prod.fst).Nodup) :
    (setAll ∅ kvs).lookup k = some v ↔ (k, v) ∈ kvs :=
  ⟨mem_of_lookup_ofItems, lookup_setAll_of_mem hkeys⟩

theorem nodup_filterMap {β : Type} (f : α → Option β) (hkeys : (kvs.map Prod.fst).Nodup) :
    ((kvs.filterMap fun kv => (f kv.2).map (kv.1, ·)).map Prod.fst).Nodup := by
  refine hkeys.sublist ?_
  induction kvs with
  | nil => exact List.Sublist.refl _
  | cons kv rest ih =>
    rw [List.map_cons, List.nodup_cons] at hkeys
    rw [List.filterMap_cons]
    cases f kv.2 with
    | none => exact (ih hkeys.2).cons _
    | some w => exact (ih hkeys.2).cons_cons _

theorem lookup_filterMap {β : Type} (f : α → Option β) (d : Dict α) (k : String) :
    (d.filterMap f).lookup k = (d.lookup k).bind f := by
  refine Option.ext fun w => ?_
  rw [filterMap, lookup_ofItems (nodup_filterMap f (nodup_items d)), List.mem_filterMap,
    Option.bind_eq_some_iff]
  constructor
  · rintro ⟨⟨k', v⟩, hitem, hw⟩
    obtain ⟨w', hf, hpair⟩ := Option.map_eq_some_iff.mp hw
    cases hpair
    exact ⟨v, mem_items_iff.mp hitem, hf⟩
  · rintro ⟨v, hd, hf⟩
    refine ⟨(k, v), mem_items_iff.mpr hd, ?_⟩
    rw [hf, Option.map_some]

end Items

namespace Same

theorem refl (d : Dict α) : d.Same d := fun _ => rfl

theorem symm {d e : Dict α} (h : d.Same e) : e.Same d := fun k => (h k).symm

theorem trans {d e f : Dict α} (h : d.Same e) (h' : e.Same f) : d.Same f :=
  fun k => (h k).trans (h' k)

theorem update {d d' e e' : Dict α} (h : d.Same d') (h' : e.Same e') :
    (d.update e).Same (d'.update e') := fun k => by
  rw [lookup_update, lookup_update, h, h']

theorem filterMap {β : Type} {d e : Dict α} (h : d.Same e) (f : α → Option β) :
    (d.filterMap f).Same (e.filterMap f) := fun k => by
  rw [lookup_filterMap, lookup_filterMap, h]

theorem entries_nil {d e : Dict α} (h : d.Same e) (hd : d.entries = []) : e.entries = [] := by
  refine List.eq_nil_iff_forall_not_mem.mpr fun entry hentry => ?_
  have hlookup : e.lookup entry.1 = some entry.2 := AList.mem_lookup_iff.mpr hentry
  have hempty : d = ∅ := AList.ext hd
  rw [← h, hempty] at hlookup
  exact lookup_empty_ne _ _ hlookup

end Same

theorem update_of_entries_nil {d e : Dict α} (he : e.entries = []) :
    (d.update e).Same d := fun k => by
  have hempty : e = ∅ := AList.ext he
  rw [lookup_update, hempty, AList.lookup_empty, Option.none_or]

theorem entries_nil_update {d e : Dict α} (hd : d.entries = []) : (d.update e).Same e := fun k => by
  have hempty : d = ∅ := AList.ext hd
  rw [lookup_update, hempty, AList.lookup_empty, Option.or_none]

end Dict
