import NocAgent.Library.Dict
import Mathlib.Algebra.BigOperators.Group.List.Basic

-- Tables that a loop fills by key, and sums over the entries of a table.
namespace Dict
variable {α β M : Type}

def slot (op : β → α → β) (init : β) (d : Dict β) (kv : String × α) : Dict β :=
  d.insert kv.1 (op ((d.lookup kv.1).getD init) kv.2)

def collect (op : β → α → β) (init : β) (d : Dict β) (kvs : List (String × α)) : Dict β :=
  kvs.foldl (slot op init) d

-- What a row goes in under: rows that lack a key or a value are passed over.
def keyed {ρ : Type} (key : ρ → Option String) (payload : ρ → Option α) (row : ρ) :
    Option (String × α) :=
  match key row, payload row with
  | some k, some v => some (k, v)
  | _, _ => none

def gather {ρ : Type} (op : β → α → β) (init : β) (entry : ρ → Option (String × α))
    (rows : List ρ) : Dict β :=
  rows.foldl (fun d row =>
    match entry row with
    | some kv => slot op init d kv
    | none => d) ∅

def valuesAt (k : String) (kvs : List (String × α)) : List α :=
  (kvs.filter (·.1 = k)).map (·.2)

section Collect
variable {op : β → α → β} {init : β} {d : Dict β} {kvs : List (String × α)} {k : String}

theorem valuesAt_cons_self (v : α) (kvs : List (String × α)) :
    valuesAt k ((k, v) :: kvs) = v :: valuesAt k kvs := by
  rw [valuesAt, List.filter_cons_of_pos (by simp)]
  rfl

theorem valuesAt_cons_of_ne {kv : String × α} (h : kv.1 ≠ k) (kvs : List (String × α)) :
    valuesAt k (kv :: kvs) = valuesAt k kvs := by
  rw [valuesAt, List.filter_cons_of_neg (by simpa using h)]
  rfl

theorem lookup_collect (op : β → α → β) (init : β) (d : Dict β) (kvs : List (String × α))
    (k : String) :
    (d.collect op init kvs).lookup k =
      if valuesAt k kvs = [] then d.lookup k
      else some ((valuesAt k kvs).foldl op ((d.lookup k).getD init)) := by
  induction kvs generalizing d with
  | nil => rfl
  | cons kv kvs ih =>
    have hrest : (d.collect op init (kv :: kvs)).lookup k =
        ((slot op init d kv).collect op init kvs).lookup k := rfl
    rw [hrest, ih, slot, lookup_insert_eq]
    obtain ⟨key, v⟩ := kv
    by_cases hkey : key = k
    · subst hkey
      rw [valuesAt_cons_self, if_pos rfl, if_neg (List.cons_ne_nil _ _), List.foldl_cons,
        Option.getD_some]
      split_ifs with hnil
      · rw [hnil, List.foldl_nil]
      · rfl
    · rw [valuesAt_cons_of_ne hkey, if_neg (Ne.symm hkey)]

theorem lookup_collect_empty (op : β → α → β) (init : β) (kvs : List (String × α)) (k : String) :
    (collect op init ∅ kvs).lookup k =
      if valuesAt k kvs = [] then none else some ((valuesAt k kvs).foldl op init) := by
  rw [lookup_collect, AList.lookup_empty, Option.getD_none]

theorem getD_collect_empty (op : β → α → β) (init : β) (kvs : List (String × α)) (k : String) :
    ((collect op init ∅ kvs).lookup k).getD init = (valuesAt k kvs).foldl op init := by
  rw [lookup_collect_empty]
  split_ifs with hnil
  · rw [hnil, List.foldl_nil, Option.getD_none]
  · rw [Option.getD_some]

end Collect

section Gather
variable {ρ : Type} {key : ρ → Option String} {payload : ρ → Option α} {rows : List ρ}

theorem gather_eq (op : β → α → β) (init : β) (entry : ρ → Option (String × α))
    (rows : List ρ) : gather op init entry rows = collect op init ∅ (rows.filterMap entry) := by
  rw [collect, List.foldl_filterMap, gather]
  congr
  funext d row
  cases entry row <;> rfl

theorem keyed_eq_some_iff {row : ρ} {k : String} {v : α} :
    keyed key payload row = some (k, v) ↔ key row = some k ∧ payload row = some v := by
  rw [keyed]
  cases key row <;> cases payload row <;> simp

theorem keyed_eq_none_iff {row : ρ} :
    keyed key payload row = none ↔ key row = none ∨ payload row = none := by
  rw [keyed]
  cases key row <;> cases payload row <;> simp

theorem valuesAt_keyed (key : ρ → Option String) (payload : ρ → Option α) (rows : List ρ)
    (k : String) : valuesAt k (rows.filterMap (keyed key payload)) =
      (rows.filter (key · = some k)).filterMap payload := by
  induction rows with
  | nil => rfl
  | cons row rows ih =>
    have hpassed (h : keyed key payload row = none) :
        valuesAt k ((row :: rows).filterMap (keyed key payload)) =
          (rows.filter (key · = some k)).filterMap payload := by
      rw [List.filterMap_cons_none h, ih]
    cases hkey : key row with
    | none =>
      rw [hpassed (by rw [keyed, hkey]), List.filter_cons_of_neg (by simp [hkey])]
    | some k' =>
      by_cases hk : k' = k
      · rw [List.filter_cons_of_pos (by simp [hkey, hk])]
        cases hpayload : payload row with
        | none => rw [hpassed (by rw [keyed, hkey, hpayload]), List.filterMap_cons_none hpayload]
        | some v =>
          have hentry : keyed key payload row = some (k, v) := by rw [keyed, hkey, hpayload, hk]
          rw [List.filterMap_cons_some hentry, List.filterMap_cons_some hpayload,
            valuesAt_cons_self, ih]
      · rw [List.filter_cons_of_neg (by simp [hkey, hk])]
        cases hpayload : payload row with
        | none => rw [hpassed (by rw [keyed, hkey, hpayload])]
        | some v =>
          have hentry : keyed key payload row = some (k', v) := by rw [keyed, hkey, hpayload]
          rw [List.filterMap_cons_some hentry, valuesAt_cons_of_ne hk, ih]

theorem getD_gather (op : β → α → β) (init : β) (key : ρ → Option String)
    (payload : ρ → Option α) (rows : List ρ) (k : String) :
    ((gather op init (keyed key payload) rows).lookup k).getD init =
      ((rows.filter (key · = some k)).filterMap payload).foldl op init := by
  rw [gather_eq, getD_collect_empty, valuesAt_keyed]

theorem mem_gather_iff {op : β → α → β} {init : β} {k : String} :
    k ∈ gather op init (keyed key payload) rows ↔
      ∃ row ∈ rows, key row = some k ∧ payload row ≠ none := by
  have hempty : valuesAt k (rows.filterMap (keyed key payload)) = [] ↔
      ∀ row ∈ rows, key row = some k → payload row = none := by
    simp [valuesAt_keyed]
  rw [← AList.lookup_isSome, gather_eq, lookup_collect_empty]
  split_ifs with hnil
  · rw [hempty] at hnil
    simpa using hnil
  · rw [hempty] at hnil
    simpa using hnil

end Gather

section Sum
variable [AddCommMonoid M] {d e : Dict α} {k : String} {v w : α} {f g : String → α → M}

def sumBy (f : String → α → M) (d : Dict α) : M :=
  (d.items.map fun entry => f entry.1 entry.2).sum

theorem sumBy_eq (f : String → α → M) (d : Dict α) :
    sumBy f d = (d.entries.map fun e => f e.1 e.2).sum := by
  rw [sumBy, items, List.map_map]
  rfl

theorem sumBy_empty (f : String → α → M) : sumBy f ∅ = 0 := rfl

theorem sumBy_insert_eq (f : String → α → M) (d : Dict α) (k : String) (v : α) :
    sumBy f (d.insert k v) = f k v + ((d.entries.kerase k).map fun e => f e.1 e.2).sum := by
  rw [sumBy_eq, AList.entries_insert, List.map_cons, List.sum_cons]

theorem sumBy_insert_of_none (h : d.lookup k = none) :
    sumBy f (d.insert k v) = f k v + sumBy f d := by
  have hkeys : k ∉ d.entries.keys := AList.lookup_eq_none.mp h
  rw [sumBy_insert_eq, List.kerase_of_notMem_keys hkeys, sumBy_eq]

theorem sumBy_eq_of_some (h : d.lookup k = some w) :
    sumBy f d = f k w + ((d.entries.kerase k).map fun e => f e.1 e.2).sum := by
  have hmem : k ∈ d.entries.keys := AList.lookup_isSome.mp (by rw [h]; rfl)
  obtain ⟨w', before, after, -, hsplit, herase⟩ := List.exists_of_kerase hmem
  have hw : w' = w := by
    have hentry : ⟨k, w'⟩ ∈ d.entries := by
      rw [hsplit]
      exact List.mem_append_right _ List.mem_cons_self
    have hlookup : d.lookup k = some w' := AList.mem_lookup_iff.mpr hentry
    rw [h, Option.some.injEq] at hlookup
    exact hlookup.symm
  rw [sumBy_eq, herase, hsplit, hw, List.map_append, List.map_cons, List.sum_append,
    List.sum_cons, List.map_append, List.sum_append, add_left_comm]

theorem sumBy_insert (f : String → α → M) (d : Dict α) (k : String) (v : α) :
    sumBy f (d.insert k v) + (d.lookup k).elim 0 (f k) = f k v + sumBy f d := by
  cases h : d.lookup k with
  | none => rw [sumBy_insert_of_none h, Option.elim_none, add_zero]
  | some w =>
    rw [sumBy_insert_eq, sumBy_eq_of_some h, Option.elim_some, add_assoc, add_comm _ (f k w)]

end Sum

theorem sumBy_collect [AddCancelCommMonoid M] {op : β → α → β} {init : β} (f : String → β → M)
    (g : String → α → M) (hinit : ∀ k, f k init = 0)
    (hop : ∀ k b v, f k (op b v) = f k b + g k v) (d : Dict β) (kvs : List (String × α)) :
    sumBy f (d.collect op init kvs) = sumBy f d + (kvs.map fun kv => g kv.1 kv.2).sum := by
  induction kvs generalizing d with
  | nil => rw [List.map_nil, List.sum_nil, add_zero, collect, List.foldl_nil]
  | cons kv kvs ih =>
    have hold : (d.lookup kv.1).elim 0 (f kv.1) = f kv.1 ((d.lookup kv.1).getD init) := by
      cases d.lookup kv.1 with
      | none => exact (hinit kv.1).symm
      | some b => rfl
    have hslot : sumBy f (slot op init d kv) = sumBy f d + g kv.1 kv.2 := by
      have hinsert := sumBy_insert f d kv.1 (op ((d.lookup kv.1).getD init) kv.2)
      rw [hold, hop, add_assoc, add_comm (f kv.1 _)] at hinsert
      rw [slot, add_right_cancel hinsert, add_comm]
    have hrest : sumBy f (d.collect op init (kv :: kvs)) =
        sumBy f ((slot op init d kv).collect op init kvs) := rfl
    rw [hrest, ih, hslot, List.map_cons, List.sum_cons, add_assoc]

end Dict
