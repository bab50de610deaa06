import Mathlib.Algebra.BigOperators.Group.Finset.Basic
import Mathlib.Algebra.Order.BigOperators.Group.Finset
import Mathlib.Algebra.Order.Ring.Int
import Mathlib.Data.Finset.Option
import Mathlib.Tactic.Ring

structure Entry (α : Type) where
  value : α
  deadline : Option ℕ

structure Keyspace (κ α : Type) [DecidableEq κ] where
  keys : Finset κ
  entries : κ → Option (Entry α)
  version : κ → ℕ
  mem_keys : ∀ k, k ∈ keys ↔ (entries k).isSome

namespace Keyspace
variable {κ α : Type} [DecidableEq κ]

def empty : Keyspace κ α where
  keys := ∅
  entries _ := none
  version _ := 0
  mem_keys := by simp

def get (s : Keyspace κ α) (k : κ) : Option α := (s.entries k).map Entry.value

def put (s : Keyspace κ α) (k : κ) (e : Entry α) : Keyspace κ α where
  keys := insert k s.keys
  entries := Function.update s.entries k (some e)
  version := Function.update s.version k (s.version k + 1)
  mem_keys j := by
    by_cases hj : j = k
    · simp [hj]
    · simp [hj, s.mem_keys]

def write (s : Keyspace κ α) (k : κ) (v : α) : Keyspace κ α :=
  s.put k ⟨v, (s.entries k).bind Entry.deadline⟩

def expire (s : Keyspace κ α) (k : κ) (deadline : ℕ) : Keyspace κ α :=
  match s.entries k with
  | none => s
  | some e => s.put k { e with deadline := some deadline }

def delete (s : Keyspace κ α) (k : κ) : Keyspace κ α where
  keys := s.keys.erase k
  entries := Function.update s.entries k none
  version := Function.update s.version k (s.version k + 1)
  mem_keys j := by
    by_cases hj : j = k
    · simp [hj]
    · simp [hj, s.mem_keys]

def live (now : ℕ) (e : Entry α) : Bool := e.deadline.all (now < ·)

def purge (s : Keyspace κ α) (now : ℕ) : Keyspace κ α where
  keys := s.keys.filter fun k => ((s.entries k).filter (live now)).isSome
  entries k := (s.entries k).filter (live now)
  version k := if (s.entries k).all (live now) then s.version k else s.version k + 1
  mem_keys k := by
    rw [Finset.mem_filter, s.mem_keys]
    cases s.entries k <;> simp

def total (s : Keyspace κ α) (w : α → ℤ) : ℤ := ∑ k ∈ s.keys, (s.get k).elim 0 w

theorem get_put (s : Keyspace κ α) (k j : κ) (e : Entry α) :
    (s.put k e).get j = if j = k then some e.value else s.get j := by
  by_cases h : j = k <;> simp [get, put, h]

@[simp] theorem get_write (s : Keyspace κ α) (k j : κ) (v : α) :
    (s.write k v).get j = if j = k then some v else s.get j := get_put ..

@[simp] theorem get_expire (s : Keyspace κ α) (k j : κ) (d : ℕ) :
    (s.expire k d).get j = s.get j := by
  unfold expire
  cases he : s.entries k with
  | none => rfl
  | some e =>
    rw [get_put]
    split_ifs with hj
    · simp [get, hj, he]
    · rfl

@[simp] theorem get_delete (s : Keyspace κ α) (k j : κ) :
    (s.delete k).get j = if j = k then none else s.get j := by
  by_cases h : j = k <;> simp [get, delete, h]

theorem get_purge (s : Keyspace κ α) (now : ℕ) (k : κ) :
    (s.purge now).get k = s.get k ∨ (s.purge now).get k = none := by
  cases he : s.entries k with
  | none => simp [get, purge, he]
  | some e => cases hl : live now e <;> simp [get, purge, he, Option.filter, hl]

theorem get_of_purge {s : Keyspace κ α} {now : ℕ} {k : κ} {a : α}
    (h : (s.purge now).get k = some a) : s.get k = some a := by
  rcases s.get_purge now k with hkept | hgone
  · exact hkept.symm.trans h
  · cases hgone.symm.trans h

theorem get_purge_of_live {s : Keyspace κ α} {now : ℕ}
    (h : ∀ k ∈ s.keys, (s.entries k).all (live now)) (k : κ) : (s.purge now).get k = s.get k := by
  cases he : s.entries k with
  | none => simp [get, purge, he]
  | some e =>
    have hl : live now e = true := by simpa [he] using h k ((s.mem_keys k).mpr (by simp [he]))
    simp [get, purge, he, Option.filter, hl]

theorem mem_keys_iff (s : Keyspace κ α) (k : κ) : k ∈ s.keys ↔ s.get k ≠ none := by
  rw [s.mem_keys, get]
  cases s.entries k <;> simp

theorem total_eq_sum (s : Keyspace κ α) (w : α → ℤ) {F : Finset κ} (hF : s.keys ⊆ F) :
    s.total w = ∑ k ∈ F, (s.get k).elim 0 w := by
  refine Finset.sum_subset hF fun k _ hk => ?_
  rw [mem_keys_iff, not_not] at hk
  simp [hk]

theorem total_congr {s t : Keyspace κ α} (w : α → ℤ) (h : ∀ k, t.get k = s.get k) :
    t.total w = s.total w := by
  have hk : t.keys = s.keys := by
    ext k
    rw [mem_keys_iff, mem_keys_iff, h]
  simp [total, hk, h]

theorem total_of_agree {s t : Keyspace κ α} (w : α → ℤ) (k : κ)
    (h : ∀ j, j ≠ k → t.get j = s.get j) :
    t.total w = s.total w - (s.get k).elim 0 w + (t.get k).elim 0 w := by
  have hk : k ∈ insert k (s.keys ∪ t.keys) := Finset.mem_insert_self ..
  have hs : s.keys ⊆ insert k (s.keys ∪ t.keys) :=
    Finset.subset_union_left.trans (Finset.subset_insert ..)
  have ht : t.keys ⊆ insert k (s.keys ∪ t.keys) :=
    Finset.subset_union_right.trans (Finset.subset_insert ..)
  have hrest : ∑ j ∈ (insert k (s.keys ∪ t.keys)).erase k, (t.get j).elim 0 w =
      ∑ j ∈ (insert k (s.keys ∪ t.keys)).erase k, (s.get j).elim 0 w :=
    Finset.sum_congr rfl fun j hj => by rw [h j (Finset.ne_of_mem_erase hj)]
  have hsum := Finset.add_sum_erase _ (fun j => (s.get j).elim 0 w) hk
  have htum := Finset.add_sum_erase _ (fun j => (t.get j).elim 0 w) hk
  rw [total_eq_sum t w ht, total_eq_sum s w hs, ← hsum, ← htum, hrest]
  ring

theorem total_eq_zero {s : Keyspace κ α} {w : α → ℤ} (h : ∀ k v, s.get k = some v → w v = 0) :
    s.total w = 0 := by
  refine Finset.sum_eq_zero fun k _ => ?_
  cases hk : s.get k with
  | none => rfl
  | some v => exact h k v hk

theorem total_nonneg {s : Keyspace κ α} {w : α → ℤ} (hw : ∀ k v, s.get k = some v → 0 ≤ w v) :
    0 ≤ s.total w := by
  refine Finset.sum_nonneg fun k _ => ?_
  cases hk : s.get k with
  | none => exact le_rfl
  | some v => exact hw k v hk

theorem total_lt_of_lost {s t : Keyspace κ α} {w : α → ℤ} (hw : ∀ v, 0 ≤ w v)
    (hsub : ∀ k, t.get k = s.get k ∨ t.get k = none) {k : κ} {v : α} (hk : s.get k = some v)
    (hlost : t.get k = none) (hv : 0 < w v) : t.total w < s.total w := by
  have hkeys : t.keys ⊆ s.keys := by
    intro j hj
    rw [mem_keys_iff] at hj ⊢
    rcases hsub j with h | h
    · rwa [← h]
    · exact absurd h hj
  rw [total_eq_sum t w hkeys]
  refine Finset.sum_lt_sum (fun j _ => ?_) ⟨k, (mem_keys_iff s k).mpr (by simp [hk]), ?_⟩
  · rcases hsub j with h | h
    · rw [h]
    · rw [h]
      cases s.get j with
      | none => exact le_rfl
      | some u => exact hw u
  · rw [hlost, hk]
    exact hv

def Extends (s t : Keyspace κ α) : Prop :=
  ∀ k, s.version k ≤ t.version k ∧ (t.version k = s.version k → t.get k = s.get k)

theorem Extends.refl (s : Keyspace κ α) : Extends s s := fun _ => ⟨le_rfl, fun _ => rfl⟩

theorem Extends.trans {s t u : Keyspace κ α} (h : Extends s t) (h' : Extends t u) :
    Extends s u := by
  intro k
  refine ⟨(h k).1.trans (h' k).1, fun hu => ?_⟩
  have hle := (h k).1
  have hle' := (h' k).1
  rw [(h' k).2 (by omega), (h k).2 (by omega)]

theorem extends_put (s : Keyspace κ α) (k : κ) (e : Entry α) : Extends s (s.put k e) := by
  intro j
  by_cases hj : j = k
  · subst hj
    simp [put]
  · simp [put, hj, get]

theorem extends_expire (s : Keyspace κ α) (k : κ) (d : ℕ) : Extends s (s.expire k d) := by
  unfold expire
  cases s.entries k with
  | none => exact Extends.refl s
  | some e => exact extends_put s k _

theorem version_lt_write (s : Keyspace κ α) (k : κ) (v : α) :
    s.version k < (s.write k v).version k := by
  simp [write, put]

end Keyspace
