import Mathlib.Data.Set.Function

-- Tables with one entry a key, and a table kept inside another under the names of its keys.
namespace KeyValue
variable {κ ν α : Type}

abbrev Table (κ α : Type) := κ → Option α

inductive Op (κ α : Type) where
  | put (key : κ) (value : α)
  | remove (key : κ)
deriving DecidableEq

namespace Op

def key : Op κ α → κ
  | put key _ | remove key => key

def entry : Op κ α → Option α
  | put _ value => some value
  | remove _ => none

def rename (name : κ → ν) : Op κ α → Op ν α
  | put key value => put (name key) value
  | remove key => remove (name key)

@[simp] theorem key_rename (name : κ → ν) (op : Op κ α) : (op.rename name).key = name op.key := by
  cases op <;> rfl

@[simp] theorem entry_rename (name : κ → ν) (op : Op κ α) : (op.rename name).entry = op.entry := by
  cases op <;> rfl

end Op

def apply [DecidableEq κ] (t : Table κ α) (op : Op κ α) : Table κ α :=
  fun key => if key = op.key then op.entry else t key

theorem apply_self [DecidableEq κ] (t : Table κ α) (op : Op κ α) : apply t op op.key = op.entry :=
  if_pos rfl

theorem apply_of_ne [DecidableEq κ] {op : Op κ α} {key : κ} (h : key ≠ op.key) (t : Table κ α) :
    apply t op key = t key :=
  if_neg h

def Holds (keys : Set κ) (name : κ → ν) (t : Table ν α) (m : Table κ α) : Prop :=
  ∀ key ∈ keys, t (name key) = m key

namespace Holds
variable [DecidableEq ν] {keys : Set κ} {name : κ → ν} {t : Table ν α} {m : Table κ α}

theorem apply [DecidableEq κ] {op : Op κ α} (h : Holds keys name t m) (hname : Set.InjOn name keys)
    (hop : op.key ∈ keys) :
    Holds keys name (KeyValue.apply t (op.rename name)) (KeyValue.apply m op) := by
  intro key hkey
  obtain rfl | hne := eq_or_ne key op.key
  · rw [apply_self, ← Op.key_rename name op, apply_self, Op.entry_rename]
  · have hother : name key ≠ (op.rename name).key := by
      rw [Op.key_rename]
      exact fun hsame => hne (hname hkey hop hsame)
    rw [apply_of_ne hne, apply_of_ne hother]
    exact h key hkey

theorem aside {op : Op ν α} (h : Holds keys name t m) (hop : ∀ key ∈ keys, name key ≠ op.key) :
    Holds keys name (KeyValue.apply t op) m := fun key hkey => by
  rw [apply_of_ne (hop key hkey)]
  exact h key hkey

end Holds

end KeyValue
