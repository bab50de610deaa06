import Mathlib.Data.Nat.Notation
import Mathlib.Logic.Function.Basic

-- List objects that are reached by reference and grow in place.
structure ListHeap (α : Type) where
  next : ℕ
  cell : ℕ → List α

namespace ListHeap
variable {α : Type}

def alloc (h : ListHeap α) (xs : List α) : ListHeap α × ℕ :=
  ({ next := h.next + 1, cell := Function.update h.cell h.next xs }, h.next)

def append (h : ListHeap α) (ref : ℕ) (x : α) : ListHeap α :=
  { h with cell := Function.update h.cell ref (h.cell ref ++ [x]) }

def map {β : Type} (f : α → β) (h : ListHeap α) : ListHeap β where
  next := h.next
  cell r := (h.cell r).map f

variable (h : ListHeap α) (xs : List α) (x : α) {ref : ℕ}

@[simp] theorem next_append : (h.append ref x).next = h.next := rfl

@[simp] theorem next_alloc : (h.alloc xs).1.next = h.next + 1 := rfl

theorem cell_append (r : ℕ) :
    (h.append ref x).cell r = if r = ref then h.cell ref ++ [x] else h.cell r :=
  Function.update_apply ..

theorem cell_alloc (r : ℕ) :
    (h.alloc xs).1.cell r = if r = h.next then xs else h.cell r := Function.update_apply ..

theorem cell_alloc_of_lt (hr : ref < h.next) : (h.alloc xs).1.cell ref = h.cell ref := by
  rw [cell_alloc, if_neg (Nat.ne_of_lt hr)]

theorem map_append {β : Type} (f : α → β) :
    (h.append ref x).map f = (h.map f).append ref (f x) := by
  simp only [map, append, mk.injEq, true_and]
  funext r
  simp only [Function.update_apply]
  split
  · rw [List.map_append, List.map_singleton]
  · rfl

theorem map_alloc {β : Type} (f : α → β) :
    (h.alloc xs).1.map f = ((h.map f).alloc (xs.map f)).1 := by
  simp only [map, alloc, mk.injEq, true_and]
  funext r
  simp only [Function.update_apply]
  split <;> rfl

end ListHeap
