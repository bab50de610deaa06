import NocAgent.Library.Coroutine
import NocAgent.Library.Trace
import Mathlib.Data.List.Infix

-- Programs that read and write a store through requests, any of which can fail.
namespace Requests
open Trace Coroutine

-- A request that fails may have been served all the same, its answer lost on the way back.
inductive Fate where
  | served
  | unanswered
  | lost
deriving DecidableEq

-- The store, and what becomes of the requests to come: after the last of these each is served.
structure Wire (σ : Type) where
  store : σ
  fates : List Fate

section Program
variable {σ ω ε α β : Type}

def read (failure : ε) (view : σ → α) : Coroutine (Wire σ) ε α where
  run wire :=
    match wire.fates with
    | [] => (.returned (view wire.store), wire)
    | .served :: rest => (.returned (view wire.store), ⟨wire.store, rest⟩)
    | .unanswered :: rest | .lost :: rest => (.raised failure, ⟨wire.store, rest⟩)

def write (failure : ε) (apply : σ → ω → σ) (w : ω) : Coroutine (Wire σ) ε Unit where
  run wire :=
    match wire.fates with
    | [] => (.returned (), ⟨apply wire.store w, []⟩)
    | .served :: rest => (.returned (), ⟨apply wire.store w, rest⟩)
    | .unanswered :: rest => (.raised failure, ⟨apply wire.store w, rest⟩)
    | .lost :: rest => (.raised failure, ⟨wire.store, rest⟩)

def Clean (count : ℕ) (fates : List Fate) : Prop := ∀ fate ∈ fates.take count, fate = .served

instance (count : ℕ) (fates : List Fate) : Decidable (Clean count fates) :=
  inferInstanceAs (Decidable (∀ fate ∈ _, _))

-- From this store the program makes so many requests, these writes among them, in this order.
structure Performs (apply : σ → ω → σ) (program : Coroutine (Wire σ) ε α) (store : σ) (count : ℕ)
    (plan : List ω) (value : α) : Prop where
  clean : ∀ fates, Clean count fates →
    program.run ⟨store, fates⟩ = (.returned value, ⟨run apply store plan, fates.drop count⟩)
  faulty : ∀ fates, ¬ Clean count fates → ∃ failure done rest, done <+: plan ∧
    program.run ⟨store, fates⟩ = (.raised failure, ⟨run apply store done, rest⟩)

theorem clean_nil (count : ℕ) : Clean count [] := by simp [Clean]

theorem clean_add {count count' : ℕ} {fates : List Fate} :
    Clean (count + count') fates ↔ Clean count fates ∧ Clean count' (fates.drop count) := by
  simp only [Clean, List.take_add, List.mem_append]
  constructor
  · exact fun h => ⟨fun fate hfate => h fate (.inl hfate), fun fate hfate => h fate (.inr hfate)⟩
  · rintro ⟨hfirst, hsecond⟩ fate (hfate | hfate)
    · exact hfirst fate hfate
    · exact hsecond fate hfate

theorem clean_one_cons {fate : Fate} {rest : List Fate} :
    Clean 1 (fate :: rest) ↔ fate = .served := by simp [Clean]

namespace Performs
variable {apply : σ → ω → σ} {program : Coroutine (Wire σ) ε α} {store : σ} {count count' : ℕ}
  {plan plan' : List ω} {value : α}

theorem pure (apply : σ → ω → σ) (store : σ) (value : α) :
    Performs apply (Pure.pure value : Coroutine (Wire σ) ε α) store 0 [] value where
  clean fates _ := by rw [run_pure, run_nil, List.drop_zero]
  faulty fates h := absurd (by simp [Clean]) h

theorem read (apply : σ → ω → σ) (store : σ) (failure : ε) (view : σ → α) :
    Performs apply (Requests.read failure view) store 1 [] (view store) where
  clean fates h := by
    cases fates with
    | nil => rfl
    | cons fate rest =>
      cases clean_one_cons.mp h
      rfl
  faulty fates h := by
    cases fates with
    | nil => exact absurd (clean_nil 1) h
    | cons fate rest =>
      cases fate with
      | served => exact absurd (clean_one_cons.mpr rfl) h
      | unanswered => exact ⟨failure, [], rest, List.prefix_rfl, rfl⟩
      | lost => exact ⟨failure, [], rest, List.prefix_rfl, rfl⟩

theorem write (apply : σ → ω → σ) (store : σ) (failure : ε) (w : ω) :
    Performs apply (Requests.write failure apply w) store 1 [w] () where
  clean fates h := by
    cases fates with
    | nil => rfl
    | cons fate rest =>
      cases clean_one_cons.mp h
      rfl
  faulty fates h := by
    cases fates with
    | nil => exact absurd (clean_nil 1) h
    | cons fate rest =>
      cases fate with
      | served => exact absurd (clean_one_cons.mpr rfl) h
      | unanswered => exact ⟨failure, [w], rest, List.prefix_rfl, rfl⟩
      | lost => exact ⟨failure, [], rest, List.nil_prefix, rfl⟩

theorem recount (h : Performs apply program store count plan value) (hcount : count = count') :
    Performs apply program store count' plan value := hcount ▸ h

theorem bind {next : α → Coroutine (Wire σ) ε β} {value' : β}
    (h : Performs apply program store count plan value)
    (hnext : Performs apply (next value) (run apply store plan) count' plan' value') :
    Performs apply (program >>= next) store (count + count') (plan ++ plan') value' where
  clean fates hclean := by
    obtain ⟨hfirst, hsecond⟩ := clean_add.mp hclean
    rw [bind_returned (h.clean fates hfirst), hnext.clean _ hsecond, run_append, List.drop_drop]
  faulty fates hfaulty := by
    by_cases hfirst : Clean count fates
    · obtain ⟨failure, done, rest, hdone, hrun⟩ :=
        hnext.faulty (fates.drop count) fun hsecond => hfaulty (clean_add.mpr ⟨hfirst, hsecond⟩)
      refine ⟨failure, plan ++ done, rest, (List.prefix_append_right_inj plan).mpr hdone, ?_⟩
      rw [bind_returned (h.clean fates hfirst), hrun, run_append]
    · obtain ⟨failure, done, rest, hdone, hrun⟩ := h.faulty fates hfirst
      exact ⟨failure, done, rest, hdone.trans (List.prefix_append plan plan'), bind_raised hrun⟩

-- A loop that only writes.
theorem forM {body : β → Coroutine (Wire σ) ε Unit} {writes : β → List ω}
    (hbody : ∀ x store, Performs apply (body x) store (writes x).length (writes x) ())
    (xs : List β) (store : σ) :
    Performs apply (ForM.forM xs body) store (xs.flatMap writes).length (xs.flatMap writes) () := by
  induction xs generalizing store with
  | nil => exact pure apply store ()
  | cons x xs ih =>
    rw [List.forM_cons, List.flatMap_cons, List.length_append]
    exact (hbody x store).bind (ih (run apply store (writes x)))

theorem exceptRaised_run (h : Performs apply program store count plan value) (answer : α)
    (fates : List Fate) :
    ∃ done, done <+: plan ∧ (Clean count fates → done = plan) ∧
      ((program.exceptRaised fun _ => Pure.pure answer).run ⟨store, fates⟩).1 =
        .returned (if Clean count fates then value else answer) ∧
      ((program.exceptRaised fun _ => Pure.pure answer).run ⟨store, fates⟩).2.store =
        run apply store done := by
  by_cases hclean : Clean count fates
  · rw [if_pos hclean, exceptRaised, handle_returned (h.clean fates hclean)]
    exact ⟨plan, List.prefix_rfl, fun _ => rfl, rfl, rfl⟩
  · obtain ⟨failure, done, rest, hdone, hrun⟩ := h.faulty fates hclean
    rw [if_neg hclean, exceptRaised, handle_raised hrun]
    exact ⟨done, hdone, fun h => absurd h hclean, rfl, rfl⟩

end Performs

end Program

-- A store of registers: a write fills the one it is for and leaves the others.
structure Registers (σ ω κ : Type) where
  apply : σ → ω → σ
  key : ω → κ
  cell : σ → κ → Option ω
  cell_apply_self : ∀ store w, cell (apply store w) (key w) = some w
  cell_apply_ne : ∀ store w k, k ≠ key w → cell (apply store w) k = cell store k

namespace Registers
variable {σ ω κ : Type} {r : Registers σ ω κ} {store : σ} {plan done : List ω} {k : κ} {w : ω}

theorem nodup_append {earlier later : List ω} (hearlier : (earlier.map r.key).Nodup)
    (hlater : (later.map r.key).Nodup) (h : ∀ v ∈ earlier, ∀ w ∈ later, r.key v ≠ r.key w) :
    ((earlier ++ later).map r.key).Nodup := by
  rw [List.map_append]
  refine List.nodup_append.mpr ⟨hearlier, hlater, fun k hk k' hk' => ?_⟩
  obtain ⟨v, hv, rfl⟩ := List.mem_map.mp hk
  obtain ⟨w, hw, rfl⟩ := List.mem_map.mp hk'
  exact h v hv w hw

theorem cell_run_of_not_mem (h : ∀ w ∈ plan, r.key w ≠ k) :
    r.cell (run r.apply store plan) k = r.cell store k := by
  induction plan generalizing store with
  | nil => rfl
  | cons w ws ih =>
    obtain ⟨hw, hws⟩ := List.forall_mem_cons.mp h
    rw [run_cons, ih hws, r.cell_apply_ne store w k hw.symm]

theorem cell_run_of_mem (hkeys : (plan.map r.key).Nodup) (h : w ∈ plan) :
    r.cell (run r.apply store plan) (r.key w) = some w := by
  induction plan generalizing store with
  | nil => cases h
  | cons v ws ih =>
    rw [List.map_cons, List.nodup_cons] at hkeys
    rcases List.mem_cons.mp h with rfl | hmem
    · rw [run_cons, cell_run_of_not_mem, r.cell_apply_self]
      exact fun v hv hkey => hkeys.1 (hkey ▸ List.mem_map_of_mem hv)
    · exact ih hkeys.2 hmem

theorem cell_run_part (hkeys : (plan.map r.key).Nodup) (hdone : done <+: plan) (k : κ) :
    r.cell (run r.apply store done) k = r.cell store k ∨
      r.cell (run r.apply store done) k = r.cell (run r.apply store plan) k := by
  by_cases h : ∃ w ∈ done, r.key w = k
  · obtain ⟨w, hw, rfl⟩ := h
    refine .inr ?_
    rw [cell_run_of_mem (hkeys.sublist (hdone.sublist.map r.key)) hw,
      cell_run_of_mem hkeys (hdone.subset hw)]
  · exact .inl (cell_run_of_not_mem fun w hw hkey => h ⟨w, hw, hkey⟩)

theorem prefix_of_changed {earlier later : List ω} (hplan : plan = earlier ++ later)
    (hdone : done <+: plan) (hearlier : ∀ w ∈ earlier, r.key w ≠ k)
    (hchanged : r.cell (run r.apply store done) k ≠ r.cell store k) : earlier <+: done := by
  have hearlierPlan : earlier <+: plan := ⟨later, hplan.symm⟩
  refine (List.prefix_or_prefix_of_prefix hdone hearlierPlan).resolve_left fun hshort => ?_
  exact hchanged (cell_run_of_not_mem fun w hw => hearlier w (hshort.subset hw))

theorem cell_run_of_covered (hkeys : (plan.map r.key).Nodup) (hdone : done <+: plan)
    (h : ∀ w ∈ plan, r.key w = k → w ∈ done) :
    r.cell (run r.apply store done) k = r.cell (run r.apply store plan) k := by
  by_cases hplanned : ∃ w ∈ plan, r.key w = k
  · obtain ⟨w, hw, rfl⟩ := hplanned
    rw [cell_run_of_mem (hkeys.sublist (hdone.sublist.map r.key)) (h w hw rfl),
      cell_run_of_mem hkeys hw]
  · have hnot : ∀ w ∈ plan, r.key w ≠ k := fun w hw hkey => hplanned ⟨w, hw, hkey⟩
    rw [cell_run_of_not_mem hnot, cell_run_of_not_mem fun w hw => hnot w (hdone.subset hw)]

end Registers

end Requests
