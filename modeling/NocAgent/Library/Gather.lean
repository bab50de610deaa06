import NocAgent.Library.Trace
import Mathlib.Algebra.BigOperators.Group.Finset.Basic
import Mathlib.Data.Fintype.Basic

namespace Gather
open Trace

inductive Task (Result : Type) where
  | waiting
  | running
  | ended (result : Result)

namespace Task
variable {Result : Type}

def permits : Task Result → ℕ
  | .running => 1
  | _ => 0

def remaining : Task Result → ℕ
  | .waiting => 2
  | .running => 1
  | .ended _ => 0

end Task

-- Tasks under one semaphore, each with its own copy of the context of the one that made them.
structure State (Key Context Result : Type) where
  free : ℕ
  context : Key → Context
  task : Key → Task Result
  started : List Key

variable {Key Context Result : Type}

def create (permits : ℕ) (inherited : Context) : State Key Context Result where
  free := permits
  context := fun _ => inherited
  task := fun _ => .waiting
  started := []

def State.Complete (s : State Key Context Result) : Prop :=
  ∀ key, ∃ result, s.task key = .ended result

section Ordered
variable [Fintype Key]

def State.total (s : State Key Context Result) (weight : Task Result → ℕ) : ℕ :=
  ∑ key, weight (s.task key)

def Own (inherited : Context) (enter : Context → Context)
    (work : Key → Context → Result × Context) (key : Key) : Task Result → Context → Prop
  | .waiting, context => context = inherited
  | .running, context => context = enter inherited
  | .ended result, _ => result = (work key (enter inherited)).1

structure Ordered (permits : ℕ) (inherited : Context) (enter : Context → Context)
    (work : Key → Context → Result × Context) (s : State Key Context Result) : Prop where
  permits : s.free + s.total Task.permits = permits
  once : s.started.Nodup
  started : ∀ key, key ∈ s.started ↔ s.task key ≠ .waiting
  own : ∀ key, Own inherited enter work key (s.task key) (s.context key)

variable {permits : ℕ} {inherited : Context} {enter : Context → Context}
  {work : Key → Context → Result × Context} {s : State Key Context Result} {key : Key}

theorem ordered_create : Ordered permits inherited enter work (create permits inherited) where
  permits := by simp [create, State.total, Task.permits]
  once := List.nodup_nil
  started key := by simp [create]
  own _ := rfl

theorem Ordered.results (h : Ordered permits inherited enter work s) (hdone : s.Complete)
    (key : Key) : s.task key = .ended (work key (enter inherited)).1 := by
  obtain ⟨result, hresult⟩ := hdone key
  have hown := h.own key
  rw [hresult] at hown ⊢
  rw [hown]

theorem Ordered.all_started (h : Ordered permits inherited enter work s) (hdone : s.Complete)
    (key : Key) : key ∈ s.started := by
  rw [h.started]
  intro hwaiting
  obtain ⟨result, hresult⟩ := hdone key
  rw [hwaiting] at hresult
  cases hresult

end Ordered

variable [DecidableEq Key]

def State.grant (s : State Key Context Result) (enter : Context → Context) (key : Key) :
    State Key Context Result where
  free := s.free - 1
  context := Function.update s.context key (enter (s.context key))
  task := Function.update s.task key .running
  started := s.started ++ [key]

def State.finish (s : State Key Context Result) (key : Key) (outcome : Result × Context) :
    State Key Context Result where
  free := s.free + 1
  context := Function.update s.context key outcome.2
  task := Function.update s.task key (.ended outcome.1)
  started := s.started

-- What a task does between its first and its last step touches nothing but its own context, so
-- its steps with the permit are taken together at the end.
def step (enter : Context → Context) (work : Key → Context → Result × Context)
    (s : State Key Context Result) (key : Key) : State Key Context Result :=
  match s.task key with
  | .waiting => if s.free = 0 then s else s.grant enter key
  | .running => s.finish key (work key (s.context key))
  | .ended _ => s

section Step
variable {enter : Context → Context} {work : Key → Context → Result × Context}
  {s : State Key Context Result} {key : Key}

theorem step_cases (enter : Context → Context) (work : Key → Context → Result × Context)
    (s : State Key Context Result) (key : Key) : step enter work s key = s ∨
    (s.task key = .waiting ∧ s.free ≠ 0 ∧ step enter work s key = s.grant enter key) ∨
    (s.task key = .running ∧
      step enter work s key = s.finish key (work key (s.context key))) := by
  unfold step
  cases s.task key with
  | waiting =>
    by_cases hfree : s.free = 0
    · exact .inl (if_pos hfree)
    · exact .inr (.inl ⟨rfl, hfree, if_neg hfree⟩)
  | running => exact .inr (.inr ⟨rfl, rfl⟩)
  | ended result => exact .inl rfl

theorem step_of_waiting (htask : s.task key = .waiting) (hfree : s.free ≠ 0) :
    step enter work s key = s.grant enter key := by
  simp only [step, htask, if_neg hfree]

theorem step_of_running (htask : s.task key = .running) :
    step enter work s key = s.finish key (work key (s.context key)) := by
  simp only [step, htask]

end Step

section Run
variable [Fintype Key] {permits : ℕ} {inherited : Context} {enter : Context → Context}
  {work : Key → Context → Result × Context} {s : State Key Context Result} {key : Key}

theorem sum_update (weight : Task Result → ℕ) (task : Key → Task Result) (key : Key)
    (t : Task Result) :
    (∑ j, weight (Function.update task key t j)) + weight (task key) =
      (∑ j, weight (task j)) + weight t := by
  have hrest : ∑ j ∈ Finset.univ.erase key, weight (Function.update task key t j) =
      ∑ j ∈ Finset.univ.erase key, weight (task j) :=
    Finset.sum_congr rfl fun j hj => by rw [Function.update_of_ne (Finset.ne_of_mem_erase hj)]
  rw [← Finset.add_sum_erase _ _ (Finset.mem_univ key), hrest, Function.update_self,
    ← Finset.add_sum_erase _ (fun j => weight (task j)) (Finset.mem_univ key)]
  omega

omit [Fintype Key] in
theorem own_update {t : Task Result} {context : Context}
    (h : ∀ j, Own inherited enter work j (s.task j) (s.context j))
    (hkey : Own inherited enter work key t context) (j : Key) :
    Own inherited enter work j (Function.update s.task key t j)
      (Function.update s.context key context j) := by
  by_cases hj : j = key
  · subst hj
    rw [Function.update_self, Function.update_self]
    exact hkey
  · rw [Function.update_of_ne hj, Function.update_of_ne hj]
    exact h j

theorem Ordered.grant (h : Ordered permits inherited enter work s)
    (htask : s.task key = .waiting) (hfree : s.free ≠ 0) :
    Ordered permits inherited enter work (s.grant enter key) where
  permits := by
    have htotal := sum_update Task.permits s.task key .running
    have hpermits := h.permits
    rw [htask] at htotal
    simp only [State.total, State.grant, Task.permits] at htotal hpermits ⊢
    omega
  once := by
    have hnew : key ∉ s.started := fun hmem => (h.started key).mp hmem htask
    exact h.once.append (List.nodup_singleton key) (by simpa using hnew)
  started j := by
    by_cases hj : j = key
    · subst hj
      simp [State.grant]
    · simp [State.grant, hj, h.started j]
  own := by
    have hcontext := h.own key
    rw [htask] at hcontext
    exact own_update h.own (congrArg enter hcontext)

theorem Ordered.finish (h : Ordered permits inherited enter work s)
    (htask : s.task key = .running) :
    Ordered permits inherited enter work (s.finish key (work key (s.context key))) where
  permits := by
    have htotal := sum_update Task.permits s.task key (.ended (work key (s.context key)).1)
    have hpermits := h.permits
    rw [htask] at htotal
    simp only [State.total, State.finish, Task.permits] at htotal hpermits ⊢
    omega
  once := h.once
  started j := by
    by_cases hj : j = key
    · subst hj
      simp [State.finish, h.started j, htask]
    · simp [State.finish, Function.update_of_ne hj, h.started j]
  own := by
    have hcontext : s.context key = enter inherited := by
      have hown := h.own key
      rwa [htask] at hown
    exact own_update h.own (congrArg (fun c => (work key c).1) hcontext)

theorem Ordered.step (h : Ordered permits inherited enter work s) (key : Key) :
    Ordered permits inherited enter work (step enter work s key) := by
  obtain hsame | ⟨htask, hfree, hstep⟩ | ⟨htask, hstep⟩ :=
    step_cases enter work s key
  · rw [hsame]
    exact h
  · rw [hstep]
    exact h.grant htask hfree
  · rw [hstep]
    exact h.finish htask

theorem Ordered.run (h : Ordered permits inherited enter work s) (schedule : List Key) :
    Ordered permits inherited enter work (run (Gather.step enter work) s schedule) :=
  invariant (fun _ key h _ => h.step key) h (along_trivial _ schedule)

theorem Ordered.advances (h : Ordered permits inherited enter work s) (hpermits : 0 < permits)
    (hopen : ¬ s.Complete) : ∃ key,
      (Gather.step enter work s key).total Task.remaining < s.total Task.remaining := by
  by_cases hrunning : ∃ key, s.task key = .running
  · obtain ⟨key, htask⟩ := hrunning
    refine ⟨key, ?_⟩
    have htotal := sum_update Task.remaining s.task key (.ended (work key (s.context key)).1)
    rw [htask] at htotal
    rw [step_of_running htask]
    simp only [State.total, State.finish, Task.remaining] at htotal ⊢
    omega
  · obtain ⟨key, htask⟩ : ∃ key, s.task key = .waiting := by
      by_contra hnone
      refine hopen fun key => ?_
      cases htask : s.task key with
      | waiting => exact absurd ⟨key, htask⟩ hnone
      | running => exact absurd ⟨key, htask⟩ hrunning
      | ended result => exact ⟨result, rfl⟩
    have hidle : s.total Task.permits = 0 := by
      refine Finset.sum_eq_zero fun j _ => ?_
      cases htask : s.task j with
      | running => exact absurd ⟨j, htask⟩ hrunning
      | waiting => rfl
      | ended result => rfl
    have hfree : s.free ≠ 0 := by
      have := h.permits
      omega
    refine ⟨key, ?_⟩
    have htotal := sum_update Task.remaining s.task key .running
    rw [htask] at htotal
    rw [step_of_waiting htask hfree]
    simp only [State.total, State.grant, Task.remaining] at htotal ⊢
    omega

theorem Ordered.completes (h : Ordered permits inherited enter work s) (hpermits : 0 < permits) :
    ∃ schedule, (Trace.run (Gather.step enter work) s schedule).Complete := by
  induction hleft : s.total Task.remaining using Nat.strong_induction_on generalizing s with
  | _ left ih =>
    by_cases hdone : s.Complete
    · exact ⟨[], hdone⟩
    · obtain ⟨key, hless⟩ := h.advances hpermits hdone
      obtain ⟨schedule, hschedule⟩ := ih _ (hleft ▸ hless) (h.step key) rfl
      exact ⟨key :: schedule, hschedule⟩

end Run

end Gather
