import NocAgent.Library.Trace
import Mathlib.Algebra.Order.Ring.Rat

-- A cache that many callers read and fill, each of them waiting for its own fetch between the
-- steps of the others.
namespace SharedCache
open Trace

variable {κ γ α ε : Type}

-- What a caller looks under, if it uses the cache at all, what is kept of a value fetched at this
-- time, and whether that may still be handed out at another.
structure Policy (κ γ α ε : Type) where
  key : γ → Option κ
  entry : ℚ → α → ε
  value : ε → α
  fresh : ℚ → ε → Bool
  value_entry : ∀ time v, value (entry time v) = v

structure Fetched (γ α : Type) where
  caller : γ
  value : α
  time : ℚ

inductive Task (γ α : Type) where
  | fetching (caller : γ)
  | returned (caller : γ) (value : Option α) (time : ℚ)
deriving DecidableEq

def Task.caller : Task γ α → γ
  | .fetching caller | .returned caller _ _ => caller

structure State (κ γ α ε : Type) where
  now : ℚ := 0
  entries : κ → Option ε := fun _ => none
  task : ℕ → Option (Task γ α) := fun _ => none
  fetched : List (Fetched γ α) := []

inductive Move (γ α : Type) where
  | ask (id : ℕ) (caller : γ)
  | answer (id : ℕ) (value : Option α)
  | tick (seconds : ℚ)

namespace State

def set (s : State κ γ α ε) (id : ℕ) (task : Task γ α) : State κ γ α ε :=
  { s with task := fun id' => if id' = id then some task else s.task id' }

def keep [DecidableEq κ] (s : State κ γ α ε) (p : Policy κ γ α ε) (caller : γ) (v : α) :
    State κ γ α ε :=
  { s with
    entries := fun key => if p.key caller = some key then some (p.entry s.now v) else s.entries key
    fetched := s.fetched ++ [⟨caller, v, s.now⟩] }

def find (s : State κ γ α ε) (p : Policy κ γ α ε) (caller : γ) : Option α :=
  match (p.key caller).bind s.entries with
  | some e => if p.fresh s.now e then some (p.value e) else none
  | none => none

end State

def step [DecidableEq κ] (p : Policy κ γ α ε) (s : State κ γ α ε) : Move γ α → State κ γ α ε
  | .ask id caller =>
    match s.task id, s.find p caller with
    | none, some v => s.set id (.returned caller (some v) s.now)
    | none, none => s.set id (.fetching caller)
    | some _, _ => s
  | .answer id value =>
    match s.task id, value with
    | some (.fetching caller), some v =>
      (s.keep p caller v).set id (.returned caller (some v) s.now)
    | some (.fetching caller), none => s.set id (.returned caller none s.now)
    | some (.returned _ _ _), _ | none, _ => s
  | .tick seconds => { s with now := s.now + seconds }

-- The value is what the caller fetched itself just then, or was fetched by a caller that looks
-- under the same key and was fresh then.
def Backed (p : Policy κ γ α ε) (s : State κ γ α ε) (caller : γ) (v : α) (time : ℚ) : Prop :=
  ∃ f ∈ s.fetched, f.value = v ∧
    (f.caller = caller ∧ f.time = time ∨
      ∃ key, p.key f.caller = some key ∧ p.key caller = some key ∧
        p.fresh time (p.entry f.time f.value) = true)

structure Sound (p : Policy κ γ α ε) (s : State κ γ α ε) : Prop where
  entries : ∀ key e, s.entries key = some e →
    ∃ f ∈ s.fetched, p.key f.caller = some key ∧ e = p.entry f.time f.value
  returned : ∀ id caller v time, s.task id = some (.returned caller (some v) time) →
    Backed p s caller v time

section Steps
variable {p : Policy κ γ α ε} {s : State κ γ α ε} {caller : γ} {v : α} {id : ℕ} {task : Task γ α}
  {time : ℚ}

theorem Backed.grow {s' : State κ γ α ε} (hfetched : s.fetched ⊆ s'.fetched)
    (h : Backed p s caller v time) : Backed p s' caller v time := by
  obtain ⟨f, hf, hrest⟩ := h
  exact ⟨f, hfetched hf, hrest⟩

theorem Sound.set (h : Sound p s)
    (htask : ∀ caller v time, task = .returned caller (some v) time → Backed p s caller v time) :
    Sound p (s.set id task) := by
  refine ⟨h.entries, fun id' caller v time h' => ?_⟩
  simp only [State.set] at h'
  split_ifs at h'
  · exact htask caller v time (Option.some.inj h')
  · exact h.returned id' caller v time h'

theorem backed_of_find (h : Sound p s) (hfind : s.find p caller = some v) :
    Backed p s caller v s.now := by
  rw [State.find] at hfind
  split at hfind
  next e he =>
    split_ifs at hfind with hfresh
    cases hfind
    obtain ⟨key, hkey, hentry⟩ := Option.bind_eq_some_iff.mp he
    obtain ⟨f, hf, hfkey, rfl⟩ := h.entries key e hentry
    exact ⟨f, hf, (p.value_entry f.time f.value).symm, .inr ⟨key, hfkey, hkey, hfresh⟩⟩
  next => cases hfind

theorem caller_set {id' : ℕ} {task' : Task γ α} (h : (s.set id' task).task id = some task') :
    s.task id = some task' ∨ id = id' ∧ task = task' := by
  simp only [State.set] at h
  split_ifs at h with hid
  · exact .inr ⟨hid, Option.some.inj h⟩
  · exact .inl h

theorem task_set_self (s : State κ γ α ε) (id : ℕ) (task : Task γ α) :
    (s.set id task).task id = some task := if_pos rfl

theorem task_set_other {id' : ℕ} (hid : id ≠ id') (s : State κ γ α ε) (task : Task γ α) :
    (s.set id' task).task id = s.task id := if_neg hid

variable [DecidableEq κ]

theorem fetched_keep (s : State κ γ α ε) (caller : γ) (v : α) :
    s.fetched ⊆ (s.keep p caller v).fetched := List.subset_append_left _ _

theorem Sound.keep (h : Sound p s) (caller : γ) (v : α) : Sound p (s.keep p caller v) := by
  have hnew : (⟨caller, v, s.now⟩ : Fetched γ α) ∈ (s.keep p caller v).fetched :=
    List.mem_append_right _ (List.mem_singleton_self _)
  constructor
  · intro key e he
    simp only [State.keep] at he
    split_ifs at he with hkey
    · cases he
      exact ⟨_, hnew, hkey, rfl⟩
    · obtain ⟨f, hf, hrest⟩ := h.entries key e he
      exact ⟨f, fetched_keep s caller v hf, hrest⟩
  · exact fun id caller' v' time h' =>
      (h.returned id caller' v' time h').grow (fetched_keep s caller v)

theorem backed_keep (s : State κ γ α ε) (caller : γ) (v : α) :
    Backed p (s.keep p caller v) caller v s.now :=
  ⟨⟨caller, v, s.now⟩, List.mem_append_right _ (List.mem_singleton_self _), rfl, .inl ⟨rfl, rfl⟩⟩

theorem Sound.step (h : Sound p s) (move : Move γ α) : Sound p (step p s move) := by
  cases move with
  | ask id caller =>
    rw [SharedCache.step]
    split
    next v _ hfind =>
      refine h.set ?_
      rintro _ _ _ ⟨⟩
      exact backed_of_find h hfind
    next => exact h.set (by rintro _ _ _ ⟨⟩)
    next => exact h
  | answer id value =>
    unfold SharedCache.step
    dsimp only
    split
    next caller v _ =>
      refine (h.keep caller v).set ?_
      rintro _ _ _ ⟨⟩
      exact backed_keep s caller v
    next => exact h.set (by rintro _ _ _ ⟨⟩)
    next => exact h
    next => exact h
  | tick seconds => exact ⟨h.entries, h.returned⟩

theorem caller_step {move : Move γ α} (h : (step p s move).task id = some task) :
    (∃ before, s.task id = some before ∧ before.caller = task.caller) ∨
      move = .ask id task.caller := by
  cases move with
  | ask id' caller =>
    unfold SharedCache.step at h
    dsimp only at h
    split at h
    · rcases caller_set h with hold | ⟨rfl, rfl⟩
      · exact .inl ⟨task, hold, rfl⟩
      · exact .inr rfl
    · rcases caller_set h with hold | ⟨rfl, rfl⟩
      · exact .inl ⟨task, hold, rfl⟩
      · exact .inr rfl
    · exact .inl ⟨task, h, rfl⟩
  | answer id' value =>
    refine .inl ?_
    unfold SharedCache.step at h
    dsimp only at h
    split at h
    next caller v hbefore =>
      rcases caller_set h with hold | ⟨rfl, rfl⟩
      · exact ⟨task, hold, rfl⟩
      · exact ⟨.fetching caller, hbefore, rfl⟩
    next caller hbefore =>
      rcases caller_set h with hold | ⟨rfl, rfl⟩
      · exact ⟨task, hold, rfl⟩
      · exact ⟨.fetching caller, hbefore, rfl⟩
    next => exact ⟨task, h, rfl⟩
    next => exact ⟨task, h, rfl⟩
  | tick seconds => exact .inl ⟨task, h, rfl⟩

theorem caller_kept (h : s.task id = some task) (move : Move γ α) :
    ∃ after, (step p s move).task id = some after ∧ after.caller = task.caller := by
  have hset : ∀ (s' : State κ γ α ε) (id' : ℕ) (next : Task γ α), s'.task = s.task →
      (id = id' → next.caller = task.caller) →
      ∃ after, (s'.set id' next).task id = some after ∧ after.caller = task.caller := by
    intro s' id' next hsame hnext
    obtain rfl | hid := eq_or_ne id id'
    · exact ⟨next, task_set_self s' id next, hnext rfl⟩
    · exact ⟨task, by rw [task_set_other hid, hsame, h], rfl⟩
  cases move with
  | ask id' caller =>
    unfold SharedCache.step
    dsimp only
    split
    next hfree _ => exact hset s id' _ rfl fun hid => by rw [hid, hfree] at h; cases h
    next hfree _ => exact hset s id' _ rfl fun hid => by rw [hid, hfree] at h; cases h
    next => exact ⟨task, h, rfl⟩
  | answer id' value =>
    unfold SharedCache.step
    dsimp only
    split
    next caller v hbefore =>
      exact hset (s.keep p caller v) id' _ rfl fun hid => by rw [hid, hbefore] at h; cases h; rfl
    next caller hbefore =>
      exact hset s id' _ rfl fun hid => by rw [hid, hbefore] at h; cases h; rfl
    next => exact ⟨task, h, rfl⟩
    next => exact ⟨task, h, rfl⟩
  | tick seconds => exact ⟨task, h, rfl⟩

theorem fetched_step {move : Move γ α} {f : Fetched γ α} (h : f ∈ (step p s move).fetched) :
    f ∈ s.fetched ∨
      ∃ id, s.task id = some (.fetching f.caller) ∧ move = .answer id (some f.value) := by
  cases move with
  | ask id caller =>
    unfold SharedCache.step at h
    dsimp only at h
    split at h <;> exact .inl h
  | answer id value =>
    unfold SharedCache.step at h
    dsimp only at h
    split at h
    next caller v htask =>
      refine (List.mem_append.mp h).imp_right fun hnew => ?_
      cases List.mem_singleton.mp hnew
      exact ⟨id, htask, rfl⟩
    next => exact .inl h
    next => exact .inl h
    next => exact .inl h
  | tick seconds => exact .inl h

theorem caller_run {moves : List (Move γ α)}
    (h : (run (step p) {} moves).task id = some task) : .ask id task.caller ∈ moves := by
  induction moves using List.reverseRecOn generalizing task with
  | nil => cases h
  | append_singleton moves move ih =>
    rw [run_append] at h
    rcases caller_step h with ⟨before, hbefore, hcaller⟩ | rfl
    · exact List.mem_append_left _ (hcaller ▸ ih hbefore)
    · exact List.mem_append_right _ (List.mem_singleton_self _)

theorem fetched_run {moves : List (Move γ α)} {f : Fetched γ α}
    (h : f ∈ (run (step p) {} moves).fetched) :
    ∃ id, .ask id f.caller ∈ moves ∧ .answer id (some f.value) ∈ moves := by
  induction moves using List.reverseRecOn with
  | nil => cases h
  | append_singleton moves move ih =>
    rw [run_append] at h
    rcases fetched_step h with hold | ⟨id, htask, rfl⟩
    · obtain ⟨id, hask, hanswer⟩ := ih hold
      exact ⟨id, List.mem_append_left _ hask, List.mem_append_left _ hanswer⟩
    · exact ⟨id, List.mem_append_left _ (caller_run htask),
        List.mem_append_right _ (List.mem_singleton_self _)⟩

theorem sound_run (p : Policy κ γ α ε) (moves : List (Move γ α)) :
    Sound p (run (step p) {} moves) := by
  have hstart : Sound p ({} : State κ γ α ε) :=
    ⟨fun key e he => (by cases he), fun id caller v time h => (by cases h)⟩
  exact invariant (fun _ move h _ => h.step move) hstart (along_trivial _ moves)

end Steps

end SharedCache
