import Mathlib.Logic.Function.Basic

-- An exception that is no Exception and no cancellation ends the process and is left out.
inductive Exit (ε α : Type) where
  | returned (value : α)
  | raised (error : ε)
  | cancelled

namespace Exit
variable {ε α β : Type}

def map (f : α → β) : Exit ε α → Exit ε β
  | .returned value => .returned (f value)
  | .raised error => .raised error
  | .cancelled => .cancelled

def value? : Exit ε α → Option α
  | .returned value => some value
  | _ => none

def ofExcept : Except ε α → Exit ε α
  | .ok value => .returned value
  | .error error => .raised error

end Exit

-- A coroutine run to its end: how it ends, and the state it leaves.
structure Coroutine (σ ε α : Type) where
  run : σ → Exit ε α × σ

namespace Coroutine
variable {σ ε α β : Type}

def bind (body : Coroutine σ ε α) (next : α → Coroutine σ ε β) : Coroutine σ ε β where
  run s :=
    match body.run s with
    | (.returned value, s) => (next value).run s
    | (.raised error, s) => (.raised error, s)
    | (.cancelled, s) => (.cancelled, s)

-- The answer comes from outside the program, which leaves the state as it is.
def await (answer : Exit ε α) : Coroutine σ ε α := ⟨fun s => (answer, s)⟩

instance : Monad (Coroutine σ ε) where
  pure value := await (.returned value)
  bind := bind

def call (answer : Except ε α) : Coroutine σ ε α := await (.ofExcept answer)

def raise (error : ε) : Coroutine σ ε α := await (.raised error)

def cancel : Coroutine σ ε α := await .cancelled

def read : Coroutine σ ε σ := ⟨fun s => (.returned s, s)⟩

def update (f : σ → σ) : Coroutine σ ε Unit := ⟨fun s => (.returned (), f s)⟩

-- One try statement with a handler of exceptions and one of a cancellation: what a handler does
-- is not caught by the other.
def handle (body : Coroutine σ ε α) (onRaised : ε → Coroutine σ ε α)
    (onCancelled : Coroutine σ ε α) : Coroutine σ ε α where
  run s :=
    match body.run s with
    | (.returned value, s) => (.returned value, s)
    | (.raised error, s) => (onRaised error).run s
    | (.cancelled, s) => onCancelled.run s

def exceptRaised (body : Coroutine σ ε α) (onRaised : ε → Coroutine σ ε α) : Coroutine σ ε α :=
  handle body onRaised cancel

-- An exit of the cleanup replaces that of the body.
def ensure (body : Coroutine σ ε α) (cleanup : Coroutine σ ε Unit) : Coroutine σ ε α where
  run s :=
    match cleanup.run (body.run s).2 with
    | (.returned _, final) => ((body.run s).1, final)
    | (.raised error, final) => (.raised error, final)
    | (.cancelled, final) => (.cancelled, final)

section Runs
variable (s : σ)

@[simp] theorem run_pure (value : α) :
    (pure value : Coroutine σ ε α).run s = (.returned value, s) := rfl

@[simp] theorem run_await (answer : Exit ε α) : (await answer).run s = (answer, s) := rfl

@[simp] theorem run_call (answer : Except ε α) :
    (call answer : Coroutine σ ε α).run s = (.ofExcept answer, s) := rfl

theorem run_bind (body : Coroutine σ ε α) (next : α → Coroutine σ ε β) :
    (body >>= next).run s =
      match body.run s with
      | (.returned value, s) => (next value).run s
      | (.raised error, s) => (.raised error, s)
      | (.cancelled, s) => (.cancelled, s) := rfl

theorem ok_of_call {answer : Except ε α} {value : α}
    (h : ((call answer : Coroutine σ ε α).run s).1 = .returned value) : answer = .ok value := by
  cases answer with
  | ok given => rw [Exit.returned.inj h]
  | error error => cases h

variable {s} {mid : σ} {body : Coroutine σ ε α} {next : α → Coroutine σ ε β}
  {onRaised : ε → Coroutine σ ε α} {onCancelled : Coroutine σ ε α}

theorem call_ok {answer : Except ε α} {value : α} (h : answer = .ok value) :
    (call answer : Coroutine σ ε α).run s = (.returned value, s) := by
  rw [run_call, h]
  rfl

theorem call_error {answer : Except ε α} {error : ε} (h : answer = .error error) :
    (call answer : Coroutine σ ε α).run s = (.raised error, s) := by
  rw [run_call, h]
  rfl

theorem bind_returned {value : α} (h : body.run s = (.returned value, mid)) :
    (body >>= next).run s = (next value).run mid := by
  rw [run_bind, h]

theorem bind_raised {error : ε} (h : body.run s = (.raised error, mid)) :
    (body >>= next).run s = (.raised error, mid) := by
  rw [run_bind, h]

theorem bind_cancelled (h : body.run s = (.cancelled, mid)) :
    (body >>= next).run s = (.cancelled, mid) := by
  rw [run_bind, h]

theorem bind_idle {exit : Exit ε α} (h : body.run s = (exit, mid))
    (hnext : ∀ value, exit = .returned value → ((next value).run mid).2 = mid) :
    ((body >>= next).run s).2 = mid := by
  cases exit with
  | returned value => rw [bind_returned h, hnext value rfl]
  | raised error => rw [bind_raised h]
  | cancelled => rw [bind_cancelled h]

theorem bind_raise_ne_returned (error : ε) (value : β) :
    ((body >>= fun _ => (raise error : Coroutine σ ε β)).run s).1 ≠ .returned value := by
  rw [run_bind]
  generalize body.run s = left
  obtain ⟨exit, mid⟩ := left
  cases exit with
  | returned value => exact fun h => by cases h
  | raised error => exact fun h => by cases h
  | cancelled => exact fun h => by cases h

theorem handle_returned {value : α} (h : body.run s = (.returned value, mid)) :
    (handle body onRaised onCancelled).run s = (.returned value, mid) := by
  simp only [handle, h]

theorem handle_raised {error : ε} (h : body.run s = (.raised error, mid)) :
    (handle body onRaised onCancelled).run s = (onRaised error).run mid := by
  simp only [handle, h]

theorem handle_cancelled (h : body.run s = (.cancelled, mid)) :
    (handle body onRaised onCancelled).run s = onCancelled.run mid := by
  simp only [handle, h]

theorem ensure_run {cleanup : Coroutine σ ε Unit} {exit : Exit ε α}
    (h : body.run s = (exit, mid)) :
    (ensure body cleanup).run s =
      match cleanup.run mid with
      | (.returned _, final) => (exit, final)
      | (.raised error, final) => (.raised error, final)
      | (.cancelled, final) => (.cancelled, final) := by
  simp only [ensure, h]

theorem ensure_final (body : Coroutine σ ε α) (cleanup : Coroutine σ ε Unit) (s : σ) :
    ((ensure body cleanup).run s).2 = (cleanup.run (body.run s).2).2 := by
  unfold ensure
  simp only
  generalize cleanup.run (body.run s).2 = right
  obtain ⟨last, final⟩ := right
  cases last with
  | returned value => rfl
  | raised error => rfl
  | cancelled => rfl

end Runs

def Ends (P : σ → Prop) (body : Coroutine σ ε α) (Q : Exit ε α → σ → Prop) : Prop :=
  ∀ s, P s → Q (body.run s).1 (body.run s).2

def sequel (R : α → σ → Prop) (Q : Exit ε β → σ → Prop) : Exit ε α → σ → Prop
  | .returned value => R value
  | .raised error => Q (.raised error)
  | .cancelled => Q .cancelled

section Rules
variable {P P' : σ → Prop} {R : α → σ → Prop} {Q Q' : Exit ε β → σ → Prop}
  {body : Coroutine σ ε α} {prog : Coroutine σ ε β}

theorem Ends.weaken (h : Ends P prog Q) (hP : ∀ s, P' s → P s)
    (hQ : ∀ exit s, Q exit s → Q' exit s) : Ends P' prog Q' :=
  fun s hs => hQ _ _ (h s (hP s hs))

theorem ends_bind {next : α → Coroutine σ ε β} (hbody : Ends P body (sequel R Q))
    (hnext : ∀ value, Ends (R value) (next value) Q) : Ends P (body >>= next) Q := by
  intro s hs
  have hmid := hbody s hs
  rw [run_bind]
  generalize body.run s = left at hmid ⊢
  obtain ⟨exit, mid⟩ := left
  cases exit with
  | returned value => exact hnext value mid hmid
  | raised error => exact hmid
  | cancelled => exact hmid

theorem ends_read {next : σ → Coroutine σ ε β}
    (h : ∀ s, P s → Ends (· = s) (next s) Q) : Ends P (read >>= next) Q :=
  fun s hs => h s hs s rfl

theorem ends_update {f : σ → σ} {next : Unit → Coroutine σ ε β} {A : σ → Prop}
    (h : ∀ s, P s → A (f s)) (hnext : Ends A (next ()) Q) : Ends P (update f >>= next) Q :=
  fun s hs => hnext (f s) (h s hs)

theorem ends_handle {onRaised : ε → Coroutine σ ε β} {onCancelled : Coroutine σ ε β}
    {M : Exit ε β → σ → Prop} (hprog : Ends P prog M)
    (hreturned : ∀ value s, M (.returned value) s → Q (.returned value) s)
    (hraised : ∀ error, Ends (M (.raised error)) (onRaised error) Q)
    (hcancelled : Ends (M .cancelled) onCancelled Q) :
    Ends P (handle prog onRaised onCancelled) Q := by
  intro s hs
  have hmid := hprog s hs
  unfold handle
  simp only
  generalize prog.run s = left at hmid ⊢
  obtain ⟨exit, mid⟩ := left
  cases exit with
  | returned value => exact hreturned value mid hmid
  | raised error => exact hraised error mid hmid
  | cancelled => exact hcancelled mid hmid

end Rules

def Keeps (P : σ → Prop) (body : Coroutine σ ε α) : Prop := Ends P body fun _ s => P s

section Invariants
variable {P : σ → Prop} {body : Coroutine σ ε α}

theorem keeps_await (answer : Exit ε α) : Keeps P (await answer) := fun _ hs => hs

theorem keeps_call (answer : Except ε α) : Keeps P (call answer : Coroutine σ ε α) :=
  keeps_await _

theorem Ends.keeps_bind {I : σ → Prop} {F : α → Prop} {next : α → Coroutine σ ε β}
    (hbody : Ends P body fun _ s => I s)
    (hvalue : ∀ s value, P s → (body.run s).1 = .returned value → F value)
    (hnext : ∀ value, F value → Keeps I (next value)) :
    Ends P (body >>= next) fun _ s => I s := by
  intro s hs
  have hmid := hbody s hs
  have hfact := hvalue s
  rw [run_bind]
  generalize body.run s = left at hmid hfact ⊢
  obtain ⟨exit, mid⟩ := left
  cases exit with
  | returned value => exact hnext value (hfact value hs rfl) mid hmid
  | raised error => exact hmid
  | cancelled => exact hmid

theorem Keeps.bind {next : α → Coroutine σ ε β} (hbody : Keeps P body)
    (hnext : ∀ value, Keeps P (next value)) : Keeps P (body >>= next) :=
  Ends.keeps_bind hbody (fun _ _ _ _ => trivial) fun value _ => hnext value

theorem Keeps.handle {onRaised : ε → Coroutine σ ε α} {onCancelled : Coroutine σ ε α}
    (hbody : Keeps P body) (hraised : ∀ error, Keeps P (onRaised error))
    (hcancelled : Keeps P onCancelled) : Keeps P (handle body onRaised onCancelled) :=
  ends_handle hbody (fun _ _ hs => hs) hraised hcancelled

theorem Keeps.ensure {cleanup : Coroutine σ ε Unit} (hbody : Keeps P body)
    (hcleanup : Keeps P cleanup) : Keeps P (ensure body cleanup) := by
  intro s hs
  rw [ensure_final]
  exact hcleanup _ (hbody s hs)

end Invariants

end Coroutine

namespace ContextVar
variable {Var : Type} [DecidableEq Var] {Value : Var → Type}

abbrev Context (Value : Var → Type) := ∀ v, Value v

-- The variable and the value it had before the set that made the token.
abbrev Token (Value : Var → Type) := Σ v, Value v

def reset (context : Context Value) (token : Token Value) : Context Value :=
  Function.update context token.1 token.2

def setAll (context : Context Value) : List (Σ v, Value v) → Context Value × List (Token Value)
  | [] => (context, [])
  | ⟨v, value⟩ :: rest =>
    let (after, tokens) := setAll (Function.update context v value) rest
    (after, ⟨v, context v⟩ :: tokens)

def resetAll (context : Context Value) (tokens : List (Token Value)) : Context Value :=
  tokens.foldl reset context

theorem resetAll_reverse_setAll (before after : Context Value) (assigned : List (Σ v, Value v))
    (w : Var) : resetAll after (setAll before assigned).2.reverse w =
      if w ∈ assigned.map Sigma.fst then before w else after w := by
  induction assigned generalizing before with
  | nil => simp [setAll, resetAll]
  | cons item rest ih =>
    obtain ⟨v, value⟩ := item
    have hrest := ih (Function.update before v value)
    simp only [resetAll] at hrest
    simp only [setAll, resetAll, List.reverse_cons, List.foldl_append, List.foldl_cons,
      List.foldl_nil, reset, List.map_cons, List.mem_cons]
    by_cases hw : w = v
    · subst hw
      simp
    · rw [Function.update_of_ne hw, hrest, Function.update_of_ne hw]
      simp only [hw, false_or]

theorem reset_restores (before after : Context Value) {assigned : List (Σ v, Value v)}
    (hall : ∀ w, w ∈ assigned.map Sigma.fst) :
    resetAll after (setAll before assigned).2.reverse = before := by
  funext w
  rw [resetAll_reverse_setAll, if_pos (hall w)]

end ContextVar
