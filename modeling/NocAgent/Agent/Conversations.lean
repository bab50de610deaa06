import NocAgent.Agent.Turn
import NocAgent.Library.ListHeap
import NocAgent.Library.Trace

namespace Agent

open RunLedger

inductive Role where
  | user | assistant
deriving DecidableEq, Repr

structure Message where
  role : Role
  text : String
deriving DecidableEq, Repr

-- The _conversations dictionary: a history is a list object, which no two users share.
structure Conversations (M : Type) where
  heap : ListHeap M
  ref : String → Option ℕ
  bound : ∀ user r, ref user = some r → r < heap.next
  apart : ∀ user user' r, ref user = some r → ref user' = some r → user = user'

namespace Conversations
variable {M : Type}

def empty : Conversations M where
  heap := ⟨0, fun _ => []⟩
  ref _ := none
  bound _ _ h := by cases h
  apart _ _ _ h := by cases h

def stored (c : Conversations M) (user : String) : Option (List M) := (c.ref user).map c.heap.cell

def fetch (c : Conversations M) (user : String) (message : M) : Conversations M × ℕ :=
  match c.ref user with
  | some r => ({ c with heap := c.heap.append r message }, r)
  | none =>
    let fresh := c.heap.alloc []
    ({ heap := fresh.1.append fresh.2 message
       ref := c.ref
       bound := fun user r h => Nat.lt_succ_of_lt (c.bound user r h)
       apart := c.apart }, fresh.2)

def store (c : Conversations M) (user : String) (r : ℕ) (answer : M) : Conversations M where
  heap := (c.heap.alloc (c.heap.cell r ++ [answer])).1
  ref := Function.update c.ref user (some c.heap.next)
  bound := by
    intro user' r' h
    rw [Function.update_apply] at h
    split_ifs at h
    · cases h
      exact Nat.lt_succ_self _
    · exact Nat.lt_succ_of_lt (c.bound user' r' h)
  apart := by
    intro a b r' ha hb
    rw [Function.update_apply] at ha hb
    split_ifs at ha hb with hau hbu hbu
    · rw [hau, hbu]
    · cases ha
      exact absurd (c.bound b _ hb) (Nat.lt_irrefl _)
    · cases hb
      exact absurd (c.bound a _ ha) (Nat.lt_irrefl _)
    · exact c.apart a b r' ha hb

def pop (c : Conversations M) (user : String) : Conversations M where
  heap := c.heap
  ref := Function.update c.ref user none
  bound := by
    intro user' r h
    rw [Function.update_apply] at h
    split_ifs at h
    exact c.bound user' r h
  apart := by
    intro a b r ha hb
    rw [Function.update_apply] at ha hb
    split_ifs at ha hb
    exact c.apart a b r ha hb

def map {N : Type} (f : M → N) (c : Conversations M) : Conversations N where
  heap := c.heap.map f
  ref := c.ref
  bound := c.bound
  apart := c.apart

-- Every message of every history object, stored or not.
def All (P : M → Prop) (c : Conversations M) : Prop :=
  ∀ r < c.heap.next, ∀ message ∈ c.heap.cell r, P message

section Stored
variable (c : Conversations M) (user : String) (message : M)

theorem ref_fetch (other : String) : (c.fetch user message).1.ref other = c.ref other := by
  simp only [fetch]
  split <;> rfl

theorem fetch_of_some {r : ℕ} (h : c.ref user = some r) :
    (c.fetch user message).1.heap = c.heap.append r message ∧ (c.fetch user message).2 = r := by
  simp only [fetch]
  split
  · rename_i r' h'
    rw [h] at h'
    cases h'
    exact ⟨rfl, rfl⟩
  · rename_i h'
    rw [h] at h'
    cases h'

theorem fetch_of_none (h : c.ref user = none) :
    (c.fetch user message).1.heap = (c.heap.alloc []).1.append c.heap.next message ∧
      (c.fetch user message).2 = c.heap.next := by
  simp only [fetch]
  split
  · rename_i r' h'
    rw [h] at h'
    cases h'
  · exact ⟨rfl, rfl⟩

theorem stored_fetch (other : String) :
    (c.fetch user message).1.stored other =
      if other = user then (c.stored user).map (· ++ [message]) else c.stored other := by
  simp only [stored, ref_fetch]
  cases hu : c.ref user with
  | none =>
    rw [(c.fetch_of_none user message hu).1]
    cases ho : c.ref other with
    | none => simp
    | some r =>
      have hr : r < c.heap.next := c.bound other r ho
      have hne : other ≠ user := by
        rintro rfl
        rw [hu] at ho
        cases ho
      rw [if_neg hne, Option.map_some, Option.map_some, ListHeap.cell_append,
        if_neg (Nat.ne_of_lt hr), ListHeap.cell_alloc_of_lt _ _ hr]
  | some r =>
    rw [(c.fetch_of_some user message hu).1]
    split_ifs with hou
    · subst hou
      simp [hu, ListHeap.cell_append]
    · cases ho : c.ref other with
      | none => rfl
      | some r' =>
        have hne : r' ≠ r := by
          rintro rfl
          exact hou (c.apart other user r' ho hu)
        simp [ListHeap.cell_append, hne]

theorem cell_fetch :
    (c.fetch user message).1.heap.cell (c.fetch user message).2 =
      (c.stored user).getD [] ++ [message] := by
  rw [stored]
  cases hu : c.ref user with
  | none =>
    obtain ⟨hheap, href⟩ := c.fetch_of_none user message hu
    rw [hheap, href, ListHeap.cell_append, if_pos rfl, ListHeap.cell_alloc, if_pos rfl]
    rfl
  | some r =>
    obtain ⟨hheap, href⟩ := c.fetch_of_some user message hu
    rw [hheap, href, ListHeap.cell_append, if_pos rfl]
    rfl

theorem stored_store (r : ℕ) (answer : M) (other : String) :
    (c.store user r answer).stored other =
      if other = user then some (c.heap.cell r ++ [answer]) else c.stored other := by
  simp only [store, stored, Function.update_apply]
  split_ifs with hou
  · rw [Option.map_some, ListHeap.cell_alloc, if_pos rfl]
  · cases ho : c.ref other with
    | none => rfl
    | some r' =>
      simp only [Option.map_some, ListHeap.cell_alloc_of_lt _ _ (c.bound other r' ho)]

theorem stored_pop (other : String) :
    (c.pop user).stored other = if other = user then none else c.stored other := by
  simp only [pop, stored, Function.update_apply]
  split_ifs <;> rfl

theorem next_fetch_of_some {r : ℕ} (h : c.ref user = some r) :
    (c.fetch user message).1.heap.next = c.heap.next := by
  rw [(c.fetch_of_some user message h).1, ListHeap.next_append]

theorem next_le_fetch : c.heap.next ≤ (c.fetch user message).1.heap.next := by
  cases hu : c.ref user with
  | none =>
    rw [(c.fetch_of_none user message hu).1, ListHeap.next_append, ListHeap.next_alloc]
    exact Nat.le_succ _
  | some r => rw [next_fetch_of_some c user message hu]

theorem fetch_bound : (c.fetch user message).2 < (c.fetch user message).1.heap.next := by
  cases hu : c.ref user with
  | none =>
    obtain ⟨hheap, href⟩ := c.fetch_of_none user message hu
    rw [hheap, href, ListHeap.next_append, ListHeap.next_alloc]
    exact Nat.lt_succ_self _
  | some r =>
    rw [next_fetch_of_some c user message hu, (c.fetch_of_some user message hu).2]
    exact c.bound user r hu

theorem cell_fetch_of_ne {r : ℕ} (hr : r ≠ (c.fetch user message).2) :
    (c.fetch user message).1.heap.cell r = c.heap.cell r := by
  cases hu : c.ref user with
  | none =>
    obtain ⟨hheap, href⟩ := c.fetch_of_none user message hu
    rw [href] at hr
    rw [hheap, ListHeap.cell_append, if_neg hr, ListHeap.cell_alloc, if_neg hr]
  | some r' =>
    obtain ⟨hheap, href⟩ := c.fetch_of_some user message hu
    rw [href] at hr
    rw [hheap, ListHeap.cell_append, if_neg hr]

theorem cell_store {r r' : ℕ} (answer : M) (hr : r' < c.heap.next) :
    (c.store user r answer).heap.cell r' = c.heap.cell r' :=
  ListHeap.cell_alloc_of_lt _ _ hr

variable {c} {P : M → Prop}

theorem All.mono {Q : M → Prop} (h : All P c) (hPQ : ∀ message, P message → Q message) :
    All Q c := fun r hr message hm => hPQ message (h r hr message hm)

theorem All.stored (h : All P c) : ∀ message ∈ (c.stored user).getD [], P message := by
  intro m hm
  rw [Conversations.stored] at hm
  cases hu : c.ref user with
  | none =>
    rw [hu] at hm
    cases hm
  | some r =>
    rw [hu] at hm
    exact h r (c.bound user r hu) m hm

theorem All.fetch {message : M} (h : All P c) (hm : P message) :
    All P (c.fetch user message).1 := by
  intro r hr m hmem
  by_cases href : r = (c.fetch user message).2
  · rw [href, cell_fetch, List.mem_append, List.mem_singleton] at hmem
    rcases hmem with hold | rfl
    · exact h.stored user m hold
    · exact hm
  · rw [cell_fetch_of_ne c user message href] at hmem
    refine h r ?_ m hmem
    cases hu : c.ref user with
    | none =>
      obtain ⟨hheap, hnext⟩ := c.fetch_of_none user message hu
      rw [hheap, ListHeap.next_append, ListHeap.next_alloc] at hr
      rw [hnext] at href
      omega
    | some r' => rwa [next_fetch_of_some c user message hu] at hr

theorem All.store {r : ℕ} {answer : M} (h : All P c) (hr : r < c.heap.next) (ha : P answer) :
    All P (c.store user r answer) := by
  intro r' hr' m hmem
  simp only [Conversations.store, ListHeap.next_alloc, ListHeap.cell_alloc] at hr' hmem
  split_ifs at hmem with hnew
  · rw [List.mem_append, List.mem_singleton] at hmem
    rcases hmem with hold | rfl
    · exact h r hr m hold
    · exact ha
  · exact h r' (by omega) m hmem

variable {N : Type} (f : M → N) (c)

theorem map_map_id {g : N → M} (h : ∀ message, g (f message) = message) :
    (c.map f).map g = c := by
  have hcells (messages : List M) : (messages.map f).map g = messages := by
    rw [List.map_map]
    exact List.map_id'' h messages
  simp only [map, ListHeap.map, hcells]

theorem map_fetch : (c.map f).fetch user (f message) =
    ((c.fetch user message).1.map f, (c.fetch user message).2) := by
  have href : (c.map f).ref user = c.ref user := rfl
  rw [fetch, fetch, href]
  cases c.ref user with
  | none =>
    simp only [map, ListHeap.map_append, ListHeap.map_alloc, List.map_nil]
    rfl
  | some r =>
    simp only [map, ListHeap.map_append]

theorem map_store (r : ℕ) (answer : M) :
    (c.map f).store user r (f answer) = (c.store user r answer).map f := by
  simp only [store, map, ListHeap.map_alloc, List.map_append, List.map_singleton]
  rfl

end Stored

end Conversations

-- One call of process_user_message: how the token exchange ends and how the wait for the turn
-- does, and whether the cards go out.
structure UserTurn where
  userId : String
  message : String
  exchange : Exit Fault (Option String)
  run : Exit Fault (AgentResult × Option (String × String))
  consentCard : Except Fault Unit
  haltCard : Except Fault Unit

inductive Ending where
  | refused
  | answered (text : String)
  | unanswered
  | failed
deriving DecidableEq

namespace UserTurn
variable (t : UserTurn)

def question : Message := ⟨.user, t.message⟩

def recover (c : Conversations Message) (fault : Fault) :
    Conversations Message × Exit Fault String :=
  if fault = .timeout then
    (c, .returned
      ("Sorry, that request is taking longer than expected. " ++
        "Please try again -- one of my tools may be slow to respond."))
  else if truthy (extractRunHaltReason fault) then (c, (Exit.ofExcept t.haltCard).map fun _ => "")
  else (c.pop t.userId, .returned ("Sorry, I encountered an error: " ++ fault.text))

def processUserMessage (c : Conversations Message) :
    Conversations Message × Exit Fault String :=
  match t.exchange with
  | .raised fault => (c, .raised fault)
  | .cancelled => (c, .cancelled)
  | .returned _ =>
    let fetched := c.fetch t.userId t.question
    match t.run with
    | .raised fault => t.recover fetched.1 fault
    | .cancelled => (fetched.1, .cancelled)
    | .returned (_, some _) =>
      match t.consentCard with
      | .ok _ => (fetched.1, .returned "")
      | .error fault => t.recover fetched.1 fault
    | .returned (result, none) =>
      (fetched.1.store t.userId fetched.2 ⟨.assistant, result.text⟩,
        .returned
          (orText result.text "I processed your request but couldn't generate a response."))

def endingOf (fault : Fault) : Ending :=
  if fault = .timeout ∨ truthy (extractRunHaltReason fault) then .unanswered else .failed

def ending : Ending :=
  match t.exchange with
  | .raised _ | .cancelled => .refused
  | .returned _ =>
    match t.run with
    | .raised fault => endingOf fault
    | .cancelled => .unanswered
    | .returned (_, some _) =>
      match t.consentCard with
      | .ok _ => .unanswered
      | .error fault => endingOf fault
    | .returned (result, none) => .answered result.text

def leave (c : Conversations Message) : Ending → Conversations Message
  | .refused => c
  | .answered text =>
    let fetched := c.fetch t.userId t.question
    fetched.1.store t.userId fetched.2 ⟨.assistant, text⟩
  | .unanswered => (c.fetch t.userId t.question).1
  | .failed => (c.fetch t.userId t.question).1.pop t.userId

theorem recover_fst (c : Conversations Message) (fault : Fault) :
    (t.recover (c.fetch t.userId t.question).1 fault).1 = t.leave c (endingOf fault) := by
  rw [recover, endingOf]
  by_cases htimeout : fault = .timeout
  · rw [if_pos htimeout, if_pos (.inl htimeout)]
    rfl
  · by_cases hhalt : truthy (extractRunHaltReason fault) = true
    · rw [if_neg htimeout, if_pos hhalt, if_pos (.inr hhalt)]
      rfl
    · rw [if_neg htimeout, if_neg hhalt, if_neg (not_or.mpr ⟨htimeout, hhalt⟩)]
      rfl

theorem processUserMessage_fst (c : Conversations Message) :
    (t.processUserMessage c).1 = t.leave c t.ending := by
  unfold processUserMessage ending
  cases t.exchange with
  | raised fault => rfl
  | cancelled => rfl
  | returned token =>
    cases t.run with
    | raised fault => exact t.recover_fst c fault
    | cancelled => rfl
    | returned reply =>
      obtain ⟨result, pending⟩ := reply
      cases pending with
      | none => rfl
      | some card =>
        cases t.consentCard with
        | ok u => rfl
        | error fault => exact t.recover_fst c fault

end UserTurn

end Agent
