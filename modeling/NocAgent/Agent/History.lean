import NocAgent.Agent.Conversations

namespace Agent

def pairMessages (pair : String × String) : List Message :=
  [⟨.user, pair.1⟩, ⟨.assistant, pair.2⟩]

-- The stored histories, and for each user the turns that ended with an answer, oldest first.
structure History where
  store : Conversations Message
  completed : String → List (String × String)

namespace History

def init : History := ⟨.empty, fun _ => []⟩

def record (s : History) (t : UserTurn) : String → List (String × String) :=
  match t.ending with
  | .answered text =>
    Function.update s.completed t.userId (s.completed t.userId ++ [(t.message, text)])
  | _ => s.completed

def step (s : History) (t : UserTurn) : History :=
  ⟨(t.processUserMessage s.store).1, s.record t⟩

def WholeTurns (s : History) : Prop :=
  ∀ user, ∃ pairs, pairs <:+ s.completed user ∧
    (s.store.stored user).getD [] = pairs.flatMap pairMessages

def LeavesAsIs (s : History) (t : UserTurn) : Prop :=
  t.ending = .unanswered → ∀ user, (s.step t).store.stored user = s.store.stored user

def FindsNoHistory (s : History) (t : UserTurn) : Prop :=
  t.ending = .unanswered → s.store.stored t.userId = none

variable {s : History} {t : UserTurn}

theorem step_store (s : History) (t : UserTurn) :
    (s.step t).store = t.leave s.store t.ending := t.processUserMessage_fst s.store

theorem leavesAsIs_iff (s : History) (t : UserTurn) : LeavesAsIs s t ↔ FindsNoHistory s t := by
  refine imp_congr_right fun hending => ?_
  have hstored (user : String) : (s.step t).store.stored user =
      if user = t.userId then (s.store.stored t.userId).map (· ++ [t.question])
      else s.store.stored user := by
    rw [step_store, hending]
    exact s.store.stored_fetch ..
  constructor
  · intro h
    have hsame := h t.userId
    rw [hstored, if_pos rfl] at hsame
    cases hold : s.store.stored t.userId with
    | none => rfl
    | some messages =>
      rw [hold, Option.map_some, Option.some.injEq] at hsame
      have hlength := congrArg List.length hsame
      simp at hlength
  · intro hnone user
    rw [hstored]
    split_ifs with huser
    · rw [huser, hnone, Option.map_none]
    · rfl

theorem init_wholeTurns : WholeTurns init := fun _ => ⟨[], List.nil_suffix, rfl⟩

theorem WholeTurns.congr (h : WholeTurns s) {s' : History} (hdone : s'.completed = s.completed)
    (hstored : ∀ user, s'.store.stored user = s.store.stored user ∨
      s'.store.stored user = none) : WholeTurns s' := by
  intro user
  rcases hstored user with hsame | hnone
  · rw [hsame, hdone]
    exact h user
  · exact ⟨[], List.nil_suffix, by rw [hnone]; rfl⟩

theorem WholeTurns.answered (h : WholeTurns s) {text : String}
    (hending : t.ending = .answered text) :
    WholeTurns (s.step t) := by
  intro user
  have hstored : (s.step t).store.stored user = if user = t.userId then
      some ((s.store.stored t.userId).getD [] ++ pairMessages (t.message, text))
      else s.store.stored user := by
    rw [step_store, hending, UserTurn.leave]
    simp only [Conversations.stored_store, Conversations.cell_fetch, Conversations.stored_fetch]
    split_ifs with huser
    · rw [List.append_assoc]
      rfl
    · rfl
  have hdone : (s.step t).completed user = if user = t.userId then
      s.completed t.userId ++ [(t.message, text)] else s.completed user := by
    simp only [step, record, hending, Function.update_apply]
  rw [hstored, hdone]
  split_ifs with huser
  · obtain ⟨pairs, ⟨before, hbefore⟩, hpairs⟩ := h t.userId
    refine ⟨pairs ++ [(t.message, text)], ⟨before, ?_⟩, ?_⟩
    · rw [← hbefore, List.append_assoc]
    · rw [Option.getD_some, hpairs, List.flatMap_append, List.flatMap_singleton]
  · exact h user

theorem WholeTurns.step (h : WholeTurns s) (hleaves : LeavesAsIs s t) : WholeTurns (s.step t) := by
  cases hending : t.ending with
  | answered text => exact h.answered hending
  | refused =>
    refine h.congr (by simp only [History.step, record, hending]) fun user => .inl ?_
    rw [step_store, hending]
    rfl
  | unanswered =>
    exact h.congr (by simp only [History.step, record, hending]) fun user =>
      .inl (hleaves hending user)
  | failed =>
    refine h.congr (by simp only [History.step, record, hending]) fun user => ?_
    rw [step_store, hending, UserTurn.leave, Conversations.stored_pop, Conversations.stored_fetch]
    split_ifs
    · exact .inr rfl
    · exact .inl rfl

theorem whole_turns_iff (turns : List UserTurn) :
    Trace.Along step LeavesAsIs init turns ∧ Trace.Always step WholeTurns init turns ↔
      Trace.Along step FindsNoHistory init turns :=
  Trace.along_and_always_iff (D := fun _ _ => True) (fun s t _ _ => leavesAsIs_iff s t)
    (fun _ _ h _ hleaves => h.step hleaves) init_wholeTurns (Trace.along_trivial _ _)

section Example

def answeredTurn : UserTurn where
  userId := "operator"
  message := "Who is on call?"
  exchange := .returned (some "token")
  run := .returned (⟨none, "The on-call engineer."⟩, none)
  consentCard := .ok ()
  haltCard := .ok ()

def haltedTurn : UserTurn :=
  { answeredTurn with
    message := "And tomorrow?"
    run := .raised (.runHalted "cost_budget") }

theorem halted_turn_leaves_a_message :
    (Trace.run step init [answeredTurn, haltedTurn]).store.stored "operator" =
        some (pairMessages ("Who is on call?", "The on-call engineer.") ++
          [⟨.user, "And tomorrow?"⟩]) ∧
      ¬ (Trace.Along step LeavesAsIs init [answeredTurn, haltedTurn] ∧
        Trace.Always step WholeTurns init [answeredTurn, haltedTurn]) := by
  have hstored : (Trace.run step init [answeredTurn, haltedTurn]).store.stored "operator" =
      some (pairMessages ("Who is on call?", "The on-call engineer.") ++
        [⟨.user, "And tomorrow?"⟩]) := by decide +kernel
  refine ⟨hstored, fun h => ?_⟩
  obtain ⟨pairs, -, hpairs⟩ := h.2 _ [] (List.append_nil _).symm "operator"
  have hlength : 3 = 2 * pairs.length := by
    have hmessages := congrArg List.length hpairs
    rw [hstored] at hmessages
    simpa [pairMessages, List.length_flatMap, Nat.mul_comm] using hmessages
  omega

end Example

end History

end Agent
