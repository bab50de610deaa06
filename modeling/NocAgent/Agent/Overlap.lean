import NocAgent.Agent.Conversations
import NocAgent.Library.Trace
import Mathlib.Data.List.Count

namespace Agent

structure Turns (ι : Type) where
  userId : String
  message : ι → String
  response : ι → String

-- A message object with the turn that made it, none for the messages from before.
abbrev Stamped (ι : Type) : Type := Option ι × Message

inductive Phase where
  | idle
  | waiting (history : ℕ)
  | done
deriving DecidableEq

structure Overlap (ι : Type) where
  conversations : Conversations (Stamped ι)
  phase : ι → Phase

namespace Overlap
variable {ι : Type}

def init (c : Conversations Message) : Overlap ι where
  conversations := c.map fun message => (none, message)
  phase _ := .idle

def Waits (s : Overlap ι) (i : ι) : Prop := ∃ history, s.phase i = .waiting history

def Settled (s : Overlap ι) : Prop := ∀ i, ¬ s.Waits i

def StartsAlone (s : Overlap ι) (i : ι) : Prop := s.phase i = .idle → s.Settled

theorem settled_of_done {s : Overlap ι} (h : ∀ i, s.phase i = .done) : s.Settled := by
  rintro i ⟨r, hi⟩
  rw [h i] at hi
  cases hi

end Overlap

namespace Turns
open Overlap
variable {ι : Type} (turns : Turns ι)

def question (i : ι) : Stamped ι := (some i, ⟨.user, turns.message i⟩)

def answer (i : ι) : Stamped ι := (some i, ⟨.assistant, turns.response i⟩)

def history (s : Overlap ι) : List (Stamped ι) := (s.conversations.stored turns.userId).getD []

def Misses (s : Overlap ι) (messages : List (Stamped ι)) : Prop :=
  ∃ j, s.phase j = .done ∧ turns.answer j ∉ messages

def Doomed (s : Overlap ι) : Prop :=
  (∃ i j, i ≠ j ∧ s.Waits i ∧ s.Waits j) ∨
    (∃ i r, s.phase i = .waiting r ∧ turns.Misses s (s.conversations.heap.cell r)) ∨
      s.Settled ∧ turns.Misses s (turns.history s)

def Answered (s : Overlap ι) (message : Stamped ι) : Prop :=
  ∀ j, message = turns.answer j → s.phase j = .done

structure Sound (s : Overlap ι) : Prop where
  bound : ∀ i r, s.phase i = .waiting r → r < s.conversations.heap.next
  answered : s.conversations.All (turns.Answered s)

section Messages
variable {turns} {i j : ι}

theorem answer_injective (h : turns.answer j = turns.answer i) : j = i :=
  Option.some.inj (congrArg Prod.fst h)

theorem question_injective (h : turns.question j = turns.question i) : j = i :=
  Option.some.inj (congrArg Prod.fst h)

theorem answer_ne_question : turns.answer j ≠ turns.question i := by
  intro h
  cases congrArg (fun message : Stamped ι => message.2.role) h

theorem init_unstamped (c : Conversations Message) :
    (init c : Overlap ι).conversations.All fun message => message.1 = none := by
  intro r _ message hm
  obtain ⟨old, -, rfl⟩ := List.mem_map.mp hm
  rfl

theorem init_sound (c : Conversations Message) : turns.Sound (init c) where
  bound i r h := by cases h
  answered := (init_unstamped c).mono fun message hnone j hj => by
    rw [hj] at hnone
    cases hnone

end Messages

variable [DecidableEq ι]

-- Between two awaits a turn fetches and appends, or it stores.
def step (s : Overlap ι) (i : ι) : Overlap ι :=
  match s.phase i with
  | .idle =>
    let fetched := s.conversations.fetch turns.userId (turns.question i)
    ⟨fetched.1, Function.update s.phase i (.waiting fetched.2)⟩
  | .waiting history =>
    ⟨s.conversations.store turns.userId history (turns.answer i),
      Function.update s.phase i .done⟩
  | .done => s

def KeepsEachTurn (s : Overlap ι) : Prop :=
  ∀ i, s.phase i = .done →
    (turns.history s).count (turns.question i) = 1 ∧ (turns.history s).count (turns.answer i) = 1

section Step
variable (s : Overlap ι) {i j : ι} {r : ℕ}

theorem conversations_idle (hi : s.phase i = .idle) : (turns.step s i).conversations =
    (s.conversations.fetch turns.userId (turns.question i)).1 := by
  rw [step, hi]

theorem phase_idle (hi : s.phase i = .idle) : (turns.step s i).phase i =
    .waiting (s.conversations.fetch turns.userId (turns.question i)).2 := by
  rw [step, hi]
  exact Function.update_self ..

theorem conversations_waiting (hi : s.phase i = .waiting r) : (turns.step s i).conversations =
    s.conversations.store turns.userId r (turns.answer i) := by
  rw [step, hi]

theorem phase_waiting (hi : s.phase i = .waiting r) : (turns.step s i).phase i = .done := by
  rw [step, hi]
  exact Function.update_self ..

theorem step_done (hi : s.phase i = .done) : turns.step s i = s := by rw [step, hi]

theorem phase_step (hj : j ≠ i) : (turns.step s i).phase j = s.phase j := by
  rw [step]
  split
  · exact Function.update_of_ne hj ..
  · exact Function.update_of_ne hj ..
  · rfl

theorem done_step (hj : s.phase j = .done) : (turns.step s i).phase j = .done := by
  rcases eq_or_ne j i with rfl | hne
  · rw [step_done _ _ hj, hj]
  · rw [phase_step _ _ hne, hj]

theorem waits_step (hj : j ≠ i) : (turns.step s i).Waits j ↔ s.Waits j := by
  rw [Waits, Waits, phase_step _ _ hj]

theorem cell_step (h : turns.Sound s) (hi : s.phase i = .waiting r) {r' : ℕ}
    (hj : s.phase j = .waiting r') :
    (turns.step s i).conversations.heap.cell r' = s.conversations.heap.cell r' := by
  rw [conversations_waiting _ _ hi, Conversations.cell_store _ _ _ (h.bound j r' hj)]

theorem history_step (hi : s.phase i = .waiting r) :
    turns.history (turns.step s i) = s.conversations.heap.cell r ++ [turns.answer i] := by
  rw [history, conversations_waiting _ _ hi, Conversations.stored_store, if_pos rfl,
    Option.getD_some]

theorem run_alone (t : UserTurn) (c : Conversations Message) (huser : t.userId = turns.userId)
    (hmessage : t.message = turns.message i) (hending : t.ending = .answered (turns.response i)) :
    (turns.step (turns.step (init c) i) i).conversations.map Prod.snd =
      (t.processUserMessage c).1 := by
  have hi : (init c : Overlap ι).phase i = .idle := rfl
  have hstamp : (init c : Overlap ι).conversations.map Prod.snd = c := c.map_map_id _ fun _ => rfl
  have hfetch :=
    (init c : Overlap ι).conversations.map_fetch turns.userId (turns.question i) Prod.snd
  rw [hstamp] at hfetch
  rw [conversations_waiting _ _ (phase_idle _ _ hi), ← Conversations.map_store,
    conversations_idle _ _ hi, t.processUserMessage_fst, hending, UserTurn.leave,
    UserTurn.question, huser, hmessage]
  have hquestion : (⟨.user, turns.message i⟩ : Message) = (turns.question i).2 := rfl
  rw [hquestion, hfetch]
  rfl

end Step

section Doom
variable {turns} {s : Overlap ι} {i : ι}

theorem Answered.step {message : Stamped ι} (h : turns.Answered s message) :
    turns.Answered (turns.step s i) message := fun j hj => done_step turns s (h j hj)

theorem Sound.step (h : turns.Sound s) : turns.Sound (turns.step s i) := by
  have hanswered := h.answered.mono fun _ hm => Answered.step (i := i) hm
  cases hi : s.phase i with
  | done =>
    rw [step_done _ _ hi]
    exact h
  | idle =>
    constructor
    · intro j r hj
      rw [conversations_idle _ _ hi]
      rcases eq_or_ne j i with rfl | hne
      · rw [phase_idle _ _ hi] at hj
        cases hj
        exact Conversations.fetch_bound ..
      · rw [phase_step _ _ hne] at hj
        exact (h.bound j r hj).trans_le (Conversations.next_le_fetch ..)
    · rw [conversations_idle _ _ hi]
      exact hanswered.fetch _ fun j hj => absurd hj.symm answer_ne_question
  | waiting r =>
    constructor
    · intro j r' hj
      rw [conversations_waiting _ _ hi]
      rcases eq_or_ne j i with rfl | hne
      · rw [phase_waiting _ _ hi] at hj
        cases hj
      · rw [phase_step _ _ hne] at hj
        exact Nat.lt_succ_of_lt (h.bound j r' hj)
    · rw [conversations_waiting _ _ hi]
      refine hanswered.store _ (h.bound i r hi) fun j hj => ?_
      rw [← answer_injective hj, phase_waiting _ _ hi]

theorem Misses.step {messages messages' : List (Stamped ι)} (h : turns.Misses s messages)
    (hsub : ∀ j, s.phase j = .done → turns.answer j ∈ messages' → turns.answer j ∈ messages) :
    turns.Misses (turns.step s i) messages' := by
  obtain ⟨j, hj, hmiss⟩ := h
  exact ⟨j, done_step _ _ hj, fun hmem => hmiss (hsub j hj hmem)⟩

theorem doomed_of_overlap (hi : s.phase i = .idle) (h : ¬ s.Settled) :
    turns.Doomed (turns.step s i) := by
  obtain ⟨j, hj⟩ := not_forall_not.mp h
  have hne : j ≠ i := by
    rintro rfl
    obtain ⟨r, hr⟩ := hj
    rw [hi] at hr
    cases hr
  exact .inl ⟨i, j, hne.symm, ⟨_, phase_idle _ _ hi⟩, (waits_step _ _ hne).mpr hj⟩

theorem doomed_of_waits {j : ι} (hsound : turns.Sound s) {r : ℕ} (hi : s.phase i = .waiting r)
    (hne : j ≠ i) (hj : s.Waits j) : turns.Doomed (turns.step s i) := by
  obtain ⟨r', hr'⟩ := hj
  refine .inr (.inl ⟨j, r', (phase_step _ _ hne).trans hr', i, phase_waiting _ _ hi, ?_⟩)
  rw [cell_step _ _ hsound hi hr']
  intro hmem
  have hdone := hsound.answered r' (hsound.bound j r' hr') _ hmem i rfl
  rw [hi] at hdone
  cases hdone

theorem Doomed.step (hsound : turns.Sound s) (h : turns.Doomed s) :
    turns.Doomed (turns.step s i) := by
  cases hi : s.phase i with
  | done =>
    rw [step_done _ _ hi]
    exact h
  | idle =>
    by_cases hsettled : s.Settled
    · rcases h with ⟨a, -, -, ha, -⟩ | ⟨a, r, ha, -⟩ | ⟨-, hmiss⟩
      · exact absurd ha (hsettled a)
      · exact absurd ⟨r, ha⟩ (hsettled a)
      · refine .inr (.inl ⟨i, _, phase_idle _ _ hi, hmiss.step fun j _ hmem => ?_⟩)
        rw [conversations_idle _ _ hi, Conversations.cell_fetch, List.mem_append,
          List.mem_singleton] at hmem
        exact hmem.resolve_right answer_ne_question
    · exact doomed_of_overlap hi hsettled
  | waiting r =>
    by_cases hother : ∃ k, k ≠ i ∧ s.Waits k
    · obtain ⟨k, hne, hk⟩ := hother
      exact doomed_of_waits hsound hi hne hk
    · have honly (k : ι) (hk : s.Waits k) : k = i := by
        by_contra hne
        exact hother ⟨k, hne, hk⟩
      have hsettled : (turns.step s i).Settled := by
        rintro k ⟨r', hk⟩
        rcases eq_or_ne k i with rfl | hne
        · rw [phase_waiting _ _ hi] at hk
          cases hk
        · exact hne (honly k ⟨r', (phase_step _ _ hne).symm.trans hk⟩)
      refine .inr (.inr ⟨hsettled, ?_⟩)
      rcases h with ⟨a, b, hab, ha, hb⟩ | ⟨a, r', ha, hmiss⟩ | ⟨hs, -⟩
      · exact absurd ((honly a ha).trans (honly b hb).symm) hab
      · obtain rfl := honly a ⟨r', ha⟩
        obtain rfl : r = r' := by
          rw [hi] at ha
          cases ha
          rfl
        rw [history_step _ _ hi]
        refine hmiss.step fun j hj hmem => ?_
        rw [List.mem_append, List.mem_singleton] at hmem
        refine hmem.resolve_right fun hself => ?_
        rw [answer_injective hself, hi] at hj
        cases hj
      · exact absurd ⟨r, hi⟩ (hs i)

theorem Doomed.run (h : turns.Doomed s) (hsound : turns.Sound s) (schedule : List ι) :
    turns.Doomed (Trace.run turns.step s schedule) := by
  induction schedule generalizing s with
  | nil => exact h
  | cons i rest ih => exact ih (h.step hsound) hsound.step

theorem doomed_run (schedule : List ι) (hsound : turns.Sound s)
    (h : ¬ Trace.Along turns.step StartsAlone s schedule) :
    turns.Doomed (Trace.run turns.step s schedule) := by
  induction schedule generalizing s with
  | nil => exact absurd trivial h
  | cons i rest ih =>
    rw [Trace.run_cons]
    by_cases hstart : s.StartsAlone i
    · exact ih hsound.step fun hrest => h ⟨hstart, hrest⟩
    · obtain ⟨hi, hsettled⟩ := Classical.not_imp.mp hstart
      exact (doomed_of_overlap hi hsettled).run hsound.step rest

theorem not_keeps_of_doomed (h : turns.Doomed s) (hsettled : s.Settled) :
    ¬ turns.KeepsEachTurn s := by
  intro hkeeps
  rcases h with ⟨i, -, -, hi, -⟩ | ⟨i, r, hi, -⟩ | ⟨-, j, hj, hmiss⟩
  · exact hsettled i hi
  · exact hsettled i ⟨r, hi⟩
  · have hone := (hkeeps j hj).2
    rw [List.count_eq_zero_of_not_mem hmiss] at hone
    cases hone

end Doom

def Tidy (s : Overlap ι) (messages : List (Stamped ι)) : Prop :=
  ∀ i, messages.count (turns.question i) = (if s.phase i = .idle then 0 else 1) ∧
    messages.count (turns.answer i) = if s.phase i = .done then 1 else 0

def Calm (s : Overlap ι) : Prop :=
  s.Settled ∧ turns.Tidy s (turns.history s) ∨
    ∃ i r, s.phase i = .waiting r ∧ (∀ j, s.Waits j → j = i) ∧
      turns.Tidy s (s.conversations.heap.cell r)

section Calm
variable {turns} {s : Overlap ι} {i : ι}

theorem count_question (messages : List (Stamped ι)) (j : ι) :
    (messages ++ [turns.question i]).count (turns.question j) =
        messages.count (turns.question j) + (if j = i then 1 else 0) ∧
      (messages ++ [turns.question i]).count (turns.answer j) =
        messages.count (turns.answer j) := by
  constructor
  · rcases eq_or_ne j i with rfl | hne
    · rw [List.count_append, List.count_singleton_self, if_pos rfl]
    · rw [List.count_append, if_neg hne,
        List.count_eq_zero_of_not_mem (l := [turns.question i])]
      exact fun hmem => hne (question_injective (List.mem_singleton.mp hmem))
  · rw [List.count_append, List.count_eq_zero_of_not_mem (l := [turns.question i]), Nat.add_zero]
    exact fun hmem => answer_ne_question (List.mem_singleton.mp hmem)

theorem count_answer (messages : List (Stamped ι)) (j : ι) :
    (messages ++ [turns.answer i]).count (turns.question j) =
        messages.count (turns.question j) ∧
      (messages ++ [turns.answer i]).count (turns.answer j) =
        messages.count (turns.answer j) + if j = i then 1 else 0 := by
  constructor
  · rw [List.count_append, List.count_eq_zero_of_not_mem (l := [turns.answer i]), Nat.add_zero]
    exact fun hmem => answer_ne_question (List.mem_singleton.mp hmem).symm
  · rcases eq_or_ne j i with rfl | hne
    · rw [List.count_append, List.count_singleton_self, if_pos rfl]
    · rw [List.count_append, if_neg hne, List.count_eq_zero_of_not_mem (l := [turns.answer i])]
      exact fun hmem => hne (answer_injective (List.mem_singleton.mp hmem))

theorem Tidy.ask {messages : List (Stamped ι)} (h : turns.Tidy s messages)
    (hi : s.phase i = .idle) :
    turns.Tidy (turns.step s i) (messages ++ [turns.question i]) := by
  intro j
  obtain ⟨hasked, hanswered⟩ := h j
  rw [(count_question messages j).1, (count_question messages j).2, hasked, hanswered]
  rcases eq_or_ne j i with rfl | hne
  · simp [phase_idle _ _ hi, hi]
  · simp [phase_step _ _ hne, hne]

theorem Tidy.tell {messages : List (Stamped ι)} (h : turns.Tidy s messages) {r : ℕ}
    (hi : s.phase i = .waiting r) :
    turns.Tidy (turns.step s i) (messages ++ [turns.answer i]) := by
  intro j
  obtain ⟨hasked, hanswered⟩ := h j
  rw [(count_answer messages j).1, (count_answer messages j).2, hasked, hanswered]
  rcases eq_or_ne j i with rfl | hne
  · simp [phase_waiting _ _ hi, hi]
  · simp [phase_step _ _ hne, hne]

theorem init_calm (c : Conversations Message) : turns.Calm (init c) := by
  refine .inl ⟨fun i => ?_, fun i => ?_⟩
  · rintro ⟨r, hi⟩
    cases hi
  · have hnew (message : Stamped ι) (hm : message.1 = some i) :
        (turns.history (init c)).count message = 0 := by
      refine List.count_eq_zero_of_not_mem fun hmem => ?_
      rw [(init_unstamped c).stored _ message hmem] at hm
      cases hm
    exact ⟨hnew _ rfl, hnew _ rfl⟩

theorem Calm.step (h : turns.Calm s) (hstart : s.StartsAlone i) : turns.Calm (turns.step s i) := by
  cases hi : s.phase i with
  | done =>
    rw [step_done _ _ hi]
    exact h
  | idle =>
    have hsettled := hstart hi
    rcases h with ⟨-, htidy⟩ | ⟨a, r, ha, -⟩
    · refine .inr ⟨i, _, phase_idle _ _ hi, fun j hj => ?_, ?_⟩
      · by_contra hne
        exact hsettled j ((waits_step _ _ hne).mp hj)
      · rw [conversations_idle _ _ hi, Conversations.cell_fetch]
        exact htidy.ask hi
    · exact absurd ⟨r, ha⟩ (hsettled a)
  | waiting r =>
    rcases h with ⟨hsettled, -⟩ | ⟨a, r', ha, honly, htidy⟩
    · exact absurd ⟨r, hi⟩ (hsettled i)
    · obtain rfl := honly i ⟨r, hi⟩
      obtain rfl : r = r' := by
        rw [hi] at ha
        cases ha
        rfl
      refine .inl ⟨fun j hj => ?_, ?_⟩
      · rcases eq_or_ne j i with rfl | hne
        · obtain ⟨r', hr'⟩ := hj
          rw [phase_waiting _ _ hi] at hr'
          cases hr'
        · exact hne (honly j ((waits_step _ _ hne).mp hj))
      · rw [history_step _ _ hi]
        exact htidy.tell hi

theorem keeps_of_calm (h : turns.Calm s) (hsettled : s.Settled) : turns.KeepsEachTurn s := by
  rcases h with ⟨-, htidy⟩ | ⟨i, r, hi, -⟩
  · intro i hi
    obtain ⟨hasked, hanswered⟩ := htidy i
    rw [hi] at hasked hanswered
    exact ⟨hasked, hanswered⟩
  · exact absurd ⟨r, hi⟩ (hsettled i)

end Calm

theorem keeps_each_turn_iff (c : Conversations Message) (schedule : List ι)
    (hsettled : (Trace.run turns.step (init c) schedule).Settled) :
    turns.KeepsEachTurn (Trace.run turns.step (init c) schedule) ↔
      Trace.Along turns.step StartsAlone (init c) schedule := by
  constructor
  · intro hkeeps
    by_contra halong
    exact not_keeps_of_doomed (doomed_run schedule (init_sound c) halong) hsettled hkeeps
  · intro halong
    exact keeps_of_calm (Trace.invariant (fun _ _ h => h.step) (init_calm c) halong) hsettled

section Example

def pair : Turns Bool where
  userId := "operator"
  message second := if second then "And tomorrow?" else "Who is on call?"
  response second := if second then "Nobody yet." else "The on-call engineer."

theorem keeps_each_turn_iff_pair :
    Trace.Along pair.step StartsAlone (init .empty) [false, false, true, true] :=
  (keeps_each_turn_iff pair .empty [false, false, true, true]
    (settled_of_done (by decide +kernel))).mp (by unfold KeepsEachTurn; decide +kernel)

theorem first_answer_is_lost :
    (Trace.run pair.step (init .empty) [false, true, false, true]).Settled ∧
      ¬ pair.KeepsEachTurn (Trace.run pair.step (init .empty) [false, true, false, true]) := by
  refine ⟨settled_of_done (by decide +kernel), fun h => ?_⟩
  have hanswer := (h false (by decide +kernel)).2
  revert hanswer
  decide +kernel

end Example

end Turns

end Agent
