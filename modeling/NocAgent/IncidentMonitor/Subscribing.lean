import NocAgent.IncidentMonitor.State
import NocAgent.Library.Requests
import NocAgent.Library.Text
import Mathlib.Logic.Function.Basic

namespace IncidentMonitor
open Requests Trace

inductive Command where
  | subscribe
  | unsubscribe
deriving DecidableEq

def monitorCommand (u : Text.Unicode) (casefold : String → String) (text : String) :
    Option Command :=
  if casefold (u.stripText text) = "/monitor subscribe" then some .subscribe
  else if casefold (u.stripText text) = "/monitor unsubscribe" then some .unsubscribe
  else none

-- The sender of an activity, with empty texts where the activity has none.
structure Sender where
  conversationId : String
  userId : String
  userName : String
deriving DecidableEq

def Sender.subscription (sender : Sender) : Subscription where
  conversationId := sender.conversationId
  authorizedUserId := sender.userId
  authorizedUserName := if sender.userName = "" then "unknown" else sender.userName

def Sender.Owns (sender : Sender) (s : Subscription) : Prop :=
  s.conversationId = sender.conversationId ∧ s.authorizedUserId = sender.userId

instance (sender : Sender) (s : Subscription) : Decidable (sender.Owns s) :=
  inferInstanceAs (Decidable (_ ∧ _))

inductive Reply where
  | subscribed (enabled : Bool)
  | unsubscribed
  | noSubscription
  | error (text : String)
deriving DecidableEq

def Reply.text : Reply → String
  | .subscribed enabled => "This conversation is subscribed to detected incidents. " ++
      "The monitor is currently **" ++ (if enabled then "enabled" else "disabled") ++
      "**; an operator must pre-consent Fabric IQ, Work IQ, and RTI IQ before enabling it."
  | .unsubscribed => "This conversation is no longer subscribed."
  | .noSubscription => "This conversation had no monitor subscription."
  | .error text => "Sorry, I encountered an error: " ++ text

-- The request that comes next in a handler or in a cycle of the monitor. A removal that has read
-- its own subscription remembers how many times the blob had been written by then.
inductive Task where
  | storing (sender : Sender)
  | saving (sender : Sender)
  | reading (sender : Sender)
  | deleting (sender : Sender) (seen : ℕ)
  | replied (reply : Reply)
  | polling
  | watching (s : Subscription)
  | rested

structure Delivery where
  conversationId : String
  userId : String
deriving DecidableEq

structure Desk where
  subscription : Option Subscription := none
  conversations : List String := []
  task : ℕ → Option Task := fun _ => none
  sent : List Delivery := []
  -- What no handler sees: how often the blob was written, and who has asked for it.
  writes : ℕ := 0
  asked : List Sender := []

-- A message comes in, a cycle of the monitor starts, a task makes its next request, which meets
-- this fate, or a cycle hands an incident to the conversation it resumes. error is what a request
-- raises that fails.
inductive Move where
  | message (id : ℕ) (text : String) (sender : Sender)
  | poll (id : ℕ)
  | go (id : ℕ) (fate : Fate) (error : String)
  | detected (id : ℕ) (resumedUserId : String) (completed : Bool)

namespace Desk

def set (d : Desk) (id : ℕ) (task : Task) : Desk :=
  { d with task := Function.update d.task id (some task) }

def save (d : Desk) (s : Subscription) : Desk :=
  { d with subscription := some s, writes := d.writes + 1 }

def clear (d : Desk) : Desk := { d with subscription := none }

def remember (d : Desk) (sender : Sender) : Desk :=
  { d with conversations := d.conversations ++ [sender.conversationId] }

def ask (d : Desk) (sender : Sender) : Desk := { d with asked := d.asked ++ [sender] }

def send (d : Desk) (delivery : Delivery) : Desk := { d with sent := d.sent ++ [delivery] }

section Go
variable (enabled : Bool) (d : Desk) (id : ℕ)

def storeConversation (sender : Sender) (error : String) : Fate → Desk
  | .served => (d.remember sender).set id (.saving sender)
  | .unanswered => (d.remember sender).set id (.replied (.error error))
  | .lost => d.set id (.replied (.error error))

def saveSubscription (sender : Sender) (error : String) (fate : Fate) : Desk :=
  if sender.conversationId = "" ∨ sender.userId = "" then
    d.set id (.replied (.error "A conversation and authorized user are required"))
  else
    match fate with
    | .served => (d.save sender.subscription).set id (.replied (.subscribed enabled))
    | .unanswered => (d.save sender.subscription).set id (.replied (.error error))
    | .lost => d.set id (.replied (.error error))

def readSubscription (sender : Sender) (error : String) : Fate → Desk
  | .served =>
    match d.subscription with
    | none => d.set id (.replied .noSubscription)
    | some existing =>
      if sender.Owns existing then d.set id (.deleting sender d.writes)
      else d.set id
        (.replied (.error "Only the subscribed conversation and user can unsubscribe"))
  | .unanswered | .lost => d.set id (.replied (.error error))

-- The delete names the blob and not what was read from it.
def deleteSubscription (error : String) : Fate → Desk
  | .served => d.clear.set id (.replied .unsubscribed)
  | .unanswered => d.clear.set id (.replied (.error error))
  | .lost => d.set id (.replied (.error error))

def pollSubscription : Fate → Desk
  | .served =>
    match d.subscription with
    | none => d.set id .rested
    | some s => d.set id (.watching s)
  | .unanswered | .lost => d.set id .rested

def go (error : String) (fate : Fate) : Desk :=
  match d.task id with
  | some (.storing sender) => d.storeConversation id sender error fate
  | some (.saving sender) => d.saveSubscription enabled id sender error fate
  | some (.reading sender) => d.readSubscription id sender error fate
  | some (.deleting _ _) => d.deleteSubscription id error fate
  | some .polling => d.pollSubscription id fate
  | some (.replied _) | some (.watching _) | some .rested | none => d

def handleDetectedIncident (resumedUserId : String) (completed : Bool) : Desk :=
  match d.task id with
  | some (.watching s) =>
    if resumedUserId = s.authorizedUserId ∧ completed = true then
      d.send ⟨s.conversationId, resumedUserId⟩
    else d
  | _ => d

end Go

section Step
variable (u : Text.Unicode) (casefold : String → String) (enabled : Bool)

def step (d : Desk) : Move → Desk
  | .message id text sender =>
    match d.task id, monitorCommand u casefold text with
    | none, some .subscribe => (d.ask sender).set id (.storing sender)
    | none, some .unsubscribe => d.set id (.reading sender)
    | _, _ => d
  | .poll id =>
    match d.task id with
    | none => d.set id .polling
    | some _ => d
  | .go id fate error => d.go enabled id error fate
  | .detected id resumedUserId completed => d.handleDetectedIncident id resumedUserId completed

def Subscribes (sender : Sender) : Move → Prop
  | .message _ text from' => from' = sender ∧ monitorCommand u casefold text = some .subscribe
  | .poll _ | .go _ _ _ | .detected _ _ _ => False

end Step

def Asked (d : Desk) (s : Subscription) : Prop :=
  ∃ sender ∈ d.asked, s = sender.subscription ∧ sender.conversationId ∈ d.conversations ∧
    sender.conversationId ≠ "" ∧ sender.userId ≠ ""

def Justified (d : Desk) : Task → Prop
  | .storing sender => sender ∈ d.asked
  | .saving sender => sender ∈ d.asked ∧ sender.conversationId ∈ d.conversations
  | .deleting sender seen => seen ≤ d.writes ∧
      (seen = d.writes → ∀ s, d.subscription = some s → sender.Owns s)
  | .watching s => d.Asked s
  | .reading _ | .replied _ | .polling | .rested => True

structure Sound (d : Desk) : Prop where
  subscribed : ∀ s, d.subscription = some s → d.Asked s
  tasks : ∀ id task, d.task id = some task → d.Justified task
  sent : ∀ delivery ∈ d.sent, ∃ s, d.Asked s ∧ delivery = ⟨s.conversationId, s.authorizedUserId⟩

section Steps
variable {d d' : Desk} {id : ℕ} {task : Task} {sender : Sender} {s : Subscription}
  {enabled : Bool} {error : String} {u : Text.Unicode} {casefold : String → String}

theorem Asked.mono (hasked : d.asked ⊆ d'.asked)
    (hconversations : d.conversations ⊆ d'.conversations) (h : d.Asked s) : d'.Asked s := by
  obtain ⟨sender, hsender, hsub, hstored, hgiven⟩ := h
  exact ⟨sender, hasked hsender, hsub, hconversations hstored, hgiven⟩

theorem Justified.mono (hasked : d.asked ⊆ d'.asked)
    (hconversations : d.conversations ⊆ d'.conversations)
    (hdeleting : ∀ sender seen, d.Justified (.deleting sender seen) →
      d'.Justified (.deleting sender seen)) (h : d.Justified task) : d'.Justified task := by
  cases task with
  | storing sender => exact hasked h
  | saving sender => exact ⟨hasked h.1, hconversations h.2⟩
  | reading sender => trivial
  | deleting sender seen => exact hdeleting sender seen h
  | replied reply => trivial
  | polling => trivial
  | watching s => exact Asked.mono hasked hconversations h
  | rested => trivial

theorem Sound.ask (h : d.Sound) (sender : Sender) : (d.ask sender).Sound := by
  have hasked : d.asked ⊆ (d.ask sender).asked := List.subset_append_left _ _
  refine ⟨fun s hs => Asked.mono hasked (List.Subset.refl _) (h.subscribed s hs),
    fun id task htask => ?_, fun delivery hdelivery => ?_⟩
  · exact (h.tasks id task htask).mono hasked (List.Subset.refl _) fun _ _ hold => hold
  · obtain ⟨s, hs, hto⟩ := h.sent delivery hdelivery
    exact ⟨s, Asked.mono hasked (List.Subset.refl _) hs, hto⟩

theorem Sound.remember (h : d.Sound) (sender : Sender) : (d.remember sender).Sound := by
  have hstored : d.conversations ⊆ (d.remember sender).conversations :=
    List.subset_append_left _ _
  have hasked : d.asked ⊆ (d.remember sender).asked := List.Subset.refl _
  refine ⟨fun s hs => Asked.mono hasked hstored (h.subscribed s hs),
    fun id task htask => ?_, fun delivery hdelivery => ?_⟩
  · exact (h.tasks id task htask).mono hasked hstored fun _ _ hold => hold
  · obtain ⟨s, hs, hto⟩ := h.sent delivery hdelivery
    exact ⟨s, Asked.mono hasked hstored hs, hto⟩

theorem Sound.set (h : d.Sound) (htask : d.Justified task) : (d.set id task).Sound := by
  refine ⟨h.subscribed, fun id' task' h' => ?_, h.sent⟩
  have hsame : d.Justified task' → (d.set id task).Justified task' :=
    Justified.mono (List.Subset.refl _) (List.Subset.refl _) fun _ _ hold => hold
  simp only [Desk.set, Function.update_apply] at h'
  split_ifs at h' with hid
  · cases h'
    exact hsame htask
  · exact hsame (h.tasks id' task' h')

theorem Sound.replied (h : d.Sound) (id : ℕ) (reply : Reply) : (d.set id (.replied reply)).Sound :=
  h.set trivial

theorem Sound.save (h : d.Sound) (hasked : d.Asked s) : (d.save s).Sound := by
  refine ⟨fun s' hs' => ?_, fun id task htask => ?_, h.sent⟩
  · cases hs'
    exact hasked
  · refine Justified.mono (d := d) (List.Subset.refl _) (List.Subset.refl _) ?_
      (h.tasks id task htask)
    rintro sender seen ⟨hle, -⟩
    exact ⟨Nat.le_succ_of_le hle, fun hsame => absurd hsame (Nat.ne_of_lt (Nat.lt_succ_of_le hle))⟩

theorem Sound.clear (h : d.Sound) : d.clear.Sound := by
  refine ⟨fun s hs => (by cases hs), fun id task htask => ?_, h.sent⟩
  refine Justified.mono (d := d) (List.Subset.refl _) (List.Subset.refl _) ?_
    (h.tasks id task htask)
  rintro sender seen ⟨hle, -⟩
  exact ⟨hle, fun _ s hs => by cases hs⟩

theorem Sound.send (h : d.Sound) (hasked : d.Asked s) :
    (d.send ⟨s.conversationId, s.authorizedUserId⟩).Sound := by
  refine ⟨h.subscribed, fun id task htask => ?_, fun delivery hdelivery => ?_⟩
  · exact (h.tasks id task htask).mono (List.Subset.refl _) (List.Subset.refl _)
      fun _ _ hold => hold
  · rcases List.mem_append.mp hdelivery with hold | hnew
    · exact h.sent delivery hold
    · exact ⟨s, hasked, List.mem_singleton.mp hnew⟩

theorem Sound.storeConversation (h : d.Sound) (hsender : d.Justified (.storing sender)) (id : ℕ)
    (error : String) (fate : Fate) : (d.storeConversation id sender error fate).Sound := by
  have hstored : sender.conversationId ∈ (d.remember sender).conversations :=
    List.mem_append_right _ (List.mem_singleton_self _)
  cases fate with
  | served => exact (h.remember sender).set ⟨hsender, hstored⟩
  | unanswered => exact (h.remember sender).replied id _
  | lost => exact h.replied id _

theorem Sound.saveSubscription (h : d.Sound) (hsender : d.Justified (.saving sender))
    (enabled : Bool) (id : ℕ) (error : String) (fate : Fate) :
    (d.saveSubscription enabled id sender error fate).Sound := by
  unfold Desk.saveSubscription
  split_ifs with hblank
  · exact h.replied id _
  · have hasked : d.Asked sender.subscription :=
      ⟨sender, hsender.1, rfl, hsender.2, not_or.mp hblank⟩
    cases fate with
    | served => exact (h.save hasked).replied id _
    | unanswered => exact (h.save hasked).replied id _
    | lost => exact h.replied id _

theorem Sound.readSubscription (h : d.Sound) (id : ℕ) (sender : Sender) (error : String)
    (fate : Fate) : (d.readSubscription id sender error fate).Sound := by
  cases fate with
  | served =>
    simp only [Desk.readSubscription]
    cases hsub : d.subscription with
    | none => exact h.replied id _
    | some existing =>
      dsimp only
      split_ifs with howns
      · refine h.set ⟨le_rfl, fun _ s hs => ?_⟩
        cases hsub.symm.trans hs
        exact howns
      · exact h.replied id _
  | unanswered => exact h.replied id _
  | lost => exact h.replied id _

theorem Sound.deleteSubscription (h : d.Sound) (id : ℕ) (error : String) (fate : Fate) :
    (d.deleteSubscription id error fate).Sound := by
  cases fate with
  | served => exact h.clear.replied id _
  | unanswered => exact h.clear.replied id _
  | lost => exact h.replied id _

theorem Sound.pollSubscription (h : d.Sound) (id : ℕ) (fate : Fate) :
    (d.pollSubscription id fate).Sound := by
  cases fate with
  | served =>
    simp only [Desk.pollSubscription]
    cases hsub : d.subscription with
    | none => exact h.set trivial
    | some s => exact h.set (h.subscribed s hsub)
  | unanswered => exact h.set trivial
  | lost => exact h.set trivial

theorem Sound.go (h : d.Sound) (enabled : Bool) (id : ℕ) (error : String) (fate : Fate) :
    (d.go enabled id error fate).Sound := by
  rw [Desk.go]
  cases htask : d.task id with
  | none => exact h
  | some task =>
    have hjustified := h.tasks id task htask
    cases task with
    | storing sender => exact h.storeConversation hjustified id error fate
    | saving sender => exact h.saveSubscription hjustified enabled id error fate
    | reading sender => exact h.readSubscription id sender error fate
    | deleting sender seen => exact h.deleteSubscription id error fate
    | polling => exact h.pollSubscription id fate
    | replied reply => exact h
    | watching s => exact h
    | rested => exact h

theorem Sound.handleDetectedIncident (h : d.Sound) (id : ℕ) (resumedUserId : String)
    (completed : Bool) : (d.handleDetectedIncident id resumedUserId completed).Sound := by
  rw [Desk.handleDetectedIncident]
  split
  next s htask =>
    split_ifs with hallowed
    · rw [hallowed.1]
      exact h.send (h.tasks id _ htask)
    · exact h
  next => exact h

theorem Sound.step (h : d.Sound) (u : Text.Unicode) (casefold : String → String) (enabled : Bool)
    (move : Move) : (d.step u casefold enabled move).Sound := by
  cases move with
  | message id text sender =>
    rw [Desk.step]
    split
    · exact (h.ask sender).set (List.mem_append_right _ (List.mem_singleton_self _))
    · exact h.set trivial
    · exact h
  | poll id =>
    rw [Desk.step]
    split
    · exact h.set trivial
    · exact h
  | go id fate error => exact h.go enabled id error fate
  | detected id resumedUserId completed =>
    exact h.handleDetectedIncident id resumedUserId completed

theorem storeConversation_subscription (d : Desk) (id : ℕ) (sender : Sender) (error : String)
    (fate : Fate) : (d.storeConversation id sender error fate).subscription = d.subscription := by
  cases fate <;> rfl

theorem readSubscription_subscription (d : Desk) (id : ℕ) (sender : Sender) (error : String)
    (fate : Fate) : (d.readSubscription id sender error fate).subscription = d.subscription := by
  cases fate with
  | served =>
    rw [Desk.readSubscription]
    split
    · rfl
    · split_ifs <;> rfl
  | unanswered => rfl
  | lost => rfl

theorem pollSubscription_subscription (d : Desk) (id : ℕ) (fate : Fate) :
    (d.pollSubscription id fate).subscription = d.subscription := by
  cases fate with
  | served =>
    rw [Desk.pollSubscription]
    split <;> rfl
  | unanswered => rfl
  | lost => rfl

theorem saveSubscription_subscription (d : Desk) (enabled : Bool) (id : ℕ) (sender : Sender)
    (error : String) (fate : Fate) :
    (d.saveSubscription enabled id sender error fate).subscription = d.subscription ∨
      (d.saveSubscription enabled id sender error fate).subscription =
        some sender.subscription := by
  unfold Desk.saveSubscription
  split_ifs
  · exact .inl rfl
  · cases fate with
    | served => exact .inr rfl
    | unanswered => exact .inr rfl
    | lost => exact .inl rfl

theorem deleteSubscription_subscription (d : Desk) (id : ℕ) (error : String) (fate : Fate) :
    (d.deleteSubscription id error fate).subscription = d.subscription ∨
      (d.deleteSubscription id error fate).subscription = none := by
  cases fate with
  | served => exact .inr rfl
  | unanswered => exact .inr rfl
  | lost => exact .inl rfl

inductive Changes (d : Desk) (move : Move) : Option Subscription → Prop where
  | saved {id : ℕ} {fate : Fate} {error : String} {sender : Sender}
      (hmove : move = .go id fate error) (htask : d.task id = some (.saving sender)) :
      Changes d move (some sender.subscription)
  | removed {id : ℕ} {fate : Fate} {error : String} {sender : Sender} {seen : ℕ}
      (hmove : move = .go id fate error) (htask : d.task id = some (.deleting sender seen)) :
      Changes d move none

theorem go_changes (d : Desk) (enabled : Bool) (id : ℕ) (error : String) (fate : Fate) :
    (d.go enabled id error fate).subscription = d.subscription ∨
      Changes d (.go id fate error) (d.go enabled id error fate).subscription := by
  rw [Desk.go]
  cases htask : d.task id with
  | none => exact .inl rfl
  | some task =>
    cases task with
    | storing sender => exact .inl (storeConversation_subscription d id sender error fate)
    | saving sender =>
      refine (saveSubscription_subscription d enabled id sender error fate).imp_right fun h => ?_
      rw [h]
      exact .saved rfl htask
    | reading sender => exact .inl (readSubscription_subscription d id sender error fate)
    | deleting sender seen =>
      refine (deleteSubscription_subscription d id error fate).imp_right fun h => ?_
      rw [h]
      exact .removed rfl htask
    | polling => exact .inl (pollSubscription_subscription d id fate)
    | replied reply => exact .inl rfl
    | watching s => exact .inl rfl
    | rested => exact .inl rfl

theorem handleDetectedIncident_subscription (d : Desk) (id : ℕ) (resumedUserId : String)
    (completed : Bool) :
    (d.handleDetectedIncident id resumedUserId completed).subscription = d.subscription := by
  rw [Desk.handleDetectedIncident]
  split
  · split_ifs <;> rfl
  · rfl

theorem step_changes (u : Text.Unicode) (casefold : String → String) (enabled : Bool) (d : Desk)
    (move : Move) :
    (d.step u casefold enabled move).subscription = d.subscription ∨
      Changes d move (d.step u casefold enabled move).subscription := by
  cases move with
  | message id text sender =>
    refine .inl ?_
    rw [Desk.step]
    split <;> rfl
  | poll id =>
    refine .inl ?_
    rw [Desk.step]
    split <;> rfl
  | go id fate error => exact go_changes d enabled id error fate
  | detected id resumedUserId completed =>
    exact .inl (handleDetectedIncident_subscription d id resumedUserId completed)

theorem sound_run (u : Text.Unicode) (casefold : String → String) (enabled : Bool)
    (moves : List Move) : (run (step u casefold enabled) {} moves).Sound := by
  have hstart : Sound {} :=
    ⟨fun s hs => (by cases hs), fun id task htask => (by cases htask), fun m hm => (by cases hm)⟩
  exact invariant (fun _ move hd _ => hd.step u casefold enabled move) hstart
    (along_trivial _ moves)

theorem go_asked (d : Desk) (enabled : Bool) (id : ℕ) (error : String) (fate : Fate) :
    (d.go enabled id error fate).asked = d.asked := by
  rw [Desk.go]
  cases d.task id with
  | none => rfl
  | some task =>
    cases task with
    | storing sender => cases fate <;> rfl
    | saving sender =>
      simp only [Desk.saveSubscription]
      split_ifs
      · rfl
      · cases fate <;> rfl
    | reading sender =>
      cases fate with
      | served =>
        simp only [Desk.readSubscription]
        split
        · rfl
        · split_ifs <;> rfl
      | unanswered => rfl
      | lost => rfl
    | deleting sender seen => cases fate <;> rfl
    | polling =>
      cases fate with
      | served =>
        simp only [Desk.pollSubscription]
        split <;> rfl
      | unanswered => rfl
      | lost => rfl
    | replied reply => rfl
    | watching s => rfl
    | rested => rfl

theorem asked_step {move : Move} (h : sender ∈ (d.step u casefold enabled move).asked) :
    sender ∈ d.asked ∨ Subscribes u casefold sender move := by
  cases move with
  | message id text from' =>
    rw [Desk.step] at h
    split at h
    next hcommand =>
      rcases List.mem_append.mp h with hold | hnew
      · exact .inl hold
      · exact .inr ⟨(List.mem_singleton.mp hnew).symm, hcommand⟩
    next => exact .inl h
    next => exact .inl h
  | poll id =>
    rw [Desk.step] at h
    split at h <;> exact .inl h
  | go id fate error => exact .inl (go_asked d enabled id error fate ▸ h)
  | detected id resumedUserId completed =>
    refine .inl ?_
    rw [Desk.step, Desk.handleDetectedIncident] at h
    split at h
    · split_ifs at h <;> exact h
    · exact h

theorem asked_run {moves : List Move}
    (h : sender ∈ (run (step u casefold enabled) d moves).asked) :
    sender ∈ d.asked ∨ ∃ move ∈ moves, Subscribes u casefold sender move := by
  induction moves generalizing d with
  | nil => exact .inl h
  | cons move moves ih =>
    rcases ih h with hasked | ⟨move', hmem, hmove'⟩
    · exact (asked_step hasked).imp_right fun hmove => ⟨move, List.mem_cons_self, hmove⟩
    · exact .inr ⟨move', List.mem_cons_of_mem move hmem, hmove'⟩

theorem results_reach_subscribers (u : Text.Unicode) (casefold : String → String) (enabled : Bool)
    (moves : List Move) :
    let d := run (step u casefold enabled) {} moves
    (∀ s, d.subscription = some s → ∃ sender, (∃ move ∈ moves, Subscribes u casefold sender move) ∧
      s = sender.subscription ∧ sender.conversationId ∈ d.conversations ∧
      sender.conversationId ≠ "" ∧ sender.userId ≠ "") ∧
    ∀ delivery ∈ d.sent, ∃ sender, (∃ move ∈ moves, Subscribes u casefold sender move) ∧
      delivery = ⟨sender.conversationId, sender.userId⟩ ∧ sender.conversationId ∈ d.conversations ∧
      sender.userId ≠ "" := by
  intro d
  have hsound : d.Sound := sound_run u casefold enabled moves
  have hfrom : ∀ sender ∈ d.asked, ∃ move ∈ moves, Subscribes u casefold sender move :=
    fun sender hsender => (asked_run hsender).resolve_left (by simp)
  constructor
  · intro s hs
    obtain ⟨sender, hsender, hrest⟩ := hsound.subscribed s hs
    exact ⟨sender, hfrom sender hsender, hrest⟩
  · intro delivery hdelivery
    obtain ⟨s, ⟨sender, hsender, rfl, hstored, -, huser⟩, hto⟩ := hsound.sent delivery hdelivery
    exact ⟨sender, hfrom sender hsender, hto, hstored, huser⟩

def ReadsOwn (d : Desk) (sender : Sender) (seen : ℕ) : Prop :=
  d.writes = seen ∧ ∃ s, d.subscription = some s ∧ sender.Owns s

theorem set_task_eq_deleting {id' : ℕ} {seen : ℕ}
    (h : (d.set id task).task id' = some (.deleting sender seen)) :
    d.task id' = some (.deleting sender seen) ∨ task = .deleting sender seen ∧ id' = id := by
  simp only [Desk.set, Function.update_apply] at h
  split_ifs at h with hid
  · exact .inr ⟨Option.some.inj h, hid⟩
  · exact .inl h

theorem task_of_set {id' : ℕ} {seen : ℕ}
    (h : (d.set id task).task id' = some (.deleting sender seen))
    (hne : task ≠ .deleting sender seen) :
    d.task id' = some (.deleting sender seen) :=
  (set_task_eq_deleting h).resolve_right fun hnew => hne hnew.1

-- The request with which a task starts to delete: it is its own read, and it is answered.
structure OwnRead (d : Desk) (id : ℕ) (sender : Sender) (seen : ℕ) (move : Move) : Prop where
  served : ∃ error, move = .go id .served error
  reading : d.task id = some (.reading sender)
  reads : d.ReadsOwn sender seen

theorem go_reads {id' : ℕ} {seen : ℕ} {fate : Fate}
    (h : (d.go enabled id error fate).task id' = some (.deleting sender seen)) :
    d.task id' = some (.deleting sender seen) ∨
      d.OwnRead id' sender seen (.go id fate error) := by
  rw [Desk.go] at h
  cases htask : d.task id with
  | none => exact .inl (by rwa [htask] at h)
  | some task =>
    rw [htask] at h
    cases task with
    | storing from' =>
      cases fate <;> exact .inl (task_of_set h nofun)
    | saving from' =>
      simp only [Desk.saveSubscription] at h
      split_ifs at h
      · exact .inl (task_of_set h nofun)
      · cases fate <;> exact .inl (task_of_set h nofun)
    | reading from' =>
      cases fate with
      | served =>
        simp only [Desk.readSubscription] at h
        split at h
        · exact .inl (task_of_set h nofun)
        next existing hsub =>
          split_ifs at h with howns
          · refine (set_task_eq_deleting h).imp_right fun ⟨hnew, hid⟩ => ?_
            cases hnew
            subst hid
            exact ⟨⟨error, rfl⟩, htask, rfl, existing, hsub, howns⟩
          · exact .inl (task_of_set h nofun)
      | unanswered => exact .inl (task_of_set h nofun)
      | lost => exact .inl (task_of_set h nofun)
    | deleting from' n =>
      cases fate <;> exact .inl (task_of_set h nofun)
    | polling =>
      cases fate with
      | served =>
        simp only [Desk.pollSubscription] at h
        split at h <;> exact .inl (task_of_set h nofun)
      | unanswered => exact .inl (task_of_set h nofun)
      | lost => exact .inl (task_of_set h nofun)
    | replied reply => exact .inl h
    | watching s => exact .inl h
    | rested => exact .inl h

theorem step_reads {move : Move} {id' : ℕ} {seen : ℕ}
    (h : (d.step u casefold enabled move).task id' = some (.deleting sender seen)) :
    d.task id' = some (.deleting sender seen) ∨ d.OwnRead id' sender seen move := by
  cases move with
  | message id text from' =>
    rw [Desk.step] at h
    split at h
    · exact .inl (task_of_set h nofun)
    · exact .inl (task_of_set h nofun)
    · exact .inl h
  | poll id =>
    rw [Desk.step] at h
    split at h
    · exact .inl (task_of_set h nofun)
    · exact .inl h
  | go id fate error => exact go_reads h
  | detected id resumedUserId completed =>
    rw [Desk.step, Desk.handleDetectedIncident] at h
    split at h
    · split_ifs at h <;> exact .inl h
    · exact .inl h

theorem run_reads {moves : List Move} {seen : ℕ}
    (h : (run (step u casefold enabled) {} moves).task id = some (.deleting sender seen)) :
    ∃ earlier move, earlier ++ [move] <+: moves ∧
      (run (step u casefold enabled) {} earlier).OwnRead id sender seen move := by
  induction moves using List.reverseRecOn with
  | nil => cases h
  | append_singleton moves move ih =>
    rw [run_append, run_cons, run_nil] at h
    rcases step_reads h with hold | hnew
    · obtain ⟨earlier, read, hearlier, hreads⟩ := ih hold
      exact ⟨earlier, read, hearlier.trans (List.prefix_append moves [move]), hreads⟩
    · exact ⟨moves, move, List.prefix_rfl, hnew⟩

theorem removals_follow_own_read (u : Text.Unicode) (casefold : String → String) (enabled : Bool)
    (moves : List Move) (move : Move) :
    let d := run (step u casefold enabled) {} moves
    let d' := d.step u casefold enabled move
    d'.subscription = d.subscription ∨
    (∃ id fate error sender, move = .go id fate error ∧ d.task id = some (.saving sender) ∧
      d'.subscription = some sender.subscription) ∨
    ∃ id fate error sender seen, move = .go id fate error ∧
      d.task id = some (.deleting sender seen) ∧ d'.subscription = none ∧
      ∃ earlier error', earlier ++ [.go id .served error'] <+: moves ∧
        let before := run (step u casefold enabled) {} earlier
        before.task id = some (.reading sender) ∧
          (∃ s, before.subscription = some s ∧ sender.Owns s) ∧
          before.writes = seen ∧ seen ≤ d.writes ∧
          (seen = d.writes → ∀ s, d.subscription = some s → sender.Owns s) := by
  intro d d'
  refine (step_changes u casefold enabled d move).imp_right fun hchanges => ?_
  rw [show d'.subscription = (d.step u casefold enabled move).subscription from rfl]
  generalize (d.step u casefold enabled move).subscription = new at hchanges ⊢
  cases hchanges with
  | @saved id fate error sender hmove htask =>
    exact .inl ⟨id, fate, error, sender, hmove, htask, rfl⟩
  | @removed id fate error sender seen hmove htask =>
    obtain ⟨earlier, _, hearlier, ⟨error', rfl⟩, hreading, hwrites, hown⟩ := run_reads htask
    have hjustified := (sound_run u casefold enabled moves).tasks id _ htask
    exact .inr ⟨id, fate, error, sender, seen, hmove, htask, rfl, earlier, error', hearlier,
      hreading, hown, hwrites, hjustified⟩

end Steps

-- A removal that another subscriber overtakes deletes what that one has stored.
example :
    let first : Sender := ⟨"noc", "ada", "Ada"⟩
    let second : Sender := ⟨"ops", "bo", "Bo"⟩
    let served id := Move.go id .served ""
    let subscribed := run (step Text.ascii id true) {}
      [.message 0 "/monitor subscribe" first, served 0, served 0,
        .message 1 "/monitor unsubscribe" first, served 1,
        .message 2 " /monitor subscribe" second, served 2, served 2]
    subscribed.subscription = some second.subscription ∧
      (subscribed.step Text.ascii id true (served 1)).subscription = none := by
  decide

end Desk

end IncidentMonitor
