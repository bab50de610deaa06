import NocAgent.Library.SharedCache

namespace Agent.UserTokens
open SharedCache Trace

-- The activity a turn runs for: no from property, or one with an id that may itself be missing.
abbrev FromProperty := Option (Option String)

inductive EntryPoint where
  | processUserMessage
  | investigateDetectedIncident (authorizedUserId : String)
  | broadcastIncidentUpdate
deriving DecidableEq

structure Scopes where
  foundryUserToken : String := "https://ai.azure.com/.default"
  graphMailToken : String := "https://graph.microsoft.com/.default"

structure Call where
  point : EntryPoint
  sender : FromProperty
deriving DecidableEq

namespace Call

def userId (c : Call) : Option String :=
  match c.point with
  | .processUserMessage => c.sender.getD (some "default")
  | .investigateDetectedIncident authorizedUserId => some authorizedUserId
  | .broadcastIncidentUpdate => none

def scope (scopes : Scopes) (c : Call) : String :=
  match c.point with
  | .processUserMessage | .investigateDetectedIncident _ => scopes.foundryUserToken
  | .broadcastIncidentUpdate => scopes.graphMailToken

-- An automatic investigation raises before its exchange when the context is another user's.
def reachesExchange (c : Call) : Bool :=
  match c.point with
  | .processUserMessage | .broadcastIncidentUpdate => true
  | .investigateDetectedIncident authorizedUserId =>
    authorizedUserId ≠ "" && c.sender.getD (some "") = some authorizedUserId

def cacheKey (scopes : Scopes) (c : Call) : Option (String × String) :=
  match c.userId with
  | some userId => if userId = "" then none else some (userId, c.scope scopes)
  | none => none

end Call

section Exchange
variable (scopes : Scopes) (expClaim : String → Option ℚ)

-- expClaim is what the payload of a token says, where it can be read.
def jwtExpEpoch (time : ℚ) (token : String) : ℚ := (expClaim token).getD (time + 300)

def tokenCache : Policy (String × String) Call String (String × ℚ) where
  key := Call.cacheKey scopes
  entry time token := (token, jwtExpEpoch expClaim time token - 60)
  value := Prod.fst
  fresh time cached := cached.2 > time
  value_entry _ _ := rfl

inductive Event where
  | exchangeUserToken (id : ℕ) (authHandlerName : Option String) (call : Call)
  | answered (id : ℕ) (token : Option String)
  | tick (seconds : ℚ)

def Event.move : Event → Option (Move Call String)
  | .exchangeUserToken id authHandlerName call =>
    if authHandlerName.getD "" = "" ∨ call.reachesExchange = false then none
    else some (.ask id call)
  | .answered id token => some (.answer id (token.filter (· ≠ "")))
  | .tick seconds => some (.tick seconds)

end Exchange

section Isolation
variable {scopes : Scopes} {expClaim : String → Option ℚ} {c c' : Call} {key : String × String}

theorem cacheKey_eq_some (h : c.cacheKey scopes = some key) :
    c.userId = some key.1 ∧ key.1 ≠ "" ∧ c.scope scopes = key.2 := by
  rw [Call.cacheKey] at h
  split at h
  next userId huser =>
    split_ifs at h with hgiven
    cases h
    exact ⟨huser, hgiven, rfl⟩
  next => cases h

theorem sender_of_userId {userId : String} (hreaches : c.reachesExchange = true)
    (huser : c.userId = some userId) (hdefault : userId ≠ "default") :
    c.sender = some (some userId) := by
  obtain ⟨point, sender⟩ := c
  cases point with
  | processUserMessage =>
    cases sender with
    | none => exact absurd (Option.some.inj huser).symm hdefault
    | some id => exact congrArg some huser
  | investigateDetectedIncident authorizedUserId =>
    cases huser
    simp only [Call.reachesExchange, Bool.and_eq_true, decide_eq_true_eq] at hreaches
    cases sender with
    | none => exact absurd (Option.some.inj hreaches.2).symm hreaches.1
    | some id => exact congrArg some hreaches.2
  | broadcastIncidentUpdate => cases huser

theorem asked_of_mem {events : List Event} {id : ℕ}
    (h : .ask id c ∈ events.filterMap Event.move) :
    c.reachesExchange = true ∧
      ∃ authHandlerName, .exchangeUserToken id authHandlerName c ∈ events := by
  obtain ⟨event, hevent, hmove⟩ := List.mem_filterMap.mp h
  cases event with
  | exchangeUserToken id' authHandlerName call =>
    rw [Event.move] at hmove
    split_ifs at hmove with hskipped
    cases hmove
    exact ⟨Bool.of_not_eq_false (not_or.mp hskipped).2, authHandlerName, hevent⟩
  | answered id' token => cases hmove
  | tick seconds => cases hmove

theorem answered_of_mem {events : List Event} {id : ℕ} {token : String}
    (h : .answer id (some token) ∈ events.filterMap Event.move) :
    .answered id (some token) ∈ events ∧ token ≠ "" := by
  obtain ⟨event, hevent, hmove⟩ := List.mem_filterMap.mp h
  cases event with
  | exchangeUserToken id' authHandlerName call =>
    rw [Event.move] at hmove
    split_ifs at hmove
    cases hmove
  | answered id' given =>
    simp only [Event.move, Option.some.injEq, Move.answer.injEq, Option.filter_eq_some_iff,
      decide_eq_true_eq] at hmove
    obtain ⟨rfl, rfl, hgiven⟩ := hmove
    exact ⟨hevent, hgiven⟩
  | tick seconds => cases hmove

theorem delegated_tokens_stay_with_their_user (scopes : Scopes) (expClaim : String → Option ℚ)
    (events : List Event) :
    let s := run (step (tokenCache scopes expClaim)) {} (events.filterMap Event.move)
    ∀ id c token time, s.task id = some (.returned c (some token) time) →
      token ≠ "" ∧ ∃ (c' : Call) (fetchedAt : ℚ),
        (∃ id' authHandlerName, .exchangeUserToken id' authHandlerName c' ∈ events ∧
          .answered id' (some token) ∈ events) ∧
        (c' = c ∧ fetchedAt = time ∨
          c'.scope scopes = c.scope scopes ∧ c'.userId = c.userId ∧
            (c'.sender = c.sender ∨ c.userId = some "default") ∧
            time < jwtExpEpoch expClaim fetchedAt token - 60) := by
  intro s id c token time hreturned
  obtain ⟨f, hf, rfl, hbacked⟩ := (sound_run (tokenCache scopes expClaim) _).returned id c token
    time hreturned
  have hreaches' : c.reachesExchange = true := (asked_of_mem (caller_run hreturned)).1
  obtain ⟨id', hask, hanswer⟩ := fetched_run hf
  obtain ⟨hreaches, authHandlerName, hexchange⟩ := asked_of_mem hask
  obtain ⟨hanswered, hgiven⟩ := answered_of_mem hanswer
  refine ⟨hgiven, f.caller, f.time, ⟨id', authHandlerName, hexchange, hanswered⟩, ?_⟩
  refine hbacked.imp_right ?_
  rintro ⟨key, hkey, hkey', hfresh⟩
  obtain ⟨huser, -, hscope⟩ := cacheKey_eq_some hkey
  obtain ⟨huser', -, hscope'⟩ := cacheKey_eq_some hkey'
  refine ⟨hscope.trans hscope'.symm, huser.trans huser'.symm, ?_, of_decide_eq_true hfresh⟩
  obtain hdefault | hdefault := eq_or_ne key.1 "default"
  · exact .inr (hdefault ▸ huser')
  · refine .inl ?_
    rw [sender_of_userId hreaches huser hdefault, sender_of_userId hreaches' huser' hdefault]

end Isolation

section Example

def ada : Call := ⟨.processUserMessage, some (some "ada")⟩

def twoTurns : List Event :=
  [.exchangeUserToken 0 (some "AGENTIC") ada, .answered 0 (some "token"), .tick 60,
    .exchangeUserToken 1 (some "AGENTIC") ada]

theorem delegated_tokens_stay_with_their_user_twoTurns :
    "token" ≠ "" ∧ ∃ (c' : Call) (fetchedAt : ℚ),
      (∃ id' authHandlerName, .exchangeUserToken id' authHandlerName c' ∈ twoTurns ∧
        .answered id' (some "token") ∈ twoTurns) ∧
      (c' = ada ∧ fetchedAt = 60 ∨
        c'.scope {} = ada.scope {} ∧ c'.userId = ada.userId ∧
          (c'.sender = ada.sender ∨ ada.userId = some "default") ∧
          60 < jwtExpEpoch (fun _ => none) fetchedAt "token" - 60) :=
  delegated_tokens_stay_with_their_user {} (fun _ => none) twoTurns 1 ada "token" 60
    (by decide +kernel)

end Example

end Agent.UserTokens
