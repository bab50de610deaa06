import NocAgent.Library.SharedCache
import NocAgent.RunLedger.Clients
import NocAgent.RunLedger.Effects

namespace Agent.RunTokens
open RunLedger SharedCache Trace

-- A Teams turn, or an MCP invocation under the caller's object id.
structure Turn where
  conversationId : String
  activityId : String
deriving DecidableEq

-- The settings as the environment has them; digest is the hexadecimal SHA-256 of a text.
structure Client where
  digest : String → String
  budgetMicros : Option String
  policySet : Option String

namespace Client
variable (c : Client)

def seed (turn : Turn) : String := turn.conversationId ++ "\n" ++ turn.activityId

def shortDigest (text : String) : String := .ofList ((c.digest text).toList.take 24)

def runId (turn : Turn) : String := "teams-" ++ c.shortDigest (seed turn)

def runLedgerBudgetMicros : ℤ :=
  match int? (c.budgetMicros.getD "2000000") with
  | some n => max 1 n
  | none => 2000000

def runLedgerPolicySet : String :=
  orText (Text.strip (c.policySet.getD "default")) "default"

theorem budget_pos : 0 < c.runLedgerBudgetMicros := by
  rw [runLedgerBudgetMicros]
  split
  · exact lt_of_lt_of_le one_pos (le_max_left _ _)
  · decide

theorem runId_nonempty (turn : Turn) : c.runId turn ≠ "" := by
  intro hempty
  have hlength := congrArg (fun text => text.toList.length) hempty
  simp [runId] at hlength

theorem ttl_pos : ∀ seconds ∈ (none : Option ℕ), 0 < seconds := fun _ h => by cases h

def request (turn : Turn) : RunCreateRequest where
  runId := c.runId turn
  budgetMicros := c.runLedgerBudgetMicros
  policySet := c.runLedgerPolicySet
  runId_nonempty := c.runId_nonempty turn
  budget_pos := c.budget_pos
  ttl_pos := ttl_pos

end Client

def runTokenCache : Policy Turn Turn RunToken RunToken where
  key := some
  entry _ token := token
  value := id
  fresh _ _ := true
  value_entry _ _ := rfl

structure System where
  cache : State Turn Turn RunToken RunToken := {}
  redis : Redis := .empty
  handler : ℕ → Option CreatePc := fun _ => none

-- A turn asks for its token, its request reaches the ledger, the ledger runs the next command for
-- it, the agent has the answer or gives up waiting, or a command of another client is run.
inductive Move where
  | ask (id : ℕ) (turn : Turn)
  | arrive (id : ℕ)
  | handle (id : ℕ)
  | answer (id : ℕ) (inTime : Bool)
  | other (client : RunLedger.Client) (uuid : String)
  | tick (seconds : ℕ)

section Step
variable (svc : RunLedgerService) (c : Client)

def System.serve (s : System) (id : ℕ) (pc : CreatePc) (turn : Turn) : System :=
  let next := svc.stepCreate (c.request turn) s.redis pc
  { s with
    redis := next.1
    handler := fun id' => if id' = id then some next.2 else s.handler id' }

def response : Option CreatePc → Option RunToken
  | some (.done response) => some response.runToken
  | _ => none

def step (s : System) : Move → System
  | .ask id turn => { s with cache := SharedCache.step runTokenCache s.cache (.ask id turn) }
  | .arrive id =>
    match s.cache.task id, s.handler id with
    | some (.fetching _), none =>
      { s with handler := fun id' => if id' = id then some .start else s.handler id' }
    | _, _ => s
  | .handle id =>
    match s.cache.task id, s.handler id with
    | some task, some pc => s.serve svc c id pc task.caller
    | _, _ => s
  | .answer id inTime =>
    let token := if inTime then response (s.handler id) else none
    { s with cache := SharedCache.step runTokenCache s.cache (.answer id token) }
  | .other client uuid => { s with redis := (svc.stepClient uuid s.redis client).1 }
  | .tick seconds => { s with redis := s.redis.tick seconds }

end Step

section Handlers
variable {svc : RunLedgerService} {c : Client} {s : System} {id : ℕ} {turn : Turn}

def Names (svc : RunLedgerService) (c : Client) (turn : Turn) (token : RunToken) : Prop :=
  token.runId = c.runId turn ∧ token.iss = svc.signer.issuer

theorem run_stepCreate (svc : RunLedgerService) (body : RunCreateRequest) (s : Redis)
    (pc : CreatePc) (R : String) :
    (svc.stepCreate body s pc).1.run R = s.run R ∨
      pc = .initialising ∧ R = body.runId ∧
        (svc.stepCreate body s pc).1.run R = some (svc.freshRun body) := by
  cases pc with
  | start =>
    refine .inl ?_
    simp only [RunLedgerService.stepCreate]
    split <;> rfl
  | initialising =>
    obtain rfl | hR := eq_or_ne R body.runId
    · refine .inr ⟨rfl, rfl, ?_⟩
      simp only [RunLedgerService.stepCreate, Redis.run, Redis.get_runs_hset, if_true]
      rfl
    · refine .inl ?_
      simp [RunLedgerService.stepCreate, Redis.run, hR]
  | refreshing current =>
    refine .inl ?_
    simp [RunLedgerService.stepCreate, Redis.run]
  | done response => exact .inl rfl

theorem names_stepCreate {s : Redis} {pc : CreatePc} {response : RunCreateResponse}
    (hdone : ∀ response, pc = .done response → Names svc c turn response.runToken)
    (h : (svc.stepCreate (c.request turn) s pc).2 = .done response) :
    Names svc c turn response.runToken := by
  cases pc with
  | start =>
    simp only [RunLedgerService.stepCreate] at h
    split at h <;> cases h
  | initialising => cases h
  | refreshing current =>
    cases h
    exact ⟨rfl, rfl⟩
  | done response' =>
    cases h
    exact hdone response rfl

theorem absent_stepCreate {s : Redis} {pc : CreatePc}
    (h : (svc.stepCreate (c.request turn) s pc).2 = .initialising) :
    pc = .start ∧ s.run (c.runId turn) = none := by
  cases pc with
  | start =>
    simp only [RunLedgerService.stepCreate] at h
    split at h
    next habsent => exact ⟨rfl, habsent⟩
    next => cases h
  | initialising => cases h
  | refreshing current => cases h
  | done response => cases h

structure Sound (svc : RunLedgerService) (c : Client) (s : System) : Prop where
  cache : SharedCache.Sound runTokenCache s.cache
  started : ∀ id pc, s.handler id = some pc → ∃ task, s.cache.task id = some task
  done : ∀ id task response, s.cache.task id = some task → s.handler id = some (.done response) →
    Names svc c task.caller response.runToken
  fetched : ∀ f ∈ s.cache.fetched, Names svc c f.caller f.value

theorem Sound.onCache (h : Sound svc c s) {move : SharedCache.Move Turn RunToken}
    (hanswer : ∀ id token, move = .answer id (some token) →
      ∃ response, s.handler id = some (.done response) ∧ token = response.runToken) :
    Sound svc c { s with cache := SharedCache.step runTokenCache s.cache move } where
  cache := h.cache.step move
  started id pc hpc := by
    obtain ⟨task, htask⟩ := h.started id pc hpc
    obtain ⟨after, hafter, -⟩ := caller_kept htask move
    exact ⟨after, hafter⟩
  done id task response htask hresponse := by
    obtain ⟨before, hbefore⟩ := h.started id _ hresponse
    obtain ⟨after, hafter, hcaller⟩ := caller_kept hbefore move
    cases hafter.symm.trans htask
    rw [hcaller]
    exact h.done id before response hbefore hresponse
  fetched f hf := by
    rcases fetched_step hf with hold | ⟨id, htask, hmove⟩
    · exact h.fetched f hold
    · obtain ⟨response, hresponse, htoken⟩ := hanswer id f.value hmove
      rw [htoken]
      exact h.done id (.fetching f.caller) response htask hresponse

theorem Sound.arrive (h : Sound svc c s) {task : Task Turn RunToken}
    (htask : s.cache.task id = some task) :
    Sound svc c
      { s with handler := fun id' => if id' = id then some .start else s.handler id' } where
  cache := h.cache
  started id' pc hpc := by
    dsimp only at hpc
    split_ifs at hpc with hid
    · exact ⟨task, hid ▸ htask⟩
    · exact h.started id' pc hpc
  done id' task' response htask' hresponse := by
    dsimp only at hresponse
    split_ifs at hresponse
    · cases hresponse
    · exact h.done id' task' response htask' hresponse
  fetched := h.fetched

theorem Sound.serve (h : Sound svc c s) {task : Task Turn RunToken} {pc : CreatePc}
    (htask : s.cache.task id = some task) (hpc : s.handler id = some pc) :
    Sound svc c (s.serve svc c id pc task.caller) where
  cache := h.cache
  started id' pc' hpc' := by
    simp only [System.serve] at hpc'
    split_ifs at hpc' with hid
    · exact ⟨task, hid ▸ htask⟩
    · exact h.started id' pc' hpc'
  done id' task' response htask' hresponse := by
    simp only [System.serve] at hresponse
    split_ifs at hresponse with hid
    · subst hid
      cases htask.symm.trans htask'
      refine names_stepCreate ?_ (Option.some.inj hresponse)
      rintro response' rfl
      exact h.done id' task response' htask hpc
    · exact h.done id' task' response htask' hresponse
  fetched := h.fetched

theorem response_eq_some {pc : Option CreatePc} {token : RunToken} (h : response pc = some token) :
    ∃ response, pc = some (.done response) ∧ token = response.runToken := by
  cases pc with
  | none => cases h
  | some pc =>
    cases pc with
    | done response =>
      cases h
      exact ⟨response, rfl, rfl⟩
    | start => cases h
    | initialising => cases h
    | refreshing current => cases h

theorem Sound.step (h : Sound svc c s) (move : Move) : Sound svc c (step svc c s move) := by
  cases move with
  | ask id turn => exact h.onCache fun id token hmove => by cases hmove
  | arrive id =>
    rw [RunTokens.step]
    split
    next htask _ => exact h.arrive htask
    next => exact h
  | handle id =>
    rw [RunTokens.step]
    split
    next htask hpc => exact h.serve htask hpc
    next => exact h
  | answer id inTime =>
    refine h.onCache fun id' token hmove => ?_
    cases inTime with
    | false => cases hmove
    | true =>
      obtain ⟨rfl, htoken⟩ := SharedCache.Move.answer.inj hmove
      exact response_eq_some htoken
  | other client uuid => exact ⟨h.cache, h.started, h.done, h.fetched⟩
  | tick seconds => exact ⟨h.cache, h.started, h.done, h.fetched⟩

theorem sound_run (svc : RunLedgerService) (c : Client) (moves : List Move) :
    Sound svc c (run (step svc c) {} moves) := by
  have hstart : Sound svc c {} :=
    { cache := SharedCache.sound_run runTokenCache []
      started := fun id pc hpc => by cases hpc
      done := fun id task response htask => by cases htask
      fetched := fun f hf => by cases hf }
  exact invariant (fun _ move h _ => h.step move) hstart (along_trivial _ moves)

theorem cache_step (s : System) (move : Move) :
    (step svc c s move).cache = s.cache ∨
      ∃ cacheMove, (step svc c s move).cache = SharedCache.step runTokenCache s.cache cacheMove := by
  cases move with
  | ask id turn => exact .inr ⟨.ask id turn, rfl⟩
  | arrive id =>
    rw [RunTokens.step]
    split <;> exact .inl rfl
  | handle id =>
    rw [RunTokens.step]
    split <;> exact .inl rfl
  | answer id inTime =>
    exact .inr ⟨.answer id (if inTime then response (s.handler id) else none), rfl⟩
  | other client uuid => exact .inl rfl
  | tick seconds => exact .inl rfl

theorem task_kept {task : Task Turn RunToken} (h : s.cache.task id = some task) (move : Move) :
    ∃ after, (step svc c s move).cache.task id = some after ∧ after.caller = task.caller := by
  rcases cache_step s move with hsame | ⟨cacheMove, hstep⟩
  · exact ⟨task, by rw [hsame, h], rfl⟩
  · rw [hstep]
    exact caller_kept h cacheMove

theorem handler_step {pc : CreatePc} {move : Move}
    (h : (step svc c s move).handler id = some pc) (hpc : pc ≠ .start) :
    s.handler id = some pc ∨ ∃ task before, move = .handle id ∧
      s.cache.task id = some task ∧ s.handler id = some before ∧
      pc = (svc.stepCreate (c.request task.caller) s.redis before).2 := by
  cases move with
  | ask id' turn => exact .inl h
  | arrive id' =>
    refine .inl ?_
    rw [RunTokens.step] at h
    split at h
    · dsimp only at h
      split_ifs at h
      · cases h
        exact absurd rfl hpc
      · exact h
    · exact h
  | handle id' =>
    rw [RunTokens.step] at h
    split at h
    next task before htask hbefore =>
      simp only [System.serve] at h
      split_ifs at h with hid
      · subst hid
        exact .inr ⟨task, before, rfl, htask, hbefore, (Option.some.inj h).symm⟩
      · exact .inl h
    next => exact .inl h
  | answer id' inTime => exact .inl h
  | other client uuid => exact .inl h
  | tick seconds => exact .inl h

theorem initialising_run {moves : List Move}
    (h : (run (step svc c) {} moves).handler id = some .initialising) :
    ∃ task earlier, (run (step svc c) {} moves).cache.task id = some task ∧
      earlier ++ [.handle id] <+: moves ∧
      (run (step svc c) {} earlier).handler id = some .start ∧
      (run (step svc c) {} earlier).redis.run (c.runId task.caller) = none := by
  induction moves using List.reverseRecOn with
  | nil => cases h
  | append_singleton moves move ih =>
    rw [run_append, run_cons, run_nil] at h ⊢
    rcases handler_step h (by simp) with hold | ⟨task, before, rfl, htask, hbefore, hnext⟩
    · obtain ⟨task, earlier, htask, hearlier, hstart, habsent⟩ := ih hold
      obtain ⟨after, hafter, hcaller⟩ := task_kept htask move
      exact ⟨after, earlier, hafter, hearlier.trans (List.prefix_append moves [move]), hstart,
        hcaller ▸ habsent⟩
    · obtain ⟨after, hafter, hcaller⟩ := task_kept htask (.handle id)
      obtain ⟨rfl, habsent⟩ := absent_stepCreate hnext.symm
      exact ⟨after, moves, hafter, List.prefix_rfl, hbefore, hcaller ▸ habsent⟩

end Handlers

section Seeds
variable {turn turn' : Turn}

theorem seed_inj (h : Client.seed turn = Client.seed turn') (hturn : '\n' ∉ turn.activityId.toList)
    (hturn' : '\n' ∉ turn'.activityId.toList) : turn = turn' := by
  obtain ⟨conversation, activity⟩ := turn
  obtain ⟨conversation', activity'⟩ := turn'
  have htexts := congrArg String.toList h
  simp only [Client.seed, String.toList_append, List.append_assoc] at htexts
  have hnewline : "\n".toList = ['\n'] := rfl
  rw [hnewline, List.singleton_append, List.singleton_append] at htexts
  have hnone : ∀ {ys ys' as : List Char}, '\n' ∉ ys → '\n' :: ys = as ++ '\n' :: ys' → as = [] := by
    intro ys ys' as hys hrest
    cases as with
    | nil => rfl
    | cons a as =>
      obtain ⟨-, hys'⟩ := List.cons.inj hrest
      exact absurd (hys' ▸ List.mem_append_right as List.mem_cons_self) hys
  rcases List.append_eq_append_iff.mp htexts with ⟨as, hconv, hact⟩ | ⟨as, hconv, hact⟩
  · cases hnone hturn hact
    rw [List.append_nil] at hconv
    rw [String.toList_inj.mp hconv, String.toList_inj.mp (List.cons.inj hact).2]
  · cases hnone hturn' hact
    rw [List.append_nil] at hconv
    rw [String.toList_inj.mp hconv, String.toList_inj.mp (List.cons.inj hact).2]

end Seeds

theorem turn_tokens_name_their_run (svc : RunLedgerService) (c : Client) (moves : List Move) :
    let s := run (step svc c) {} moves
    (∀ id turn token time, s.cache.task id = some (.returned turn (some token) time) →
      token.runId = c.runId turn ∧ token.iss = svc.signer.issuer) ∧
    ∀ id id' turn turn' token token' time time',
      s.cache.task id = some (.returned turn (some token) time) →
      s.cache.task id' = some (.returned turn' (some token') time') →
      '\n' ∉ turn.activityId.toList → '\n' ∉ turn'.activityId.toList →
      Set.InjOn c.shortDigest {Client.seed turn, Client.seed turn'} →
      token.runId = token'.runId → turn = turn' := by
  intro s
  have hsound : Sound svc c s := sound_run svc c moves
  have hnames : ∀ id turn token time, s.cache.task id = some (.returned turn (some token) time) →
      Names svc c turn token := by
    intro id turn token time hreturned
    obtain ⟨f, hf, rfl, hcaller⟩ := hsound.cache.returned id turn token time hreturned
    have hturn : f.caller = turn := by
      rcases hcaller with ⟨hown, -⟩ | ⟨key, hkey, hkey', -⟩
      · exact hown
      · exact Option.some.inj (hkey.trans hkey'.symm)
    exact hturn ▸ hsound.fetched f hf
  refine ⟨hnames, ?_⟩
  intro id id' turn turn' token token' time time' hreturned hreturned' hline hline' hdigest hsame
  have hrun : c.runId turn = c.runId turn' :=
    (hnames _ _ _ _ hreturned).1.symm.trans (hsame.trans (hnames _ _ _ _ hreturned').1)
  have hshort : c.shortDigest (Client.seed turn) = c.shortDigest (Client.seed turn') := by
    simpa [Client.runId] using hrun
  exact seed_inj (Set.injOn_pair.mp hdigest hshort) hline hline'

theorem creates_follow_absent_read (svc : RunLedgerService) (c : Client) (moves : List Move)
    (move : Move) (R : String) :
    let s := run (step svc c) {} moves
    let s' := step svc c s move
    s'.redis.run R = s.redis.run R ∨
    (∃ client uuid, move = .other client uuid) ∨ (∃ seconds, move = .tick seconds) ∨
    ∃ id task, move = .handle id ∧ s.cache.task id = some task ∧ R = c.runId task.caller ∧
      s'.redis.run R = some (svc.freshRun (c.request task.caller)) ∧
      ∃ earlier, earlier ++ [.handle id] <+: moves ∧
        (run (step svc c) {} earlier).handler id = some .start ∧
        (run (step svc c) {} earlier).redis.run R = none := by
  intro s s'
  cases move with
  | ask id turn => exact .inl rfl
  | arrive id =>
    refine .inl ?_
    simp only [s', RunTokens.step]
    split <;> rfl
  | handle id =>
    simp only [s', RunTokens.step]
    split
    next task pc htask hpc =>
      refine (run_stepCreate svc (c.request task.caller) s.redis pc R).imp_right ?_
      rintro ⟨rfl, hR, hrun⟩
      obtain ⟨task', earlier, htask', hearlier, hstart, habsent⟩ := initialising_run hpc
      cases htask.symm.trans htask'
      exact .inr (.inr ⟨id, task, rfl, htask, hR, hrun, earlier, hearlier, hstart, hR ▸ habsent⟩)
    next => exact .inl rfl
  | answer id inTime => exact .inl rfl
  | other client uuid => exact .inr (.inl ⟨client, uuid, rfl⟩)
  | tick seconds => exact .inr (.inr (.inl ⟨seconds, rfl⟩))

section Example

def checksum (text : String) : String :=
  .ofList (Nat.toDigits 16 (text.toList.foldl (fun sum c => 31 * sum + c.toNat) 7))

def plainClient : Client := ⟨checksum, none, none⟩

def firstTurn : Turn := ⟨"conversation", "activity"⟩

def secondTurn : Turn := ⟨"conversation", "reply"⟩

def twoTurns : List Move :=
  [.ask 0 firstTurn, .ask 1 secondTurn, .arrive 1, .handle 1, .arrive 0, .handle 0, .handle 1,
    .handle 0, .handle 0, .handle 1, .answer 0 true, .answer 1 true]

theorem turn_tokens_name_their_run_twoTurns :
    let s := run (step {} plainClient) {} twoTurns
    ∃ token token' time time', s.cache.task 0 = some (.returned firstTurn (some token) time) ∧
      s.cache.task 1 = some (.returned secondTurn (some token') time') ∧
      token.runId ≠ token'.runId := by
  intro s
  refine ⟨_, _, _, _, rfl, rfl, fun hsame => ?_⟩
  have hdigest : Set.InjOn plainClient.shortDigest {Client.seed firstTurn, Client.seed secondTurn} :=
    Set.injOn_pair.mpr fun hshort => absurd hshort (by decide +kernel)
  have hturns := (turn_tokens_name_their_run {} plainClient twoTurns).2 0 1 firstTurn secondTurn
    _ _ _ _ rfl rfl (by decide) (by decide) hdigest hsame
  exact absurd hturns (by decide)

end Example

end Agent.RunTokens
