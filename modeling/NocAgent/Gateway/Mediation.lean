import NocAgent.Gateway.Slots

namespace Gateway

open RunLedger RunLedger.RunLedgerService

namespace Pipeline
variable (p : Pipeline)

def Governed (w : World) (r : Request) (b : Json.Members) (sent : PrecallBody) (uuid : String)
    (text : List Char) : Prop :=
  ∃ body current d, sent.validated = some body ∧
    p.service.admission body w.redis = some (current, d) ∧
      (d.action = .allow ∧ text = r.text ∨
        ∃ b', d.action = .mutate ∧
          mutateBody p.nt (responseMembers (precallResponse d (some uuid))) b = some b' ∧
            text = (p.nt.toText (.obj b')).toList)

-- The ledger has no decision: the precall is malformed, or names no stored run.
def Ungoverned (w : World) (r : Request) (sent : PrecallBody) (text : List Char) : Prop :=
  (∀ body, sent.validated = some body → w.redis.run body.runId = none) ∧ text = r.text

section Served
variable {p : Pipeline} {w : World} {r : Request} {b : Json.Members} {sent : PrecallBody}
  {uuid : String}

theorem decide_error {run : RunState} {prices : Prices} {est : ℕ} {maxOut : Option ℕ}
    {promptHash : String} {pol : Policies} {e : PyError}
    (h : RunLedger.decide run prices est maxOut promptHash pol = .error e) :
    e = .zeroDivisionError := by
  unfold RunLedger.decide preCallWorstCase at h
  split_ifs at h
  all_goals
    cases h
    try rfl

theorem go_decision_iff {d : Decision} {id : Option String} {rewritten : Option Json.Members}
    {reservationId : Option String} :
    p.choose b (.decision (precallResponse d id)) = .go rewritten reservationId ↔
      reservationId = id ∧ (d.action = .allow ∧ rewritten = none ∨
        ∃ b', d.action = .mutate ∧
          mutateBody p.nt (responseMembers (precallResponse d id)) b = some b' ∧
            rewritten = some b') := by
  have haction : (precallResponse d id).action = d.action := rfl
  have hid : (precallResponse d id).reservationId = id := rfl
  cases ha : d.action with
  | allow =>
    simp only [choose, haction, ha, hid, Choice.go.injEq]
    simp [eq_comm, and_comm]
  | mutate =>
    simp only [choose, haction, ha, hid]
    cases mutateBody p.nt (responseMembers (precallResponse d id)) b with
    | none => simp
    | some b' => simp [eq_comm, and_comm]
  | queue => simp [choose, haction, ha]
  | halt => simp [choose, haction, ha]

theorem go_rejected_iff {rewritten : Option Json.Members} {reservationId : Option String} :
    p.choose b .rejected = .go rewritten reservationId ↔
      rewritten = none ∧ reservationId = none := by
  simp only [choose, Choice.go.injEq]
  exact and_congr eq_comm eq_comm

theorem proceed_forwarded_iff {runId runId' : String} {reply : Reply} {identified limited : Bool}
    {text : List Char} {reservationId : Option String} :
    p.proceed r runId b reply identified limited = .forwarded runId' text reservationId ↔
      runId' = runId ∧ identified = true ∧ limited = true ∧
        ∃ rewritten, p.choose b reply = .go rewritten reservationId ∧
          text = p.sentText r rewritten ∧ p.Passes r.path text := by
  cases hc : p.choose b reply with
  | stop verdict => simp [proceed, hc]
  | go rewritten id =>
    simp only [proceed, hc]
    cases identified with
    | false => simp
    | true =>
      by_cases hpass : p.Passes r.path (p.sentText r rewritten)
      · cases limited with
        | false => simp [hpass]
        | true =>
          simp only [hpass, not_true, if_false, Phase.forwarded.injEq, Choice.go.injEq,
            Bool.true_eq_false, true_and]
          constructor
          · rintro ⟨rfl, rfl, rfl⟩
            exact ⟨rfl, rewritten, ⟨rfl, rfl⟩, rfl, hpass⟩
          · rintro ⟨rfl, _, ⟨rfl, rfl⟩, rfl, -⟩
            exact ⟨rfl, rfl, rfl⟩
      · simp only [hpass, not_false_eq_true, if_true, Bool.true_eq_false, if_false]
        refine iff_of_false (by simp) ?_
        rintro ⟨-, -, -, _, h, rfl, hpass'⟩
        cases h
        exact hpass hpass'

theorem proceed_ne_awaiting {runId runId' : String} {b' : Json.Members} {reply reply' : Reply}
    {identified limited : Bool} :
    p.proceed r runId b reply identified limited ≠ .awaiting runId' b' reply' := by
  unfold proceed
  split
  · simp
  · split_ifs <;> simp

theorem serve_of_validated {body : PrecallRequest} (hv : sent.validated = some body) :
    (p.serve w sent uuid).2 = answerTo (p.service.precall body uuid w.redis).2 := by
  simp only [serve, hv]

theorem reply_of_run_none {body : PrecallRequest} (hrun : w.redis.run body.runId = none) :
    answerTo (p.service.precall body uuid w.redis).2 = .rejected := by
  have hget : w.redis.hgetall (runKey body.runId) = none := hrun
  simp only [RunLedgerService.precall, hget]
  rfl

theorem reply_of_admission {body : PrecallRequest} {current : RunHash} {d : Decision}
    (ha : p.service.admission body w.redis = some (current, d)) :
    answerTo (p.service.precall body uuid w.redis).2 =
      .decision (precallResponse d (some uuid)) := by
  rw [p.service.precall_some ha]
  rfl

theorem choose_of_not_admitted {body : PrecallRequest} {current : RunHash}
    (hrun : w.redis.run body.runId = some current)
    (ha : p.service.admission body w.redis = none) {rewritten : Option Json.Members}
    {reservationId : Option String} :
    p.choose b (answerTo (p.service.precall body uuid w.redis).2) ≠
      .go rewritten reservationId := by
  have hget : w.redis.hgetall (runKey body.runId) = some current := hrun
  simp only [admission, hrun] at ha
  cases hd : p.service.decideOn body current (p.service.promptHashes w.redis body.runId) with
  | error e =>
    simp only [RunLedgerService.precall, hget, hd, decide_error hd]
    exact fun h => by cases h
  | ok d =>
    have hadm : ¬ d.action.admits = true := fun hadm => by simp [hd, hadm] at ha
    simp only [RunLedgerService.precall, hget, hd, if_neg hadm, answerTo]
    rw [Ne, go_decision_iff]
    rintro ⟨-, ⟨hallow, -⟩ | ⟨-, hmutate, -⟩⟩
    · exact hadm (by rw [hallow]; rfl)
    · exact hadm (by rw [hmutate]; rfl)

theorem serve_goes_iff {text : List Char} {reservationId : Option String} :
    (∃ rewritten, p.choose b (p.serve w sent uuid).2 = .go rewritten reservationId ∧
        text = p.sentText r rewritten ∧ p.Passes r.path text) ↔
      p.Passes r.path text ∧
        (reservationId = some uuid ∧ p.Governed w r b sent uuid text ∨
          reservationId = none ∧ Ungoverned w r sent text) := by
  cases hv : sent.validated with
  | none =>
    have hreply : (p.serve w sent uuid).2 = .rejected := by
      simp only [serve, hv]
    simp only [hreply, go_rejected_iff]
    simp only [Governed, Ungoverned, hv, sentText]
    simp
    tauto
  | some body =>
    rw [serve_of_validated hv]
    cases hrun : w.redis.run body.runId with
    | none =>
      have hnone : p.service.admission body w.redis = none := by
        simp only [RunLedgerService.admission, hrun]
      simp only [reply_of_run_none hrun, go_rejected_iff]
      simp only [Governed, Ungoverned, hv, sentText]
      simp [hrun, hnone]
      tauto
    | some current =>
      have hopen : ¬ Ungoverned w r sent text := fun h => by
        rw [h.1 body hv] at hrun
        cases hrun
      cases ha : p.service.admission body w.redis with
      | none =>
        have hclosed : ¬ p.Governed w r b sent uuid text := by
          rintro ⟨body', current', d, hv', ha', -⟩
          cases hv.symm.trans hv'
          rw [ha] at ha'
          cases ha'
        simp only [choose_of_not_admitted hrun ha, hclosed, hopen, false_and, and_false,
          exists_false, or_false]
      | some a =>
        obtain ⟨current', d⟩ := a
        rw [reply_of_admission ha]
        simp only [hopen, and_false, or_false, go_decision_iff]
        constructor
        · rintro ⟨rewritten, ⟨rfl, hd⟩, rfl, hpass⟩
          refine ⟨hpass, rfl, body, current', d, hv, ha, ?_⟩
          rcases hd with ⟨hallow, rfl⟩ | ⟨b', hmutate, hb', rfl⟩
          · exact .inl ⟨hallow, rfl⟩
          · exact .inr ⟨b', hmutate, hb', rfl⟩
        · rintro ⟨hpass, rfl, body', current'', d', hv', ha', hd⟩
          cases hv.symm.trans hv'
          cases ha.symm.trans ha'
          rcases hd with ⟨hallow, rfl⟩ | ⟨b', hmutate, hb', rfl⟩
          · exact ⟨none, ⟨rfl, .inl ⟨hallow, rfl⟩⟩, rfl, hpass⟩
          · exact ⟨some b', ⟨rfl, .inr ⟨b', hmutate, hb', rfl⟩⟩, rfl, hpass⟩

end Served

-- What the gateway checks of a request before it reaches the backend, with the ledger at `w`
-- when its precall is served.
def Cleared (w : World) (r : Request) (uuid runId : String) (text : List Char)
    (reservationId : Option String) : Prop :=
  ∃ b sent, r.runId = some runId ∧ r.body = some b ∧ p.precallBody runId r.step b = some sent ∧
    p.Passes r.path text ∧
      (reservationId = some uuid ∧ p.Governed w r b sent uuid text ∨
        reservationId = none ∧ Ungoverned w r sent text)

end Pipeline

namespace System

open Pipeline

variable {ι : Type} [DecidableEq ι] {p : Pipeline} {requests : ι → Request}

def Answered (p : Pipeline) (requests : ι → Request) (ls : List (Label ι)) (k : ι) (runId : String)
    (b : Json.Members) (reply : Reply) : Prop :=
  (requests k).runId = some runId ∧ (requests k).body = some b ∧
    (reply = .lost ∨ ∃ pre uuid post sent,
      ls = pre ++ .exchange k (.precall uuid true .served) :: post ∧
        p.precallBody runId (requests k).step b = some sent ∧
          reply = (p.serve (Trace.run (System.step p) (start requests) pre).world sent uuid).2)

def Mediated (p : Pipeline) (requests : ι → Request) (ls : List (Label ι)) (k : ι) : Phase → Prop
  | .awaiting runId b reply => Answered p requests ls k runId b reply
  | .forwarded runId text reservationId => ∃ pre uuid post,
      ls = pre ++ .exchange k (.precall uuid true .served) :: post ∧
        p.Cleared (Trace.run (System.step p) (start requests) pre).world (requests k) uuid runId
          text reservationId
  | _ => True

theorem Answered.snoc {ls : List (Label ι)} {k : ι} {runId : String} {b : Json.Members}
    {reply : Reply} (h : Answered p requests ls k runId b reply) (l : Label ι) :
    Answered p requests (ls ++ [l]) k runId b reply := by
  obtain ⟨hrun, hbody, hlost | ⟨pre, uuid, post, sent, rfl, hsent, hreply⟩⟩ := h
  · exact ⟨hrun, hbody, .inl hlost⟩
  · exact ⟨hrun, hbody, .inr ⟨pre, uuid, post ++ [l], sent, by simp, hsent, hreply⟩⟩

theorem Mediated.snoc {ls : List (Label ι)} {k : ι} {phase : Phase}
    (h : Mediated p requests ls k phase) (l : Label ι) :
    Mediated p requests (ls ++ [l]) k phase := by
  cases phase with
  | awaiting runId b reply => exact Answered.snoc h l
  | forwarded runId text reservationId =>
    obtain ⟨pre, uuid, post, rfl, hcleared⟩ := h
    exact ⟨pre, uuid, post ++ [l], by simp, hcleared⟩
  | arrived => trivial
  | posting report => trivial
  | closed verdict => trivial

theorem Mediated.step {ls : List (Label ι)} {k : ι} {x : Exchange}
    (hrequest : x.request = requests k) (h : Mediated p requests ls k x.phase) (event : Event) :
    let w := (Trace.run (System.step p) (start requests) ls).world
    (p.step w x event).2.request = requests k ∧
      Mediated p requests (ls ++ [.exchange k event]) k (p.step w x event).2.phase := by
  intro w
  have hstays : x.request = requests k ∧
      Mediated p requests (ls ++ [.exchange k event]) k x.phase := ⟨hrequest, h.snoc _⟩
  cases event with
  | precall uuid withinLimit delivery =>
    simp only [Pipeline.step]
    split
    · unfold Pipeline.sendPrecall
      split
      · rename_i runId b hrun hbody
        rw [hrequest] at hrun hbody
        split
        · rename_i sent hsent
          rw [hrequest] at hsent
          cases delivery with
          | dropped => exact ⟨hrequest, hrun, hbody, .inl rfl⟩
          | replyLost => exact ⟨hrequest, hrun, hbody, .inl rfl⟩
          | served => exact ⟨hrequest, hrun, hbody, .inr ⟨ls, uuid, [], sent, rfl, hsent, rfl⟩⟩
        · exact ⟨hrequest, trivial⟩
      · exact ⟨hrequest, trivial⟩
    · exact hstays
  | proceed identified limited =>
    simp only [Pipeline.step]
    split
    · rename_i runId b reply hphase
      rw [hphase] at h
      refine ⟨hrequest, ?_⟩
      cases hnext : p.proceed x.request runId b reply identified limited with
      | forwarded runId' text reservationId =>
        obtain ⟨hrun, hbody, hreply⟩ := h
        rw [hrequest, proceed_forwarded_iff] at hnext
        obtain ⟨rfl, -, -, rewritten, hgo, htext, hpass⟩ := hnext
        obtain ⟨pre, uuid, post, sent, rfl, hsent, rfl⟩ := hreply.resolve_left fun hlost =>
          (choose_granted hgo).1 hlost
        exact ⟨pre, uuid, post ++ [.exchange k (.proceed identified limited)], by simp, b, sent,
          hrun, hbody, hsent, serve_goes_iff.mp ⟨rewritten, hgo, htext, hpass⟩⟩
      | awaiting runId' b' reply' => exact (proceed_ne_awaiting hnext).elim
      | arrived => trivial
      | posting report => trivial
      | closed verdict => trivial
    · exact hstays
  | answer response =>
    simp only [Pipeline.step]
    split
    · exact ⟨hrequest, trivial⟩
    · exact hstays
  | deliver arrives =>
    simp only [Pipeline.step, Pipeline.deliver]
    split
    · split
      · exact ⟨hrequest, trivial⟩
      · exact ⟨hrequest, trivial⟩
    · exact hstays

theorem mediated_run (p : Pipeline) (requests : ι → Request) (ls : List (Label ι)) (k : ι) :
    ((Trace.run (System.step p) (start requests) ls).exchange k).request = requests k ∧
      Mediated p requests ls k
        ((Trace.run (System.step p) (start requests) ls).exchange k).phase := by
  induction ls using List.reverseRecOn with
  | nil => exact ⟨rfl, trivial⟩
  | append_singleton ls l ih =>
    rw [Trace.run_append]
    simp only [Trace.run_cons, Trace.run_nil]
    cases l with
    | exchange j event =>
      by_cases hj : k = j
      · subst hj
        simp only [System.step, Function.update_self]
        exact Mediated.step ih.1 ih.2 event
      · simp only [System.step, Function.update_of_ne hj]
        exact ⟨ih.1, ih.2.snoc _⟩
    | ledger op => exact ⟨ih.1, ih.2.snoc _⟩

def Label.Of (k : ι) : Label ι → Prop
  | .exchange j _ => j = k
  | .ledger _ => False

instance (k : ι) (l : Label ι) : Decidable (Label.Of k l) := by
  cases l <;> (unfold Label.Of; infer_instance)

theorem exchange_of_others {k : ι} {ls : List (Label ι)} (hls : ∀ l ∈ ls, ¬ Label.Of k l)
    (sys : System ι) : (Trace.run (System.step p) sys ls).exchange k = sys.exchange k := by
  induction ls generalizing sys with
  | nil => rfl
  | cons l ls ih =>
    rw [Trace.run_cons, ih fun j hj => hls j (List.mem_cons_of_mem l hj)]
    cases l with
    | exchange j event =>
      have hj : k ≠ j := fun h => hls _ List.mem_cons_self h.symm
      simp only [System.step, Function.update_of_ne hj]
    | ledger op => rfl

theorem asked_phase {r : Request} {w : World} {x : Exchange} (hrequest : x.request = r)
    (hphase : x.phase = .arrived) {uuid runId : String} {text : List Char}
    {reservationId : Option String} (w' : World) :
    (p.step w' (p.step w x (.precall uuid true .served)).2 (.proceed true true)).2.phase =
        .forwarded runId text reservationId ↔
      p.Cleared w r uuid runId text reservationId := by
  subst hrequest
  have hask : p.step w x (.precall uuid true .served) = p.sendPrecall w x uuid true .served := by
    simp only [Pipeline.step, hphase]
  rw [hask]
  cases hrun : x.request.runId with
  | none => simp [Pipeline.sendPrecall, Pipeline.step, Pipeline.Cleared, hrun]
  | some runId' =>
    cases hbody : x.request.body with
    | none => simp [Pipeline.sendPrecall, Pipeline.step, Pipeline.Cleared, hrun, hbody]
    | some b =>
      cases hsent : p.precallBody runId' x.request.step b with
      | none =>
        simp only [Pipeline.sendPrecall, Pipeline.step, hrun, hbody, hsent]
        refine iff_of_false (by simp) ?_
        rintro ⟨b', sent, hrun', hbody', hsent', -⟩
        cases hrun.symm.trans hrun'
        cases hbody.symm.trans hbody'
        rw [hsent] at hsent'
        cases hsent'
      | some sent =>
        simp only [Pipeline.sendPrecall, Pipeline.step, hrun, hbody, hsent, proceed_forwarded_iff,
          serve_goes_iff]
        constructor
        · rintro ⟨rfl, -, -, h⟩
          exact ⟨b, sent, hrun, hbody, hsent, h⟩
        · rintro ⟨b', sent', hrun', hbody', hsent', h⟩
          cases hrun.symm.trans hrun'
          cases hbody.symm.trans hbody'
          cases hsent.symm.trans hsent'
          exact ⟨rfl, trivial, trivial, h⟩

theorem forwarded_iff_cleared (p : Pipeline) (requests : ι → Request) (k : ι) (runId : String)
    (text : List Char) (reservationId : Option String) :
    (∀ ls, ((Trace.run (System.step p) (start requests) ls).exchange k).phase =
        .forwarded runId text reservationId →
      ∃ pre uuid post, ls = pre ++ .exchange k (.precall uuid true .served) :: post ∧
        p.Cleared (Trace.run (System.step p) (start requests) pre).world (requests k) uuid runId
          text reservationId) ∧
    ∀ pre mid uuid, (∀ l ∈ pre ++ mid, ¬ Label.Of k l) →
      (((Trace.run (System.step p) (start requests)
          (pre ++ .exchange k (.precall uuid true .served) :: mid ++
            [.exchange k (.proceed true true)])).exchange k).phase =
          .forwarded runId text reservationId ↔
        p.Cleared (Trace.run (System.step p) (start requests) pre).world (requests k) uuid runId
          text reservationId) := by
  constructor
  · intro ls hphase
    have h := (mediated_run p requests ls k).2
    rw [hphase] at h
    exact h
  · intro pre mid uuid hothers
    have hpre := exchange_of_others (p := p)
      (fun l hl => hothers l (List.mem_append_left mid hl)) (start requests)
    have hmid := exchange_of_others (p := p)
      (fun l hl => hothers l (List.mem_append_right pre hl))
      (System.step p (Trace.run (System.step p) (start requests) pre)
        (.exchange k (.precall uuid true .served)))
    simp only [List.append_assoc, List.cons_append, Trace.run_append, Trace.run_cons,
      Trace.run_nil]
    generalize hsys : Trace.run (System.step p) (start requests) pre = sys at *
    have hasked : (System.step p sys (.exchange k (.precall uuid true .served))).exchange k =
        (p.step sys.world (sys.exchange k) (.precall uuid true .served)).2 := by
      simp only [System.step, Function.update_self]
    simp only [System.step, Function.update_self] at hmid ⊢
    rw [hmid]
    exact asked_phase (by rw [hpre]; rfl) (by rw [hpre]; rfl) _

section Example

theorem forwarded_iff_cleared_unstored :
    ((Trace.run (System.step demoPipeline) (System.start demoRequests)
      ([] ++ .exchange true (.precall "u" true .served) :: [] ++
        [.exchange true (.proceed true true)])).exchange true).phase = .forwarded "a" [] none := by
  refine ((forwarded_iff_cleared demoPipeline demoRequests true "a" [] none).2 [] [] "u"
    (by simp)).mpr ?_
  refine ⟨[("model", .str "gpt"), ("messages", .str "why?")],
    { runId := "a", step := "1", model := some "gpt", estInputTokens := 1, maxOutputTokens := 1024,
      promptHash := "why?" }, rfl, rfl, by decide +kernel, by decide +kernel, .inr ⟨rfl, ?_, rfl⟩⟩
  exact fun body _ => rfl

end Example

end System

end Gateway
