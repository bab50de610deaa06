import NocAgent.Gateway.Pipeline
import Mathlib.Data.Set.Card

namespace Gateway

open RunLedger

structure System (ι : Type) where
  world : World
  exchange : ι → Exchange

inductive Label (ι : Type) where
  | exchange (k : ι) (event : Event)
  | ledger (op : Op)

namespace System
variable {ι : Type} [DecidableEq ι]

def start (requests : ι → Request) : System ι :=
  ⟨World.init, fun k => { request := requests k }⟩

def step (p : Pipeline) (sys : System ι) : Label ι → System ι
  | .exchange k event =>
    { world := (p.step sys.world (sys.exchange k) event).1
      exchange := Function.update sys.exchange k (p.step sys.world (sys.exchange k) event).2 }
  | .ledger op => { sys with world := sys.world.step p.service op }

-- Every call of the runs goes through the gateway, and nothing expires in the ledger meanwhile.
def Fair (sys : System ι) : Label ι → Prop
  | .exchange _ (.precall uuid _ _) => ∀ i ∈ sys.world.book.issued, i.reservationId ≠ uuid
  | .exchange _ _ => True
  | .ledger (.createRun _) => True
  | .ledger (.tick seconds) => Orderly sys.world (.tick seconds)
  | .ledger _ => False

def Holds (sys : System ι) (runId : String) (k : ι) : Prop :=
  (sys.exchange k).request.runId = some runId ∧ (sys.exchange k).granted ≠ none ∧
    (sys.exchange k).phase ≠ .closed .reported

end System

section Serve
variable {p : Pipeline} {w : World}

theorem answerTo_granted (svc : RunLedgerService) (body : PrecallRequest) (uuid : String)
    (s : Redis) :
    (answerTo (svc.precall body uuid s).2).granted =
      (svc.admission body s).map fun _ => uuid := by
  have hget : s.hgetall (runKey body.runId) = s.run body.runId := rfl
  cases hrun : s.run body.runId with
  | none =>
    simp only [RunLedgerService.precall, RunLedgerService.admission, hget, hrun]
    rfl
  | some current =>
    cases hd : svc.decideOn body current (svc.promptHashes s body.runId) with
    | error e =>
      simp only [RunLedgerService.precall, RunLedgerService.admission, hget, hrun, hd]
      cases e <;> rfl
    | ok d =>
      simp only [RunLedgerService.precall, RunLedgerService.admission, hget, hrun, hd]
      split_ifs <;> rfl

theorem answerTo_admits {svc : RunLedgerService} {body : PrecallRequest} {uuid : String}
    {s : Redis} {r : PrecallResponse} (h : answerTo (svc.precall body uuid s).2 = .decision r) :
    r.reservationId ≠ none ↔ r.action.admits = true := by
  have hget : s.hgetall (runKey body.runId) = s.run body.runId := rfl
  cases hrun : s.run body.runId with
  | none =>
    simp only [RunLedgerService.precall, hget, hrun] at h
    cases h
  | some current =>
    cases hd : svc.decideOn body current (svc.promptHashes s body.runId) with
    | error e =>
      simp only [RunLedgerService.precall, hget, hrun, hd] at h
      cases e <;> cases h
    | ok d =>
      simp only [RunLedgerService.precall, hget, hrun, hd] at h
      split_ifs at h with ha <;> cases h
      · exact iff_of_true (by simp [RunLedgerService.precallResponse]) ha
      · exact iff_of_false (by simp [RunLedgerService.precallResponse]) ha

theorem choose_granted {b : Json.Members} {reply : Reply} {rewritten : Option Json.Members}
    {reservationId : Option String} (h : p.choose b reply = .go rewritten reservationId) :
    reply ≠ .lost ∧ reservationId = reply.granted := by
  cases reply with
  | decision r =>
    refine ⟨by simp, ?_⟩
    unfold Pipeline.choose at h
    cases ha : r.action <;> simp only [ha] at h
    · cases h
      rfl
    · cases hm : mutateBody p.nt (responseMembers r) b with
      | none =>
        simp only [hm] at h
        cases h
      | some b' =>
        simp only [hm] at h
        cases h
        rfl
    · cases h
    · cases h
  | rejected =>
    cases h
    exact ⟨by simp, rfl⟩
  | crashed => cases h
  | lost => cases h

theorem choose_stop {b : Json.Members} {reply : Reply} {verdict : Verdict}
    (h : p.choose b reply = .stop verdict) :
    verdict = .faulted ∨ (verdict = .halted ∨ verdict = .queued) ∧
      ∃ r, reply = .decision r ∧ r.action.admits = false := by
  cases reply with
  | decision r =>
    unfold Pipeline.choose at h
    cases ha : r.action <;> simp only [ha] at h
    · cases h
    · cases hm : mutateBody p.nt (responseMembers r) b with
      | none =>
        simp only [hm] at h
        cases h
        exact .inl rfl
      | some b' =>
        simp only [hm] at h
        cases h
    · cases h
      exact .inr ⟨.inr rfl, r, rfl, by rw [ha]; rfl⟩
    · cases h
      exact .inr ⟨.inl rfl, r, rfl, by rw [ha]; rfl⟩
  | rejected => cases h
  | crashed =>
    cases h
    exact .inl rfl
  | lost =>
    cases h
    exact .inl rfl

theorem precallBody_runId {runId step : String} {b : Json.Members} {sent : PrecallBody}
    (h : p.precallBody runId step b = some sent) : sent.runId = runId := by
  simp only [Pipeline.precallBody, Option.bind_eq_bind, Option.bind_eq_some_iff] at h
  obtain ⟨model, -, cap, -, hsent⟩ := h
  cases hsent
  rfl

theorem PrecallBody.validated_runId {sent : PrecallBody} {body : PrecallRequest}
    (h : sent.validated = some body) : body.runId = sent.runId := by
  unfold PrecallBody.validated at h
  split at h
  · cases h
  · split_ifs at h
    cases h
    rfl

theorem PostcallBody.validated_some {sent : PostcallBody} {body : PostcallRequest}
    (h : sent.validated = some body) :
    body.runId = sent.runId ∧ sent.reservationId = some body.reservationId := by
  unfold PostcallBody.validated at h
  split at h
  · cases h
  · rename_i id hid
    split_ifs at h
    cases h
    exact ⟨rfl, hid⟩

theorem usageReport_ids {runId : String} {reservationId : Option String} {r : Json.Members}
    {report : PostcallBody} (h : p.usageReport runId reservationId r = some report) :
    report.runId = runId ∧ report.reservationId = reservationId := by
  simp only [Pipeline.usageReport, Option.bind_eq_bind, Option.bind_eq_some_iff] at h
  obtain ⟨input, -, output, -, model, -, hreport⟩ := h
  cases hreport
  exact ⟨rfl, rfl⟩

theorem answered_ids (runId : String) (reservationId : Option String)
    (response : Option (Option Json.Members)) :
    ∃ report, p.answered runId reservationId response = .posting report ∧
      report.runId = runId ∧ report.reservationId = reservationId := by
  refine ⟨_, rfl, ?_⟩
  cases hr : response.join.bind (p.usageReport runId reservationId) with
  | none => exact ⟨rfl, rfl⟩
  | some report =>
    obtain ⟨r, -, hreport⟩ := Option.bind_eq_some_iff.mp hr
    exact usageReport_ids hreport

end Serve

namespace Exchange

def Coherent (x : Exchange) : Prop :=
  match x.phase with
  | .arrived => x.granted = none
  | .awaiting runId _ reply => x.request.runId = some runId ∧
      (reply ≠ .lost → reply.granted = x.granted) ∧
        ∀ r, reply = .decision r → (r.reservationId ≠ none ↔ r.action.admits = true)
  | .forwarded runId _ reservationId => x.request.runId = some runId ∧ reservationId = x.granted
  | .posting report =>
    x.request.runId = some report.runId ∧ report.reservationId = x.granted
  | .closed verdict =>
    (verdict = .unsent ∨ verdict = .halted ∨ verdict = .queued) → x.granted = none

-- What a step of the exchange does to the ledger: nothing, a precall, or a postcall that
-- reports the reservation it holds.
inductive Moves (p : Pipeline) (w : World) (x : Exchange) : Event → World → Exchange → Prop
  | stays {event : Event} {x' : Exchange} (hrequest : x'.request = x.request)
      (hgranted : x'.granted = x.granted)
      (hphase : x'.phase = .closed .reported ↔ x.phase = .closed .reported) :
    Moves p w x event w x'
  | asks {uuid : String} {withinLimit : Bool} {delivery : Delivery} {x' : Exchange}
      (body : PrecallRequest) (hnone : x.granted = none) (hopen : x.phase ≠ .closed .reported)
      (hrequest : x'.request = x.request) (hrun : x.request.runId = some body.runId)
      (hphase : x'.phase ≠ .closed .reported)
      (hgranted : x'.granted = (p.service.admission body w.redis).map fun _ => uuid) :
    Moves p w x (.precall uuid withinLimit delivery) (w.step p.service (.precall body uuid)) x'
  | reports {event : Event} (body : PostcallRequest) (hopen : x.phase ≠ .closed .reported)
      (hrun : x.request.runId = some body.runId)
      (hgranted : x.granted = some body.reservationId) :
    Moves p w x event (w.step p.service (.postcall body)) { x with phase := .closed .reported }

section Step
variable {p : Pipeline} {w : World} {x : Exchange}

theorem coherent_proceed (hx : x.Coherent) {runId : String} {b : Json.Members} {reply : Reply}
    (hphase : x.phase = .awaiting runId b reply) (identified limited : Bool) :
    Coherent { x with phase := p.proceed x.request runId b reply identified limited } ∧
      p.proceed x.request runId b reply identified limited ≠ .closed .reported := by
  simp only [Coherent, hphase] at hx
  obtain ⟨hrun, hreply, hadmits⟩ := hx
  cases hc : p.choose b reply with
  | stop verdict =>
    have hproceed : p.proceed x.request runId b reply identified limited = .closed verdict := by
      simp only [Pipeline.proceed, hc]
    rw [hproceed]
    rcases choose_stop hc with rfl | ⟨hv, r, rfl, hr⟩
    · exact ⟨fun h => by simp at h, by simp⟩
    · have hnone : x.granted = none := by
        rw [← hreply (by simp)]
        by_contra hsome
        rw [(hadmits r rfl).mp hsome] at hr
        cases hr
      exact ⟨fun _ => hnone, by rcases hv with rfl | rfl <;> simp⟩
  | go rewritten reservationId =>
    obtain ⟨hlost, hid⟩ := choose_granted hc
    have hgranted : reservationId = x.granted := hid.trans (hreply hlost)
    simp only [Pipeline.proceed, hc]
    split_ifs
    · exact ⟨⟨hrun, hgranted⟩, by simp⟩
    · exact ⟨⟨hrun, hgranted⟩, by simp⟩
    · exact ⟨⟨hrun, hgranted⟩, by simp⟩
    · exact ⟨fun h => by simp at h, by simp⟩

theorem coherent_answered (hx : x.Coherent) {runId : String} {text : List Char}
    {reservationId : Option String} (hphase : x.phase = .forwarded runId text reservationId)
    (response : Option (Option Json.Members)) :
    Coherent { x with phase := p.answered runId reservationId response } ∧
      p.answered runId reservationId response ≠ .closed .reported := by
  simp only [Coherent, hphase] at hx
  obtain ⟨report, hreport, hrunId, hid⟩ := answered_ids (p := p) runId reservationId response
  rw [hreport]
  refine ⟨⟨?_, ?_⟩, by simp⟩
  · rw [hrunId]
    exact hx.1
  · exact hid.trans hx.2

theorem serve_moves (hnone : x.granted = none) {runId : String}
    (hrun : x.request.runId = some runId)
    {step : String} {b : Json.Members} {sent : PrecallBody}
    (hsent : p.precallBody runId step b = some sent) {uuid : String} {withinLimit : Bool}
    {delivery : Delivery} {reply : Reply} (hopen : x.phase ≠ .closed .reported)
    (hreply : reply = .lost ∨ reply = (p.serve w sent uuid).2) :
    Coherent { x with
      phase := .awaiting runId b reply, granted := (p.serve w sent uuid).2.granted } ∧
    x.Moves p w (.precall uuid withinLimit delivery) (p.serve w sent uuid).1 { x with
      phase := .awaiting runId b reply, granted := (p.serve w sent uuid).2.granted } := by
  cases hv : sent.validated with
  | none =>
    simp only [Pipeline.serve, hv] at hreply ⊢
    refine ⟨⟨hrun, fun hlost => ?_, fun r hr => ?_⟩, .stays rfl hnone.symm ?_⟩
    · rw [hreply.resolve_left hlost]
    · rcases hreply with rfl | rfl <;> cases hr
    · exact iff_of_false (by simp) hopen
  | some body =>
    have hbody : body.runId = runId :=
      (PrecallBody.validated_runId hv).trans (precallBody_runId hsent)
    simp only [Pipeline.serve, hv] at hreply ⊢
    refine ⟨⟨hrun, fun hlost => ?_, fun r hr => ?_⟩, .asks body hnone hopen rfl ?_ (by simp) ?_⟩
    · rw [hreply.resolve_left hlost]
    · rcases hreply with rfl | rfl
      · cases hr
      · exact answerTo_admits hr
    · rw [hbody]
      exact hrun
    · exact answerTo_granted ..

theorem sendPrecall_moves (hnone : x.granted = none) (hopen : x.phase ≠ .closed .reported)
    (uuid : String) (withinLimit : Bool) (delivery : Delivery) :
    (p.sendPrecall w x uuid withinLimit delivery).2.Coherent ∧
      x.Moves p w (.precall uuid withinLimit delivery)
        (p.sendPrecall w x uuid withinLimit delivery).1
        (p.sendPrecall w x uuid withinLimit delivery).2 := by
  have hunsent : Coherent { x with phase := .closed .unsent } ∧
      x.Moves p w (.precall uuid withinLimit delivery) w { x with phase := .closed .unsent } :=
    ⟨fun _ => hnone, .stays rfl rfl (iff_of_false (by simp) hopen)⟩
  unfold Pipeline.sendPrecall
  split
  · rename_i runId b hrun hbody
    split
    · rename_i sent hsent
      cases delivery with
      | dropped =>
        refine ⟨⟨hrun, fun h => absurd rfl h, fun r hr => ?_⟩, .stays rfl rfl ?_⟩
        · cases hr
        · exact iff_of_false (by simp) hopen
      | replyLost => exact serve_moves hnone hrun hsent hopen (.inl rfl)
      | served => exact serve_moves hnone hrun hsent hopen (.inr rfl)
    · exact hunsent
  · exact hunsent

theorem deliver_moves (hx : x.Coherent) {report : PostcallBody} (hphase : x.phase = .posting report)
    (event : Event) (arrives : Bool) :
    Coherent { x with phase := (p.deliver w report arrives).2 } ∧
      x.Moves p w event (p.deliver w report arrives).1
        { x with phase := (p.deliver w report arrives).2 } := by
  have hopen : x.phase ≠ .closed .reported := by
    rw [hphase]
    simp
  simp only [Coherent, hphase] at hx
  unfold Pipeline.deliver
  split
  · rename_i body hbody
    obtain ⟨hrunId, hid⟩ := PostcallBody.validated_some hbody
    refine ⟨fun h => by simp at h, .reports body hopen ?_ ?_⟩
    · rw [hrunId]
      exact hx.1
    · rw [← hx.2, hid]
  · exact ⟨fun h => by simp at h, .stays rfl rfl (iff_of_false (by simp) hopen)⟩

theorem step_moves (hx : x.Coherent) (event : Event) :
    (p.step w x event).2.Coherent ∧
      x.Moves p w event (p.step w x event).1 (p.step w x event).2 := by
  have hidle : x.Coherent ∧ x.Moves p w event w x := ⟨hx, .stays rfl rfl Iff.rfl⟩
  cases event with
  | precall uuid withinLimit delivery =>
    simp only [Pipeline.step]
    split
    · rename_i hphase
      have hnone : x.granted = none := by simpa only [Coherent, hphase] using hx
      exact sendPrecall_moves hnone (by rw [hphase]; simp) uuid withinLimit delivery
    · exact hidle
  | proceed identified limited =>
    simp only [Pipeline.step]
    split
    · rename_i runId b reply hphase
      obtain ⟨hc, hopen⟩ := coherent_proceed (p := p) hx hphase identified limited
      refine ⟨hc, .stays rfl rfl (iff_of_false hopen ?_)⟩
      rw [hphase]
      simp
    · exact hidle
  | answer response =>
    simp only [Pipeline.step]
    split
    · rename_i runId text reservationId hphase
      obtain ⟨hc, hopen⟩ := coherent_answered (p := p) hx hphase response
      refine ⟨hc, .stays rfl rfl (iff_of_false hopen ?_)⟩
      rw [hphase]
      simp
    · exact hidle
  | deliver arrives =>
    simp only [Pipeline.step]
    split
    · rename_i report hphase
      exact deliver_moves hx hphase _ arrives
    · exact hidle

end Step

end Exchange

namespace System
variable {ι : Type} {p : Pipeline}

-- The reservations of the book are the ones granted to the exchanges, each to one of them, and
-- one is outstanding as long as its exchange has not reported it.
structure Tracked (p : Pipeline) (sys : System ι) : Prop where
  counted : Counted p.service sys.world
  coherent : ∀ k, (sys.exchange k).Coherent
  issued : ∀ k id, (sys.exchange k).granted = some id →
    ∃ i ∈ sys.world.book.issued, i.reservationId = id ∧
      (sys.exchange k).request.runId = some i.runId
  outstanding : ∀ k id, (sys.exchange k).granted = some id →
    (sys.world.book.outstanding id = none ↔ (sys.exchange k).phase = .closed .reported)
  covered : ∀ i ∈ sys.world.book.issued, ∃ k, (sys.exchange k).granted = some i.reservationId
  distinct : ∀ j k id, (sys.exchange j).granted = some id →
    (sys.exchange k).granted = some id → j = k

theorem Tracked.start (p : Pipeline) (requests : ι → Request) :
    (System.start requests).Tracked p where
  counted := Counted.init
  coherent _ := rfl
  issued _ _ h := by cases h
  outstanding _ _ h := by cases h
  covered _ h := by cases h
  distinct _ _ _ h := by cases h

section Step
variable {sys sys' : System ι}

theorem Tracked.of_same (h : sys.Tracked p) (hcounted : Counted p.service sys'.world)
    (hissued : sys'.world.book.issued = sys.world.book.issued)
    (hout : ∀ id, sys'.world.book.outstanding id = sys.world.book.outstanding id)
    (hcoherent : ∀ k, (sys'.exchange k).Coherent)
    (hrequest : ∀ k, (sys'.exchange k).request = (sys.exchange k).request)
    (hgranted : ∀ k, (sys'.exchange k).granted = (sys.exchange k).granted)
    (hphase : ∀ k, (sys'.exchange k).phase = .closed .reported ↔
      (sys.exchange k).phase = .closed .reported) : sys'.Tracked p where
  counted := hcounted
  coherent := hcoherent
  issued k id hk := by
    rw [hissued, hrequest]
    exact h.issued k id (hgranted k ▸ hk)
  outstanding k id hk := by
    rw [hout, hphase]
    exact h.outstanding k id (hgranted k ▸ hk)
  covered i hi := by
    obtain ⟨k, hk⟩ := h.covered i (hissued ▸ hi)
    exact ⟨k, (hgranted k).trans hk⟩
  distinct j k id hj hk := h.distinct j k id (hgranted j ▸ hj) (hgranted k ▸ hk)

theorem Tracked.granted_ne (h : sys.Tracked p) {uuid : String}
    (hfresh : ∀ i ∈ sys.world.book.issued, i.reservationId ≠ uuid) {k : ι} {id : String}
    (hk : (sys.exchange k).granted = some id) : id ≠ uuid := by
  obtain ⟨i, hi, rfl, -⟩ := h.issued k id hk
  exact hfresh i hi

variable [DecidableEq ι]

theorem coherent_update (h : sys.Tracked p) {x : Exchange} (hx : x.Coherent) (k j : ι) :
    (Function.update sys.exchange k x j).Coherent := by
  by_cases hj : j = k
  · subst hj
    rwa [Function.update_self]
  · rw [Function.update_of_ne hj]
    exact h.coherent j

theorem Tracked.asks (h : sys.Tracked p) {k : ι} {x : Exchange} {body : PrecallRequest}
    {uuid : String} (hfresh : ∀ i ∈ sys.world.book.issued, i.reservationId ≠ uuid)
    (hnone : (sys.exchange k).granted = none) (hx : x.Coherent)
    (hrequest : x.request = (sys.exchange k).request)
    (hrun : (sys.exchange k).request.runId = some body.runId)
    (hphase : x.phase ≠ .closed .reported) (hold : (sys.exchange k).phase ≠ .closed .reported)
    (hgranted : x.granted =
      (p.service.admission body sys.world.redis).map fun _ => uuid) :
    Tracked p ⟨sys.world.step p.service (.precall body uuid),
      Function.update sys.exchange k x⟩ := by
  have hcoherent := coherent_update h hx k
  have hcounted := h.counted.precall body hfresh
  cases ha : p.service.admission body sys.world.redis with
  | none =>
    rw [ha] at hgranted
    rw [World.step_precall_none ha] at hcounted ⊢
    refine h.of_same hcounted rfl (fun _ => rfl) hcoherent (fun j => ?_) (fun j => ?_) fun j => ?_
    all_goals
      by_cases hj : j = k
      · subst hj
        simp only [Function.update_self]
        first
          | exact hrequest
          | exact hgranted.trans hnone.symm
          | exact iff_of_false hphase hold
      · simp only [Function.update_of_ne hj]
  | some a =>
    obtain ⟨current, d⟩ := a
    rw [ha] at hgranted
    rw [World.step_precall_some ha] at hcounted ⊢
    have hout := Book.outstanding_issue (b := sys.world.book)
      (i := ⟨uuid, body.runId, body.model, d.reserveMicros⟩) hfresh h.counted.refines.settled
    refine ⟨hcounted, hcoherent, fun j id hj => ?_, fun j id hj => ?_, fun i hi => ?_,
      fun j l id hj hl => ?_⟩
    · by_cases hjk : j = k
      · subst hjk
        simp only [Function.update_self] at hj ⊢
        cases hgranted.symm.trans hj
        exact ⟨_, List.mem_cons_self, rfl, by rw [hrequest, hrun]⟩
      · simp only [Function.update_of_ne hjk] at hj ⊢
        obtain ⟨i, hi, hid, hirun⟩ := h.issued j id hj
        exact ⟨i, List.mem_cons_of_mem _ hi, hid, hirun⟩
    · simp only [hout]
      by_cases hjk : j = k
      · subst hjk
        simp only [Function.update_self] at hj ⊢
        cases hgranted.symm.trans hj
        exact iff_of_false (by simp) hphase
      · simp only [Function.update_of_ne hjk] at hj ⊢
        rw [if_neg (h.granted_ne hfresh hj)]
        exact h.outstanding j id hj
    · rcases List.mem_cons.mp hi with rfl | hi
      · exact ⟨k, by simp only [Function.update_self]; exact hgranted⟩
      · obtain ⟨j, hj⟩ := h.covered i hi
        have hjk : j ≠ k := by
          rintro rfl
          rw [hnone] at hj
          cases hj
        exact ⟨j, by simpa only [Function.update_of_ne hjk] using hj⟩
    · by_cases hjk : j = k <;> by_cases hlk : l = k
      · rw [hjk, hlk]
      · subst hjk
        simp only [Function.update_self, Function.update_of_ne hlk] at hj hl
        cases hgranted.symm.trans hj
        exact absurd rfl (h.granted_ne hfresh hl)
      · subst hlk
        simp only [Function.update_self, Function.update_of_ne hjk] at hj hl
        cases hgranted.symm.trans hl
        exact absurd rfl (h.granted_ne hfresh hj)
      · simp only [Function.update_of_ne hjk, Function.update_of_ne hlk] at hj hl
        exact h.distinct j l id hj hl

theorem Tracked.reports (h : sys.Tracked p) {k : ι} {x : Exchange} {body : PostcallRequest}
    (hx : x.Coherent) (hrequest : x.request = (sys.exchange k).request)
    (hsame : x.granted = (sys.exchange k).granted) (hphase : x.phase = .closed .reported)
    (hrun : (sys.exchange k).request.runId = some body.runId)
    (hgranted : (sys.exchange k).granted = some body.reservationId) :
    Tracked p ⟨sys.world.step p.service (.postcall body),
      Function.update sys.exchange k x⟩ := by
  have hname : ∀ i ∈ sys.world.book.issued, i.reservationId = body.reservationId →
      i.runId = body.runId := by
    intro i hi hid
    obtain ⟨i', hi', hid', hrun'⟩ := h.issued k _ hgranted
    rw [hrun] at hrun'
    cases List.inj_on_of_nodup_map h.counted.distinct hi hi' (hid.trans hid'.symm)
    exact (Option.some.inj hrun').symm
  have hissued : (sys.world.book.report body).issued = sys.world.book.issued :=
    Book.report_issued body
  have hout := Book.outstanding_report (b := sys.world.book) body
  refine ⟨h.counted.postcall body hname, coherent_update h hx k, fun j id hj => ?_,
    fun j id hj => ?_, fun i hi => ?_, fun j l id hj hl => ?_⟩
  · change ∃ i ∈ (sys.world.book.report body).issued, _
    rw [hissued]
    by_cases hjk : j = k
    · subst hjk
      simp only [Function.update_self] at hj ⊢
      rw [hrequest]
      exact h.issued j id (hsame ▸ hj)
    · simp only [Function.update_of_ne hjk] at hj ⊢
      exact h.issued j id hj
  · change (sys.world.book.report body).outstanding id = none ↔ _
    rw [hout]
    by_cases hjk : j = k
    · subst hjk
      simp only [Function.update_self] at hj ⊢
      rw [hsame, hgranted] at hj
      cases hj
      exact iff_of_true (if_pos rfl) hphase
    · simp only [Function.update_of_ne hjk] at hj ⊢
      have hid : id ≠ body.reservationId := by
        rintro rfl
        exact hjk (h.distinct j k _ hj hgranted)
      rw [if_neg hid]
      exact h.outstanding j id hj
  · change i ∈ (sys.world.book.report body).issued at hi
    obtain ⟨j, hj⟩ := h.covered i (hissued ▸ hi)
    refine ⟨j, ?_⟩
    by_cases hjk : j = k
    · subst hjk
      simp only [Function.update_self]
      exact hsame.trans hj
    · simpa only [Function.update_of_ne hjk] using hj
  · have hsameAt : ∀ j,
        (Function.update sys.exchange k x j).granted = (sys.exchange j).granted := by
      intro j
      by_cases hjk : j = k
      · subst hjk
        rw [Function.update_self, hsame]
      · rw [Function.update_of_ne hjk]
    exact h.distinct j l id ((hsameAt j).symm.trans hj) ((hsameAt l).symm.trans hl)

theorem Tracked.step (h : sys.Tracked p) {l : Label ι} (hf : sys.Fair l) :
    (sys.step p l).Tracked p := by
  cases l with
  | exchange k event =>
    obtain ⟨hx, hmoves⟩ := Exchange.step_moves (p := p) (w := sys.world) (h.coherent k) event
    simp only [System.step]
    revert hx hmoves
    generalize p.step sys.world (sys.exchange k) event = next
    obtain ⟨w', x'⟩ := next
    rintro hx hmoves
    cases hmoves with
    | stays hrequest hgranted hphase =>
      refine h.of_same h.counted rfl (fun _ => rfl) (coherent_update h hx k) (fun j => ?_)
        (fun j => ?_) fun j => ?_
      all_goals
        by_cases hj : j = k
        · subst hj
          simpa only [Function.update_self]
        · simp only [Function.update_of_ne hj]
    | asks body hnone hopen hrequest hrun hphase hgranted =>
      exact h.asks hf hnone hx hrequest hrun hphase hopen hgranted
    | reports body hopen hrun hgranted => exact h.reports hx rfl rfl rfl hrun hgranted
  | ledger op =>
    cases op with
    | createRun body =>
      have hcounted := h.counted.step (show Lasting sys.world (.createRun body) from trivial) trivial
      exact h.of_same hcounted (Book.begin_issued body)
        (Book.outstanding_congr (Book.begin_issued body) (Book.begin_settled body)) h.coherent
        (fun _ => rfl) (fun _ => rfl) fun _ => Iff.rfl
    | precall body uuid => exact hf.elim
    | postcall body => exact hf.elim
    | tick seconds =>
      have hcounted := h.counted.step (show Lasting sys.world (.tick seconds) from hf) trivial
      exact h.of_same hcounted rfl (fun _ => rfl) h.coherent
        (fun _ => rfl) (fun _ => rfl) fun _ => Iff.rfl

theorem Tracked.run {requests : ι → Request} {ls : List (Label ι)}
    (hf : Trace.Along (System.step p) Fair (System.start requests) ls) :
    (Trace.run (System.step p) (System.start requests) ls).Tracked p :=
  Trace.invariant (fun _ _ h hf => h.step hf) (Tracked.start p requests) hf

end Step

section Holders
variable {sys : System ι}

theorem outstanding_ne_none_iff {b : Book} {id : String} :
    b.outstanding id ≠ none ↔ b.isSettled id = false ∧ ∃ i ∈ b.issued, i.reservationId = id := by
  rw [Book.outstanding]
  split_ifs with hs
  · simp [hs]
  · simp only [ne_eq, List.find?_eq_none, not_forall]
    simp [hs]

def openIssues (b : Book) (runId : String) : List Issue :=
  b.issued.filter fun i => i.runId = runId ∧ b.isSettled i.reservationId = false

theorem Tracked.image_holders (h : sys.Tracked p) (R : String) :
    (fun k => (sys.exchange k).granted) '' {k | sys.Holds R k} =
      (((openIssues sys.world.book R).map fun i => some i.reservationId).toFinset :
        Set (Option String)) := by
  ext a
  simp only [Set.mem_image, Set.mem_ofPred_eq, List.coe_toFinset, List.mem_map, openIssues,
    List.mem_filter, decide_eq_true_eq]
  constructor
  · rintro ⟨k, ⟨hrun, hgranted, hphase⟩, rfl⟩
    obtain ⟨id, hid⟩ := Option.ne_none_iff_exists'.mp hgranted
    obtain ⟨i, hi, rfl, hirun⟩ := h.issued k id hid
    have hopen := (h.outstanding k _ hid).not.mpr hphase
    refine ⟨i, ⟨hi, ?_, (outstanding_ne_none_iff.mp hopen).1⟩, hid.symm⟩
    rw [hrun] at hirun
    exact (Option.some.inj hirun).symm
  · rintro ⟨i, ⟨hi, rfl, hsettled⟩, rfl⟩
    obtain ⟨k, hk⟩ := h.covered i hi
    obtain ⟨i', hi', hid, hirun⟩ := h.issued k _ hk
    cases List.inj_on_of_nodup_map h.counted.distinct hi hi' hid.symm
    refine ⟨k, ⟨hirun, by rw [hk]; simp, ?_⟩, hk⟩
    exact (h.outstanding k _ hk).not.mp (outstanding_ne_none_iff.mpr ⟨hsettled, i, hi, rfl⟩)

theorem Tracked.openCalls_eq (h : sys.Tracked p) (R : String) :
    sys.world.book.openCalls R = {k | sys.Holds R k}.ncard := by
  have hinj : Set.InjOn (fun k => (sys.exchange k).granted) {k | sys.Holds R k} := by
    rintro j ⟨-, hj, -⟩ k - hjk
    obtain ⟨id, hid⟩ := Option.ne_none_iff_exists'.mp hj
    exact h.distinct j k id hid (hjk.symm.trans hid)
  have hnodup : ((openIssues sys.world.book R).map fun i => some i.reservationId).Nodup := by
    have hsub : (openIssues sys.world.book R).Sublist sys.world.book.issued :=
      List.filter_sublist
    have hids := h.counted.distinct.sublist (hsub.map Issue.reservationId)
    have hmap := hids.map (Option.some_injective String)
    rw [List.map_map] at hmap
    exact hmap
  rw [← hinj.ncard_image, h.image_holders, Set.ncard_coe_finset,
    List.toFinset_card_of_nodup hnodup, List.length_map, Book.openCalls,
    List.countP_eq_length_filter, openIssues]

theorem Tracked.ended (h : sys.Tracked p) {R : String} {k : ι} {verdict : Verdict}
    (hk : sys.Holds R k) (hphase : (sys.exchange k).phase = .closed verdict) :
    verdict = .faulted ∨ verdict = .refused ∨ verdict = .unreported := by
  obtain ⟨-, hgranted, hopen⟩ := hk
  have hx := h.coherent k
  simp only [Exchange.Coherent, hphase] at hx
  cases verdict with
  | unsent => exact absurd (hx (.inl rfl)) hgranted
  | halted => exact absurd (hx (.inr (.inl rfl))) hgranted
  | queued => exact absurd (hx (.inr (.inr rfl))) hgranted
  | faulted => exact .inl rfl
  | refused => exact .inr (.inl rfl)
  | reported => exact absurd hphase hopen
  | unreported => exact .inr (.inr rfl)

theorem step_closed [DecidableEq ι] {k : ι} {verdict : Verdict}
    (hk : (sys.exchange k).phase = .closed verdict) (l : Label ι) :
    (sys.step p l).exchange k = sys.exchange k := by
  cases l with
  | exchange j event =>
    by_cases hj : k = j
    · subst hj
      simp only [System.step, Function.update_self]
      cases event <;> simp only [Pipeline.step, hk]
    · simp only [System.step, Function.update_of_ne hj]
  | ledger op => rfl

end Holders

theorem concurrent_counts_holders [DecidableEq ι] (p : Pipeline) {requests : ι → Request}
    {ls : List (Label ι)}
    (hf : Trace.Along (System.step p) Fair (System.start requests) ls) :
    Trace.Always (System.step p)
        (fun sys =>
          (∀ R run, sys.world.redis.run R = some run →
            toInt run.concurrent = {k | sys.Holds R k}.ncard) ∧
          ∀ R k verdict, sys.Holds R k → (sys.exchange k).phase = .closed verdict →
            verdict = .faulted ∨ verdict = .refused ∨ verdict = .unreported)
        (System.start requests) ls ∧
      ∀ pre post, ls = pre ++ post → ∀ R k verdict,
        ((Trace.run (System.step p) (System.start requests) pre).exchange k).phase =
            .closed verdict →
          (Trace.run (System.step p) (System.start requests) pre).Holds R k →
            (Trace.run (System.step p) (System.start requests) ls).Holds R k := by
  constructor
  · rintro pre post rfl
    have h := Tracked.run ((Trace.along_append _ pre post).mp hf).1
    refine ⟨fun R run hrun => ?_, fun R k verdict => h.ended⟩
    rw [h.counted.concurrent hrun, h.openCalls_eq]
  · rintro pre post rfl R k verdict hclosed hholds
    have hstep : ∀ (sys : System ι) (l : Label ι), sys.exchange k =
        (Trace.run (System.step p) (System.start requests) pre).exchange k → True →
          (sys.step p l).exchange k =
            (Trace.run (System.step p) (System.start requests) pre).exchange k :=
      fun sys l hsys _ => (step_closed (by rw [hsys]; exact hclosed) l).trans hsys
    have hkept := Trace.invariant hstep rfl (Trace.along_trivial _ post)
    rw [Trace.run_append, Holds, hkept]
    exact hholds

section Example

def demoPipeline : Pipeline where
  api := .openai
  nt := demoNewtonsoft
  hash := id
  allowed := ["gpt"]
  service := demoService

def demoRequest (deployment : String) : Request where
  runId := some "a"
  step := "1"
  path := ("/openai/deployments/" ++ deployment ++ "/chat").toList
  text := []
  body := some [("model", .str "gpt"), ("messages", .str "why?")]

def demoRequests : Bool → Request
  | true => demoRequest "gpt"
  | false => demoRequest "grok"

def bothCalls : List (Label Bool) :=
  [.ledger (.createRun demoRun), .exchange true (.precall "u" true .served),
    .exchange false (.precall "v" true .served), .exchange true (.proceed true true),
    .exchange false (.proceed true true), .exchange true (.answer (some (some []))),
    .exchange true (.deliver true)]

theorem concurrent_counts_holders_refused :
    ∃ run, (Trace.run (System.step demoPipeline) (System.start demoRequests)
        bothCalls).world.redis.run "a" = some run ∧
      toInt run.concurrent = 1 ∧
      {k | (Trace.run (System.step demoPipeline) (System.start demoRequests) bothCalls).Holds
        "a" k}.ncard = 1 := by
  have hfair : Trace.Along (System.step demoPipeline) Fair (System.start demoRequests)
      bothCalls := by
    refine ⟨trivial, ?_, ?_, trivial, trivial, trivial, trivial, trivial⟩
    all_goals
      simp only [Fair]
      decide +kernel
  have hone : ((Trace.run (System.step demoPipeline) (System.start demoRequests)
      bothCalls).world.redis.run "a").map (fun run => toInt run.concurrent) = some 1 := by
    decide +kernel
  obtain ⟨run, hrun, hone⟩ := Option.map_eq_some_iff.mp hone
  have hcount := ((concurrent_counts_holders demoPipeline hfair).1 bothCalls []
    (List.append_nil _).symm).1 "a" run hrun
  rw [hone] at hcount
  exact ⟨run, hrun, hone, by exact_mod_cast hcount.symm⟩

end Example

end System

end Gateway
