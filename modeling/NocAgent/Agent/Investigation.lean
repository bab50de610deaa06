import NocAgent.Library.Gather
import NocAgent.Agent.Consent
import NocAgent.Agent.RunLedgerClient
import Mathlib.Data.Fintype.OfMap
import Mathlib.Data.List.Infix

namespace Agent.Investigation

open Coroutine RunLedger

inductive Exc where
  | permissionError (text : String)
  | fault (fault : Fault)

def Exc.text : Exc → String
  | .permissionError text => text
  | .fault raised => raised.text

def Exc.haltReason : Exc → Option String
  | .permissionError _ => none
  | .fault raised => extractRunHaltReason raised

inductive SpecialistKey where
  | foundryIq
  | fabricIq
  | webIq
  | workIq
  | rtiIq
deriving DecidableEq

namespace SpecialistKey

def name : SpecialistKey → String
  | foundryIq => "foundry_iq"
  | fabricIq => "fabric_iq"
  | webIq => "web_iq"
  | workIq => "work_iq"
  | rtiIq => "rti_iq"

def needsUserIdentity : SpecialistKey → Bool
  | foundryIq => false
  | fabricIq => true
  | webIq => false
  | workIq => true
  | rtiIq => true

def all : List SpecialistKey := [foundryIq, fabricIq, webIq, workIq, rtiIq]

theorem mem_all (key : SpecialistKey) : key ∈ all := by
  cases key <;> decide

instance : Fintype SpecialistKey := .ofList all mem_all

end SpecialistKey

abbrev PendingConsent := Option (String × Value)

structure Reply where
  body : Value
  outputText : String

-- How everything that one specialist call asks for ends: reserve is the precall with its decision,
-- report the usage event and the postcall after an answer.
structure SpecialistAnswers where
  disableDirectTopology : Bool
  topologyGraph : Except Exc (Option String)
  emitDirectUsage : Except Exc Unit
  available : Bool
  credential : String → Except Exc Unit
  reserve : Except Exc Unit
  construct : Except Exc Unit
  create : Except Exc Reply
  failedPostcall : Except Exc Unit
  close : Except Exc Unit
  report : Reply → Except Exc Unit

def unavailable (agentName : String) (exc : Exc) : String :=
  "(" ++ agentName ++ " is currently unavailable: " ++ exc.text ++ ")"

def signInFirst (agentName link : String) : String :=
  "(" ++ agentName ++ " requires the user to sign in first. Open this sign-in link: " ++ link ++ ")"

def noAnswer (agentName : String) : String := "(" ++ agentName ++ " returned no answer.)"

section CallSpecialist
variable (str : Value → String) (agentName : String) (key : SpecialistKey)
  (userToken : Option String) (a : SpecialistAnswers)

def directTopology : Coroutine PendingConsent Exc (Option String) :=
  if key = .fabricIq ∧ a.disableDirectTopology = false then
    exceptRaised
      (do
        match ← call a.topologyGraph with
        | none => return none
        | some answer =>
          if answer = "" then return none
          else
            call a.emitDirectUsage
            return some answer)
      fun _ => return none
  else return none

def authenticate : Except Exc Unit :=
  if key.needsUserIdentity then
    if truthy userToken then a.credential (userToken.getD "")
    else .error (.permissionError (key.name ++
      " requires the authorized user's delegated identity and consent; retry after sign-in"))
  else .ok ()

def prepare : Except Exc Unit := do
  if a.available then pure () else throw (.fault (.other key.name))
  authenticate key userToken a
  a.reserve
  a.construct

def createResponse : Coroutine PendingConsent Exc (String ⊕ Reply) :=
  ensure
    (exceptRaised
      (do return .inr (← call a.create))
      fun exc => do
        call a.failedPostcall
        if truthy exc.haltReason then raise exc
        else return .inl (unavailable agentName exc))
    (call a.close)

def conclude : String ⊕ Reply → Coroutine PendingConsent Exc String
  | .inl text => return text
  | .inr reply => do
    call (a.report reply)
    let consentUrl := reply.body.extractOauthConsentUrl
    if consentUrl.truthy then
      update fun _ => some (agentName, consentUrl)
      return signInFirst agentName (str consentUrl)
    else return orText reply.outputText (noAnswer agentName)

def callSpecialist : Coroutine PendingConsent Exc String := do
  match ← directTopology key a with
  | some directAnswer => return directAnswer
  | none =>
    call (prepare key userToken a)
    conclude str agentName a (← createResponse agentName a)

end CallSpecialist

inductive Status where
  | completed
  | consentRequired
  | unavailable
deriving DecidableEq

structure FamilyResult where
  status : Status
  agent : String
  provenance : String
  consentUrl : Option Value := none
  evidence : Option String := none

def marker : String := "currently unavailable:"

def mentions (text : String) : Bool := decide (marker.toList <:+: text.toList)

section Invoke
variable (str : Value → String) (agentName : String) (key : SpecialistKey)
  (userToken : Option String) (a : SpecialistAnswers)

def classify (pending : PendingConsent) (answer : String) : FamilyResult :=
  match pending with
  | some (_, consentUrl) =>
    { status := .consentRequired
      agent := agentName
      provenance := key.name
      consentUrl := some consentUrl }
  | none =>
    if mentions answer then
      { status := .unavailable, agent := agentName, provenance := key.name }
    else
      { status := .completed
        agent := agentName
        provenance := key.name
        evidence := some answer }

def rejected : Exc → FamilyResult
  | .permissionError _ =>
    { status := .consentRequired, agent := agentName, provenance := key.name }
  | .fault _ => { status := .unavailable, agent := agentName, provenance := key.name }

-- What _invoke does after it has cleared the pending consent.
def invoke : Coroutine PendingConsent Exc FamilyResult :=
  exceptRaised
    (do
      let answer ← callSpecialist str agentName key userToken a
      return classify agentName key (← read) answer)
    fun exc => return rejected agentName key exc

end Invoke

-- What one specialist has given, by what it was asked for and not by what the call returned.
inductive Outcome where
  | answer (text : String)
  | consent (link : Value) (text : String)
  | failed

def Reply.outcome (response : Reply) : Outcome :=
  if response.body.requestsConsent then
    .consent response.body.extractOauthConsentUrl response.outputText
  else .answer response.outputText

section Outcome
variable (key : SpecialistKey) (userToken : Option String) (a : SpecialistAnswers)

def directAnswer : Option String :=
  if key = .fabricIq ∧ a.disableDirectTopology = false then
    match a.topologyGraph with
    | .ok (some text) =>
      if text = "" then none
      else a.emitDirectUsage.toOption.map fun _ => text
    | _ => none
  else none

def reply : Except Exc Reply := do
  prepare key userToken a
  let response ← a.create
  a.close
  a.report response
  return response

def outcome : Outcome :=
  match directAnswer key a with
  | some text => .answer text
  | none =>
    match reply key userToken a with
    | .error _ => .failed
    | .ok response => response.outcome

end Outcome

section Runs
variable (str : Value → String) (agentName : String) (key : SpecialistKey)
  (userToken : Option String) (a : SpecialistAnswers) (pending : PendingConsent)

theorem directTopology_run :
    (directTopology key a).run pending = (.returned (directAnswer key a), pending) := by
  unfold directTopology directAnswer
  by_cases hdirect : key = .fabricIq ∧ a.disableDirectTopology = false
  · rw [if_pos hdirect, if_pos hdirect]
    rcases a.topologyGraph with exc | answer | text
    · rfl
    · rfl
    · by_cases htext : text = ""
      · simp only [exceptRaised, handle, run_bind, run_call, Exit.ofExcept, if_pos htext, run_pure]
      · simp only [exceptRaised, handle, run_bind, run_call, Exit.ofExcept, if_neg htext]
        cases a.emitDirectUsage with
        | ok u => rfl
        | error exc => rfl
  · rw [if_neg hdirect, if_neg hdirect]
    rfl

inductive Degraded (agentName : String) : Exit Exc (String ⊕ Reply) → Prop where
  | raised (exc : Exc) : Degraded agentName (.raised exc)
  | unavailable (exc : Exc) : Degraded agentName (.returned (.inl (unavailable agentName exc)))

theorem createResponse_of_error {exc : Exc} (hcreate : a.create = .error exc) :
    ∃ exit, (createResponse agentName a).run pending = (exit, pending) ∧
      Degraded agentName exit := by
  have hbody : (do return .inr (← call a.create) :
      Coroutine PendingConsent Exc (String ⊕ Reply)).run pending = (.raised exc, pending) := by
    rw [hcreate]
    rfl
  obtain ⟨exit, hdegrade, hexit⟩ : ∃ exit, (do
      call a.failedPostcall
      if truthy exc.haltReason then raise exc
      else return .inl (unavailable agentName exc) :
        Coroutine PendingConsent Exc (String ⊕ Reply)).run pending = (exit, pending) ∧
      Degraded agentName exit := by
    rw [run_bind, run_call]
    cases a.failedPostcall with
    | error failure => exact ⟨_, rfl, .raised failure⟩
    | ok u =>
      simp only [Exit.ofExcept]
      split_ifs
      · exact ⟨_, rfl, .raised exc⟩
      · exact ⟨_, rfl, .unavailable exc⟩
  rw [createResponse, exceptRaised, ensure_run ((handle_raised hbody).trans hdegrade), run_call]
  cases a.close with
  | ok u => exact ⟨_, rfl, hexit⟩
  | error failure => exact ⟨_, rfl, .raised failure⟩

theorem createResponse_of_ok {response : Reply} (hcreate : a.create = .ok response) :
    (createResponse agentName a).run pending =
      ((Exit.ofExcept a.close).map fun _ => .inr response, pending) := by
  have hbody : (do return .inr (← call a.create) :
      Coroutine PendingConsent Exc (String ⊕ Reply)).run pending =
        (.returned (.inr response), pending) := by
    rw [hcreate]
    rfl
  rw [createResponse, exceptRaised, ensure_run (handle_returned hbody), run_call]
  cases a.close <;> rfl

variable {str agentName key userToken a pending}

theorem bind_eq_ok {α β : Type} {first : Except Exc α} {next : α → Except Exc β}
    {value : β} :
    first >>= next = .ok value ↔ ∃ given, first = .ok given ∧ next given = .ok value := by
  cases first with
  | error exc => exact ⟨fun h => (nomatch h), fun ⟨_, h, _⟩ => (nomatch h)⟩
  | ok given =>
    exact ⟨fun h => ⟨given, rfl, h⟩, fun ⟨_, hgiven, h⟩ => Except.ok.inj hgiven ▸ h⟩

theorem reply_eq_ok {response : Reply} : reply key userToken a = .ok response ↔
    prepare key userToken a = .ok () ∧ a.create = .ok response ∧ a.close = .ok () ∧
      a.report response = .ok () := by
  have hreport (given : Reply) : (fun _ => given) <$> a.report given = .ok response ↔
      a.report given = .ok () ∧ given = response := by
    cases a.report given with
    | error exc => exact ⟨fun h => (nomatch h), fun ⟨h, _⟩ => (nomatch h)⟩
    | ok u => exact ⟨fun h => ⟨rfl, Except.ok.inj h⟩, fun ⟨_, h⟩ => congrArg _ h⟩
  simp only [reply, bind_eq_ok, bind_pure_comp, hreport]
  constructor
  · rintro ⟨⟨⟩, hprepare, given, hcreate, ⟨⟩, hclose, hgiven, rfl⟩
    exact ⟨hprepare, hcreate, hclose, hgiven⟩
  · rintro ⟨hprepare, hcreate, hclose, hgiven⟩
    exact ⟨(), hprepare, response, hcreate, (), hclose, hgiven, rfl⟩

theorem callSpecialist_of_direct {text : String} (hdirect : directAnswer key a = some text) :
    (callSpecialist str agentName key userToken a).run pending = (.returned text, pending) := by
  rw [callSpecialist, bind_returned (directTopology_run key a pending), hdirect]
  rfl

inductive Failed (agentName : String) : Exit Exc String → Prop where
  | raised (exc : Exc) : Failed agentName (.raised exc)
  | unavailable (exc : Exc) : Failed agentName (.returned (unavailable agentName exc))

theorem callSpecialist_of_error (hdirect : directAnswer key a = none) {exc : Exc}
    (hreply : reply key userToken a = .error exc) :
    ∃ exit, (callSpecialist str agentName key userToken a).run pending = (exit, pending) ∧
      Failed agentName exit := by
  rw [callSpecialist, bind_returned (directTopology_run key a pending), hdirect]
  simp only
  cases hprepare : prepare key userToken a with
  | error failure =>
    rw [bind_raised (call_error rfl)]
    exact ⟨_, rfl, .raised failure⟩
  | ok u =>
    rw [bind_returned (call_ok rfl)]
    cases hcreate : a.create with
    | error failure =>
      obtain ⟨exit, hrun, hexit⟩ := createResponse_of_error agentName a pending hcreate
      cases hexit with
      | raised failure =>
        rw [bind_raised hrun]
        exact ⟨_, rfl, .raised failure⟩
      | unavailable failure =>
        rw [bind_returned hrun]
        exact ⟨_, rfl, .unavailable failure⟩
    | ok response =>
      have hrun := createResponse_of_ok agentName a pending hcreate
      cases hclose : a.close with
      | error failure =>
        rw [hclose] at hrun
        rw [bind_raised hrun]
        exact ⟨_, rfl, .raised failure⟩
      | ok u =>
        rw [hclose] at hrun
        rw [bind_returned hrun, conclude]
        cases hreport : a.report response with
        | error failure =>
          rw [bind_raised (call_error rfl)]
          exact ⟨_, rfl, .raised failure⟩
        | ok u =>
          rw [reply_eq_ok.mpr ⟨hprepare, hcreate, hclose, hreport⟩] at hreply
          cases hreply

theorem callSpecialist_of_reply (str : Value → String) (agentName : String)
    (pending : PendingConsent) (hdirect : directAnswer key a = none) {response : Reply}
    (hreply : reply key userToken a = .ok response) :
    (callSpecialist str agentName key userToken a).run pending =
      if response.body.extractOauthConsentUrl.truthy then
        (.returned (signInFirst agentName (str response.body.extractOauthConsentUrl)),
          some (agentName, response.body.extractOauthConsentUrl))
      else (.returned (orText response.outputText (noAnswer agentName)), pending) := by
  rw [callSpecialist, bind_returned (directTopology_run key a pending), hdirect]
  simp only
  obtain ⟨hprepare, hcreate, hclose, hreport⟩ := reply_eq_ok.mp hreply
  have hrun := createResponse_of_ok agentName a pending hcreate
  rw [hclose] at hrun
  rw [bind_returned (call_ok hprepare), bind_returned hrun, conclude,
    bind_returned (call_ok hreport)]
  by_cases hlink : response.body.extractOauthConsentUrl.truthy = true
  · simp only [if_pos hlink]
    rfl
  · simp only [if_neg hlink]
    rfl

end Runs

namespace Outcome

def link : Outcome → Option Value
  | .consent link _ => if link.truthy then some link else none
  | _ => none

def shown (agentName : String) : Outcome → String
  | .answer text | .consent _ text => orText text (noAnswer agentName)
  | .failed => ""

def marked (agentName : String) : Outcome → Bool
  | .answer text => !mentions (orText text (noAnswer agentName))
  | .consent link text => !link.truthy && !mentions (orText text (noAnswer agentName))
  | .failed => false

structure Reported (o : Outcome) (agentName : String) (key : SpecialistKey)
    (item : FamilyResult) : Prop where
  agent : item.agent = agentName
  provenance : item.provenance = key.name
  status : item.status = .completed ↔ o.marked agentName = true
  consentUrl : item.consentUrl = o.link
  evidence : item.evidence = if o.marked agentName then some (o.shown agentName) else none

end Outcome

section Reports
variable {str : Value → String} {agentName : String} {key : SpecialistKey}
  {userToken : Option String} {a : SpecialistAnswers}

theorem mentions_unavailable (exc : Exc) : mentions (unavailable agentName exc) = true := by
  have hmiddle : " is currently unavailable: ".toList =
      " is ".toList ++ marker.toList ++ [' '] := by decide
  refine decide_eq_true
    ⟨("(" ++ agentName ++ " is ").toList, (" " ++ exc.text ++ ")").toList, ?_⟩
  simp only [unavailable, String.toList_append, hmiddle, List.append_assoc]
  rfl

theorem invoke_of_raised {exc : Exc} {pending : PendingConsent}
    (hcall : (callSpecialist str agentName key userToken a).run none = (.raised exc, pending)) :
    ((invoke str agentName key userToken a).run none).1 =
      .returned (rejected agentName key exc) := by
  rw [invoke, exceptRaised, handle_raised (bind_raised hcall)]
  rfl

theorem invoke_of_returned {answer : String} {pending : PendingConsent}
    (hcall : (callSpecialist str agentName key userToken a).run none =
      (.returned answer, pending)) :
    ((invoke str agentName key userToken a).run none).1 =
      .returned (classify agentName key pending answer) := by
  rw [invoke, exceptRaised, handle_returned ((bind_returned hcall).trans rfl)]

theorem reported_failed {exit : Exit Exc String} (hexit : Failed agentName exit)
    (hcall : (callSpecialist str agentName key userToken a).run none = (exit, none)) :
    ∃ item, ((invoke str agentName key userToken a).run none).1 = .returned item ∧
      Outcome.failed.Reported agentName key item := by
  cases hexit with
  | raised exc =>
    refine ⟨_, invoke_of_raised hcall, ?_⟩
    cases exc <;> exact ⟨rfl, rfl, by simp [rejected, Outcome.marked], rfl, rfl⟩
  | unavailable exc =>
    refine ⟨_, invoke_of_returned hcall, ?_⟩
    simp only [classify, mentions_unavailable, if_true]
    exact ⟨rfl, rfl, by simp [Outcome.marked], rfl, rfl⟩

theorem reported_shown {o : Outcome} (hlink : o.link = none)
    (hmarked : o.marked agentName = !mentions (o.shown agentName)) :
    o.Reported agentName key (classify agentName key none (o.shown agentName)) := by
  cases hmentions : mentions (o.shown agentName) with
  | true =>
    rw [hmentions] at hmarked
    simp only [classify, hmentions, if_true]
    exact ⟨rfl, rfl, by simp [hmarked], hlink.symm, by simp [hmarked]⟩
  | false =>
    rw [hmentions] at hmarked
    simp only [classify, hmentions, Bool.false_eq_true, if_false]
    exact ⟨rfl, rfl, by simp [hmarked], hlink.symm, by simp [hmarked]⟩

theorem directAnswer_ne_empty {text : String} (h : directAnswer key a = some text) :
    text ≠ "" := by
  unfold directAnswer at h
  split_ifs at h
  split at h
  · split_ifs at h with hempty
    obtain ⟨-, -, rfl⟩ := Option.map_eq_some_iff.mp h
    exact hempty
  · cases h

theorem reported_reply (hdirect : directAnswer key a = none) {response : Reply}
    (hreply : reply key userToken a = .ok response) :
    ∃ item, ((invoke str agentName key userToken a).run none).1 = .returned item ∧
      response.outcome.Reported agentName key item := by
  have hcall := callSpecialist_of_reply str agentName none hdirect hreply
  cases hlink : response.body.extractOauthConsentUrl.truthy with
  | true =>
    rw [if_pos hlink] at hcall
    refine ⟨_, invoke_of_returned hcall, ?_⟩
    rw [Reply.outcome, if_pos (Value.requestsConsent_of_link _ hlink)]
    exact ⟨rfl, rfl, by simp [classify, Outcome.marked, hlink],
      by simp [classify, Outcome.link, hlink], by simp [classify, Outcome.marked, hlink]⟩
  | false =>
    rw [if_neg (by simp [hlink])] at hcall
    refine ⟨_, invoke_of_returned hcall, ?_⟩
    rw [Reply.outcome]
    by_cases hrequest : response.body.requestsConsent = true
    · rw [if_pos hrequest]
      exact reported_shown
        (o := .consent response.body.extractOauthConsentUrl response.outputText)
        (by simp [Outcome.link, hlink]) (by simp [Outcome.marked, Outcome.shown, hlink])
    · rw [if_neg hrequest]
      exact reported_shown (o := .answer response.outputText) rfl rfl

theorem invoke_reported (str : Value → String) (agentName : String) (key : SpecialistKey)
    (userToken : Option String) (a : SpecialistAnswers) :
    ∃ item, ((invoke str agentName key userToken a).run none).1 = .returned item ∧
      (outcome key userToken a).Reported agentName key item := by
  unfold outcome
  cases hdirect : directAnswer key a with
  | some text =>
    have hshown : Outcome.shown agentName (.answer text) = text :=
      if_neg (directAnswer_ne_empty hdirect)
    refine ⟨_, invoke_of_returned (callSpecialist_of_direct hdirect), ?_⟩
    have hreported : (Outcome.answer text).Reported agentName key
        (classify agentName key none (Outcome.shown agentName (.answer text))) :=
      reported_shown rfl rfl
    rwa [hshown] at hreported
  | none =>
    cases hreply : reply key userToken a with
    | error exc =>
      obtain ⟨exit, hcall, hexit⟩ := callSpecialist_of_error hdirect hreply
      exact reported_failed hexit hcall
    | ok response => exact reported_reply hdirect hreply

end Reports

end Agent.Investigation
