import NocAgent.Agent.Investigation

namespace Agent.Investigation

open RunLedger

structure Incident where
  incidentId : String
  detectedAt : String
  authorizedUserId : String
  contextUserId : String
  maxConcurrency : ℤ := 3
  eventDetail : String := ""

namespace Incident
variable (i : Incident)

def safeIncidentId : String := Text.strip i.incidentId

def detailContext : String :=
  if Text.strip i.eventDetail = "" then ""
  else " Detection detail: " ++ Text.strip i.eventDetail ++ "."

def prompt : String :=
  "Investigate detected incident " ++ i.safeIncidentId ++ " at " ++ i.detectedAt ++ "." ++
    i.detailContext ++
    " Return only evidence relevant to your specialist family, with source provenance. " ++
    "Do not send messages or change resources."

def delegatedToken (exchange : Except Exc (Option String)) : Except Exc String := do
  if i.authorizedUserId = "" ∨ i.contextUserId ≠ i.authorizedUserId then
    throw (.permissionError
      "The resumed conversation does not match the subscribed authorized user")
  let token ← exchange
  if truthy token then pure () else
    throw (.permissionError
      "Automatic investigation requires the subscribed user's delegated identity and pre-consent")
  if i.safeIncidentId = "" then throw (.fault (.other "incident_id is required"))
  return token.getD ""

end Incident

-- The five specialists of one investigation, and the consent left pending by the turn that it
-- runs in.
structure Specialists where
  agentName : SpecialistKey → String
  answers : SpecialistKey → String → SpecialistAnswers
  str : Value → String
  pending : PendingConsent

inductive Completion where
  | completed
  | retryRequired
deriving DecidableEq

structure Result where
  incidentId : String
  detectedAt : String
  status : Completion
  families : List (SpecialistKey × FamilyResult)
  provenance : List String
  consentUrl : Option Value
  consentAgent : Option String
  response : Option String := none

abbrev Tasks := Gather.State SpecialistKey PendingConsent (Exit Exc FamilyResult)

def gathered (tasks : Tasks) : Option (List (SpecialistKey × FamilyResult)) :=
  SpecialistKey.all.mapM fun key =>
    match tasks.task key with
    | .ended (.returned item) => some (key, item)
    | _ => none

def consentItem (families : List (SpecialistKey × FamilyResult)) : Option FamilyResult :=
  (families.map Prod.snd).find? fun item =>
    item.status = .consentRequired && item.consentUrl.any Value.truthy

section Investigate
variable (sp : Specialists) (i : Incident) (userToken : String)

def work (key : SpecialistKey) (pending : PendingConsent) :
    Exit Exc FamilyResult × PendingConsent :=
  (invoke sp.str (sp.agentName key) key (some userToken) (sp.answers key i.prompt)).run pending

def advance : Tasks → SpecialistKey → Tasks := Gather.step (fun _ => none) (work sp i userToken)

def fanOut (schedule : List SpecialistKey) : Tasks :=
  Trace.run (advance sp i userToken) (Gather.create (max 1 i.maxConcurrency).toNat sp.pending)
    schedule

def report (families : List (SpecialistKey × FamilyResult)) : Result where
  incidentId := i.safeIncidentId
  detectedAt := i.detectedAt
  status := if families.all (·.2.status = .completed) then .completed else .retryRequired
  families := families
  provenance := SpecialistKey.all.map sp.agentName
  consentUrl := (consentItem families).bind (·.consentUrl)
  consentAgent := (consentItem families).map (·.agent)

def synthesised (synthesize : Result → Except Exc String) (result : Result) :
    Except Exc Result :=
  if result.status = .completed then do
    return { result with response := some (← synthesize result) }
  else return result

-- None where a specialist has not ended yet.
def investigateDetectedIncident (exchange : Except Exc (Option String))
    (synthesize : Result → Except Exc String) (schedule : List SpecialistKey) :
    Option (Except Exc Result) :=
  match i.delegatedToken exchange with
  | .error exc => some (.error exc)
  | .ok token =>
    (gathered (fanOut sp i token schedule)).map fun families =>
      synthesised synthesize (report sp i families)

end Investigate

-- The activities sent to the subscribed conversation, and whether the incident counts as handled.
def handleDetectedIncident (investigation : Except Exc Result) :
    Except Exc (List String × Bool) := do
  let result ← investigation
  if result.status ≠ .completed then return ([], false)
  else return ([result.response.getD ""], true)

namespace Outcome

def Answered : Outcome → Prop
  | .answer text => text ≠ ""
  | _ => False

-- A real answer is not taken for a failure, nor a missing one or a request without its link for an
-- answer.
def Honest (agentName : String) : Outcome → Prop
  | .answer text =>
    if text = "" then mentions (noAnswer agentName) = true else mentions text = false
  | .consent link text => link.truthy = true ∨ mentions (orText text (noAnswer agentName)) = true
  | .failed => True

theorem marked_iff_answered_iff (agentName : String) (o : Outcome) :
    (o.marked agentName = true ↔ o.Answered) ↔ o.Honest agentName := by
  cases o with
  | answer text =>
    by_cases htext : text = ""
    · simp [marked, Answered, Honest, orText, htext]
    · simp [marked, Answered, Honest, orText, htext]
  | consent link text =>
    cases hlink : link.truthy with
    | true => simp [marked, Answered, Honest, hlink]
    | false => simp [marked, Answered, Honest, hlink]
  | failed => simp [marked, Answered, Honest]

end Outcome

section Families
variable (sp : Specialists) (i : Incident) (userToken : String)

def given (key : SpecialistKey) : Outcome :=
  outcome key (some userToken) (sp.answers key i.prompt)

structure Attributed (key : SpecialistKey) (item : FamilyResult) : Prop where
  agent : item.agent = sp.agentName key
  provenance : item.provenance = key.name
  completed : item.status = .completed ↔ (given sp i userToken key).Answered
  consentUrl : item.consentUrl = (given sp i userToken key).link
  evidence : ∀ text, item.evidence = some text →
    text = (given sp i userToken key).shown (sp.agentName key)

structure Told (families : List (SpecialistKey × FamilyResult)) : Prop where
  each : families.map Prod.fst = SpecialistKey.all
  attributed : ∀ family ∈ families, Attributed sp i userToken family.1 family.2
  status : (report sp i families).status = .completed ↔
    ∀ family ∈ families, family.2.status = .completed
  consent : ∀ link, (report sp i families).consentUrl = some link → ∃ key,
    (given sp i userToken key).link = some link ∧
      (report sp i families).consentAgent = some (sp.agentName key)
  notified : ∀ synthesize sent,
    handleDetectedIncident (synthesised synthesize (report sp i families)) = .ok sent →
      (sent.2 = true ↔ ∀ family ∈ families, family.2.status = .completed) ∧
      (sent.2 = false → sent.1 = [])

structure Investigated (schedule : List SpecialistKey) : Prop where
  completes : ∃ more, (fanOut sp i userToken (schedule ++ more)).Complete
  calledOnce : (fanOut sp i userToken schedule).Complete →
    ∀ key, (fanOut sp i userToken schedule).started.count key = 1
  told : (fanOut sp i userToken schedule).Complete → ∃ families,
    gathered (fanOut sp i userToken schedule) = some families ∧
      (∀ exchange synthesize, i.delegatedToken exchange = .ok userToken →
        investigateDetectedIncident sp i exchange synthesize schedule =
          some (synthesised synthesize (report sp i families))) ∧
      Told sp i userToken families

end Families

section Run
variable {sp : Specialists} {i : Incident} {userToken : String}

theorem permits_pos (m : ℤ) : 0 < (max 1 m).toNat := by omega

theorem ordered_fanOut (sp : Specialists) (i : Incident) (userToken : String)
    (schedule : List SpecialistKey) :
    Gather.Ordered (max 1 i.maxConcurrency).toNat sp.pending (fun _ => none)
      (work sp i userToken) (fanOut sp i userToken schedule) :=
  Gather.ordered_create.run schedule

theorem gathered_eq {tasks : Tasks}
    (h : Gather.Ordered (max 1 i.maxConcurrency).toNat sp.pending (fun _ => none)
      (work sp i userToken) tasks) (hdone : tasks.Complete) :
    ∃ item : SpecialistKey → FamilyResult,
      (∀ key, (given sp i userToken key).Reported (sp.agentName key) key (item key)) ∧
        gathered tasks = some (SpecialistKey.all.map fun key => (key, item key)) := by
  choose item hreturned hreported using fun key =>
    invoke_reported sp.str (sp.agentName key) key (some userToken) (sp.answers key i.prompt)
  refine ⟨item, hreported, ?_⟩
  have htask (key : SpecialistKey) : tasks.task key = .ended (.returned (item key)) := by
    rw [h.results hdone key, ← hreturned key]
    rfl
  simp only [gathered, htask]
  rfl

theorem report_status_iff (sp : Specialists) (i : Incident)
    (families : List (SpecialistKey × FamilyResult)) :
    (report sp i families).status = .completed ↔
      ∀ family ∈ families, family.2.status = .completed := by
  unfold report
  simp only
  split_ifs with hall
  · simpa using hall
  · simpa using hall

theorem attributed_iff {key : SpecialistKey} {item : FamilyResult}
    (h : (given sp i userToken key).Reported (sp.agentName key) key item) :
    Attributed sp i userToken key item ↔
      (given sp i userToken key).Honest (sp.agentName key) := by
  rw [← Outcome.marked_iff_answered_iff]
  constructor
  · intro hattributed
    rw [← h.status]
    exact hattributed.completed
  · intro hhonest
    refine ⟨h.agent, h.provenance, h.status.trans hhonest, h.consentUrl, fun text htext => ?_⟩
    rw [h.evidence] at htext
    split_ifs at htext
    exact (Option.some.inj htext).symm

theorem consent_attributed {item : SpecialistKey → FamilyResult}
    (h : ∀ key, (given sp i userToken key).Reported (sp.agentName key) key (item key))
    {link : Value}
    (hlink : (report sp i (SpecialistKey.all.map fun key => (key, item key))).consentUrl =
      some link) : ∃ key, (given sp i userToken key).link = some link ∧
        (report sp i (SpecialistKey.all.map fun key => (key, item key))).consentAgent =
          some (sp.agentName key) := by
  obtain ⟨found, hfound, hurl⟩ := Option.bind_eq_some_iff.mp hlink
  have hmem := List.mem_of_find?_eq_some hfound
  simp only [List.map_map, List.mem_map] at hmem
  obtain ⟨key, -, rfl⟩ := hmem
  refine ⟨key, (h key).consentUrl ▸ hurl, ?_⟩
  simp only [report, hfound, Option.map_some, Function.comp, (h key).agent]

theorem notified_iff {families : List (SpecialistKey × FamilyResult)}
    {synthesize : Result → Except Exc String} {sent : List String × Bool}
    (hsent : handleDetectedIncident (synthesised synthesize (report sp i families)) = .ok sent) :
    (sent.2 = true ↔ ∀ family ∈ families, family.2.status = .completed) ∧
      (sent.2 = false → sent.1 = []) := by
  rw [← report_status_iff sp i]
  unfold synthesised at hsent
  by_cases hstatus : (report sp i families).status = .completed
  · rw [if_pos hstatus] at hsent
    cases hsynthesize : synthesize (report sp i families) with
    | error exc =>
      rw [hsynthesize] at hsent
      cases hsent
    | ok text =>
      rw [hsynthesize] at hsent
      have hhandled : (.ok ([text], true) : Except Exc _) = .ok sent := by
        rw [← hsent]
        exact (if_neg (not_not.mpr hstatus)).symm
      cases hhandled
      exact ⟨iff_of_true rfl hstatus, fun h => by cases h⟩
  · rw [if_neg hstatus] at hsent
    have hhandled : (.ok ([], false) : Except Exc (List String × Bool)) = .ok sent := by
      rw [← hsent]
      exact (if_pos hstatus).symm
    cases hhandled
    exact ⟨iff_of_false Bool.false_ne_true hstatus, fun _ => rfl⟩

theorem investigated_of_honest
    (h : ∀ key, (given sp i userToken key).Honest (sp.agentName key))
    (schedule : List SpecialistKey) : Investigated sp i userToken schedule := by
  have hordered := ordered_fanOut sp i userToken schedule
  refine ⟨?_, fun hdone key => ?_, fun hdone => ?_⟩
  · obtain ⟨more, hmore⟩ := hordered.completes (permits_pos _)
    exact ⟨more, by rwa [fanOut, Trace.run_append]⟩
  · exact List.count_eq_one_of_mem hordered.once (hordered.all_started hdone key)
  · obtain ⟨item, hreported, hgathered⟩ := gathered_eq hordered hdone
    refine ⟨_, hgathered, fun exchange synthesize htoken => ?_, ?_, fun family hfamily => ?_,
      report_status_iff sp i _, fun link hlink => ?_, fun _ _ hsent => notified_iff hsent⟩
    · simp only [investigateDetectedIncident, htoken, hgathered, Option.map_some]
    · rw [List.map_map]
      exact List.map_id _
    · obtain ⟨key, -, rfl⟩ := List.mem_map.mp hfamily
      exact (attributed_iff (hreported key)).mpr (h key)
    · exact consent_attributed hreported hlink

theorem honest_of_investigated (h : ∀ schedule, Investigated sp i userToken schedule)
    (key : SpecialistKey) : (given sp i userToken key).Honest (sp.agentName key) := by
  obtain ⟨schedule, hdone⟩ := (h []).completes
  rw [List.nil_append] at hdone
  obtain ⟨item, hreported, hgathered⟩ :=
    gathered_eq (ordered_fanOut sp i userToken schedule) hdone
  obtain ⟨families, hfamilies, -, htold⟩ := (h schedule).told hdone
  obtain rfl := Option.some.inj (hgathered.symm.trans hfamilies)
  exact (attributed_iff (hreported key)).mp
    (htold.attributed (key, item key) (List.mem_map_of_mem key.mem_all))

theorem five_real_answers_iff (sp : Specialists) (i : Incident) (userToken : String) :
    (∀ schedule, Investigated sp i userToken schedule) ↔
      ∀ key, (given sp i userToken key).Honest (sp.agentName key) :=
  ⟨honest_of_investigated, investigated_of_honest⟩

def answering (outputText : String) : SpecialistAnswers where
  disableDirectTopology := false
  topologyGraph := .ok none
  emitDirectUsage := .ok ()
  available := true
  credential _ := .ok ()
  reserve := .ok ()
  construct := .ok ()
  create := .ok { body := .none, outputText := outputText }
  failedPostcall := .ok ()
  close := .ok ()
  report _ := .ok ()

def silentWeb : Specialists where
  agentName key := "noc-" ++ key.name ++ "-agent"
  answers key _ := answering (if key = .webIq then "" else key.name ++ " evidence")
  str _ := ""
  pending := none

def opticalLoss : Incident where
  incidentId := "INC-001"
  detectedAt := "2026-09-16T12:00:00Z"
  authorizedUserId := "authorized-user"
  contextUserId := "authorized-user"
  eventDetail := "Optical loss on LINK-SYD-MEL-FIBRE-01"

theorem empty_answer_counts_as_evidence :
    ¬ ∀ schedule, Investigated silentWeb opticalLoss "token" schedule := by
  intro h
  have hhonest := honest_of_investigated h .webIq
  have hmentions : mentions (noAnswer "noc-web_iq-agent") = false := by decide +kernel
  have hweb : mentions (noAnswer "noc-web_iq-agent") = true := hhonest
  rw [hmentions] at hweb
  cases hweb

end Run

end Agent.Investigation
