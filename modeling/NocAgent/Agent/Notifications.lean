import NocAgent.Library.Comprehension
import NocAgent.Library.Dict
import NocAgent.Library.Json
import NocAgent.Library.Text

namespace Notifications
open Text Comprehension

inductive Persona where
  | executives
  | technical
  | venue
  | partners
deriving DecidableEq

def Persona.name : Persona → String
  | executives => "executives"
  | technical => "technical"
  | venue => "venue"
  | partners => "partners"

def personas : List Persona := [.executives, .technical, .venue, .partners]

def Persona.recipientsEnv : Persona → String
  | executives => "NOTIFY_EXECUTIVES_EMAILS"
  | technical => "NOTIFY_TECHNICAL_EMAILS"
  | venue => "NOTIFY_VENUE_EMAILS"
  | partners => "NOTIFY_PARTNER_EMAILS"

def Persona.allowedFields : Persona → List String
  | executives => ["LifecycleStage", "ServiceName", "CustomerFacingImpactCount", "CurrentStatus",
      "BusinessImpactSummary", "ETR"]
  | technical => ["LifecycleStage", "ServiceName", "IncidentId", "RootCauseSummary",
      "TelemetrySummary", "ActionSummary", "RunbookReference"]
  | venue => ["LifecycleStage", "VenueName", "VenueImpactDescription", "ETR"]
  | partners => ["LifecycleStage", "ServiceId", "ServiceName", "IncidentId", "SLAStatus"]

inductive Piece where
  | text (text : String)
  | field (name : String)

structure Section where
  subject : List Piece
  body : List Piece

-- The persona's section of customer_communication_template.md.
def extractPersonaSection : Persona → Section
  | .executives =>
    { subject := [.text "[", .field "LifecycleStage", .text "] ", .field "ServiceName",
        .text " incident — business impact summary"]
      body := [.field "CustomerFacingImpactCount",
        .text " customer(s)/service(s) affected. Current status:\n", .field "CurrentStatus",
        .text ". Business impact: ", .field "BusinessImpactSummary", .text ". ETR:\n",
        .field "ETR", .text (". Full technical detail is not included in this summary — " ++
          "see the NOC\nchannel for the live incident thread.")] }
  | .technical =>
    { subject := [.text "[", .field "LifecycleStage", .text "] ", .field "ServiceName",
        .text " — ", .field "IncidentId", .text " — technical detail"]
      body := [.field "RootCauseSummary", .text "\n\nTelemetry: ", .field "TelemetrySummary",
        .text "\nRemediation steps taken/in progress: ", .field "ActionSummary",
        .text "\nRunbook reference: ", .field "RunbookReference"] }
  | .venue =>
    { subject := [.text "[", .field "LifecycleStage", .text "] Service notice — ",
        .field "VenueName"]
      body := [.text "This notice is scoped to ", .field "VenueName", .text " only. ",
        .field "VenueImpactDescription", .text ".\nEstimated resolution: ", .field "ETR",
        .text (". Contact NOC at noc@telco.example.com with\n" ++
          "questions specific to this site.")] }
  | .partners =>
    { subject := [.text "[", .field "LifecycleStage", .text "] ", .field "ServiceName",
        .text " — SLA/contractual notice — ", .field "IncidentId"]
      body := [.text "Per our service agreement, this is a ", .field "LifecycleStage",
        .text " notice for\n", .field "ServiceId", .text ". SLA status: ", .field "SLAStatus",
        .text (". No internal telemetry or root-cause\n" ++
          "detail is included per the partner-tier restricted content policy — see\n" ++
          "`agent/notifications.py`'s `PERSONAS[\"partners\"]` field allow-list.")] }

structure Message where
  subject : String
  contentType : String
  content : String
  toRecipients : List String
  ccRecipients : List String
  saveToSentItems : Bool

structure Request where
  url : String
  authorization : String
  message : Message

structure Response where
  statusCode : ℕ
  text : String

inductive HttpError where
  | transport (message : String)
  | timeout
deriving DecidableEq

structure World where
  unicode : Unicode
  str : Json → String
  env : String → Option String
  post : Persona → Request → Except HttpError Response

structure Update where
  context : Dict Json
  graphToken : String
  ccRecipients : List String

structure Attempt where
  persona : Persona
  request : Request

section Send
variable (w : World) (update : Update)

def vformat (safe : String → Option Json) (pieces : List Piece) : String :=
  String.join (pieces.map fun
    | .text text => text
    | .field name => match safe name with
      | some value => w.str value
      | none => "\x7b" ++ name ++ "\x7d")

def renderPersonaMessage (persona : Persona) : String × String :=
  let safe name := if name ∈ persona.allowedFields then update.context.lookup name else none
  let template := extractPersonaSection persona
  (vformat w safe template.subject, vformat w safe template.body)

def recipientsFor (persona : Persona) : List String :=
  let raw := (w.env persona.recipientsEnv).getD ""
  (((raw.toList.splitOn ',').map w.unicode.strip).filter (· ≠ [])).map String.ofList

def request (persona : Persona) : Request where
  url := "https://graph.microsoft.com/v1.0/me/sendMail"
  authorization := "Bearer " ++ update.graphToken
  message :=
    { subject := (renderPersonaMessage w update persona).1
      contentType := "Text"
      content := (renderPersonaMessage w update persona).2
      toRecipients := recipientsFor w persona
      ccRecipients := update.ccRecipients
      saveToSentItems := true }

def sendPersonaEmail (persona : Persona) : List Attempt × Except HttpError Bool :=
  if recipientsFor w persona = [] then ([], .ok false)
  else
    let request := request w update persona
    match w.post persona request with
    | .error e => ([⟨persona, request⟩], .error e)
    | .ok response => ([⟨persona, request⟩], .ok (response.statusCode = 202))

def broadcast (requested : List Persona) : List Attempt × Except HttpError (Dict Bool) :=
  let targets := if requested = [] then personas else requested
  let sent := collect (sendPersonaEmail w update) targets
  (sent.1, sent.2.map fun results =>
    .setAll ∅ (results.map fun result => (result.1.name, result.2)))

def attemptsFor (persona : Persona) : List Attempt :=
  if recipientsFor w persona = [] then [] else [⟨persona, request w update persona⟩]

def Accepted (persona : Persona) : Prop :=
  recipientsFor w persona ≠ [] ∧
    ∃ response, w.post persona (request w update persona) = .ok response ∧ response.statusCode = 202

def Raises (persona : Persona) : Prop :=
  recipientsFor w persona ≠ [] ∧ ∃ e, w.post persona (request w update persona) = .error e

structure ReachesEveryone (requested : List Persona) : Prop where
  attempted : ∀ persona ∈ requested, recipientsFor w persona ≠ [] →
    ((broadcast w update requested).1.map (·.persona)).count persona = 1
  reported : ∃ results, (broadcast w update requested).2 = .ok results ∧ ∀ persona ∈ requested,
    ∃ sent, results.lookup persona.name = some sent ∧ (sent = true ↔ Accepted w update persona)

end Send

section Reports
variable {w : World} {update : Update} {requested : List Persona}

theorem name_injective : Function.Injective Persona.name := by
  intro p q h
  cases p <;> cases q <;> first | rfl | exact absurd h (by decide)

theorem send_raises {persona : Persona} {e : HttpError} (hrecipients : recipientsFor w persona ≠ [])
    (h : w.post persona (request w update persona) = .error e) :
    sendPersonaEmail w update persona = ([⟨persona, request w update persona⟩], .error e) := by
  rw [sendPersonaEmail, if_neg hrecipients]
  simp only [h]

open Classical in
theorem send_settles {persona : Persona} (h : ¬ Raises w update persona) :
    sendPersonaEmail w update persona =
      (attemptsFor w update persona, .ok (decide (Accepted w update persona))) := by
  rw [sendPersonaEmail, attemptsFor, Accepted]
  split_ifs with hrecipients
  · simp [hrecipients]
  · cases hpost : w.post persona (request w update persona) with
    | error e => exact absurd ⟨hrecipients, e, hpost⟩ h
    | ok response => simp [hpost, hrecipients]

theorem broadcast_eq (hrequested : requested ≠ []) :
    broadcast w update requested =
      ((collect (sendPersonaEmail w update) requested).1,
        (collect (sendPersonaEmail w update) requested).2.map fun results =>
          .setAll ∅ (results.map fun result => (result.1.name, result.2))) := by
  rw [broadcast, if_neg hrequested]

theorem map_attemptsFor (requested : List Persona) :
    (requested.flatMap (attemptsFor w update)).map (·.persona) =
      requested.filter (recipientsFor w · ≠ []) := by
  induction requested with
  | nil => rfl
  | cons persona rest ih =>
    rw [List.flatMap_cons, List.map_append, ih, attemptsFor]
    split_ifs with hrecipients
    · rw [List.filter_cons_of_neg (by simpa using hrecipients)]
      rfl
    · rw [List.filter_cons_of_pos (by simpa using hrecipients)]
      rfl

theorem reported_lookup {persona : Persona} {sent : Persona → Bool} (hdistinct : requested.Nodup)
    (hmem : persona ∈ requested) :
    (Dict.setAll ∅ ((requested.map fun p => (p, sent p)).map fun result =>
      (result.1.name, result.2))).lookup persona.name = some (sent persona) := by
  refine Dict.lookup_setAll_of_mem ?_ ?_
  · rw [List.map_map, List.map_map]
    exact hdistinct.map name_injective
  · rw [List.map_map]
    exact List.mem_map_of_mem hmem

theorem reaches_everyone_iff (hrequested : requested ≠ []) (hdistinct : requested.Nodup) :
    ReachesEveryone w update requested ↔ ∀ persona ∈ requested, ¬ Raises w update persona := by
  constructor
  · rintro ⟨-, results, hresults, -⟩ persona hmem ⟨hrecipients, e, he⟩
    rw [broadcast_eq hrequested] at hresults
    cases hcollect : (collect (sendPersonaEmail w update) requested).2 with
    | error e' =>
      rw [hcollect] at hresults
      cases hresults
    | ok out =>
      obtain ⟨sent, hsent⟩ := work_of_collect_ok hcollect persona hmem
      rw [send_raises hrecipients he] at hsent
      cases hsent
  · intro hquiet
    classical
    have hcollect : collect (sendPersonaEmail w update) requested =
        (requested.flatMap (attemptsFor w update),
          .ok (requested.map fun p => (p, decide (Accepted w update p)))) := by
      rw [collect_of_ok fun p hp => congrArg Prod.snd (send_settles (hquiet p hp)),
        List.flatMap_congr fun p hp => congrArg Prod.fst (send_settles (hquiet p hp))]
    refine ⟨fun persona hmem hrecipients => ?_, _, ?_, fun persona hmem =>
      ⟨_, reported_lookup hdistinct hmem, decide_eq_true_iff⟩⟩
    · rw [broadcast_eq hrequested, hcollect, map_attemptsFor,
        List.count_filter (by simpa using hrecipients)]
      exact List.count_eq_one_of_mem hdistinct hmem
    · rw [broadcast_eq hrequested, hcollect]
      rfl

theorem broadcast_of_failure {before after : List Persona} {persona : Persona}
    (hbefore : ∀ p ∈ before, ¬ Raises w update p) (h : Raises w update persona) :
    (broadcast w update (before ++ persona :: after)).1.map (·.persona) =
      before.filter (recipientsFor w · ≠ []) ++ [persona] ∧
    ∃ e, (broadcast w update (before ++ persona :: after)).2 = .error e := by
  classical
  obtain ⟨hrecipients, e, he⟩ := h
  have hcollect : collect (sendPersonaEmail w update) (before ++ persona :: after) =
      (before.flatMap (attemptsFor w update) ++ [⟨persona, request w update persona⟩],
        .error e) := by
    rw [collect_of_error (fun p hp => congrArg Prod.snd (send_settles (hbefore p hp)))
        (congrArg Prod.snd (send_raises hrecipients he)), send_raises hrecipients he,
      List.flatMap_congr fun p hp => congrArg Prod.fst (send_settles (hbefore p hp))]
  rw [broadcast_eq (by simp), hcollect]
  refine ⟨?_, e, rfl⟩
  rw [List.map_append, map_attemptsFor]
  rfl

end Reports

section Demo

def demoEnv : String → Option String
  | "NOTIFY_EXECUTIVES_EMAILS" => some "board@telco.example.com"
  | "NOTIFY_TECHNICAL_EMAILS" => some "ops@telco.example.com, shift@telco.example.com"
  | "NOTIFY_PARTNER_EMAILS" => some "partners@telco.example.com"
  | _ => none

def demoWorld : World where
  unicode := ascii
  str
    | .str text => text
    | _ => ""
  env := demoEnv
  post persona _ := if persona = .executives then .error .timeout else .ok ⟨202, ""⟩

def demoUpdate : Update where
  context := Dict.setAll ∅ [("LifecycleStage", .str "detection"), ("IncidentId", .str "INC-1")]
  graphToken := "token"
  ccRecipients := []

theorem reaches_technical_and_venue :
    ReachesEveryone demoWorld demoUpdate [.technical, .venue] := by
  refine (reaches_everyone_iff (by decide) (by decide)).mpr ?_
  rintro persona hmem ⟨-, e, he⟩
  simp only [List.mem_cons, List.not_mem_nil, or_false] at hmem
  rcases hmem with rfl | rfl <;> cases he

theorem timeout_hides_others :
    (∀ persona ∈ [Persona.technical, .executives, .partners],
      recipientsFor demoWorld persona ≠ []) ∧
    (broadcast demoWorld demoUpdate [.technical, .executives, .partners]).1.map (·.persona) =
      [.technical, .executives] ∧
    (broadcast demoWorld demoUpdate [.technical, .executives, .partners]).2 = .error .timeout ∧
    ¬ ReachesEveryone demoWorld demoUpdate [.technical, .executives, .partners] := by
  have hresult : (broadcast demoWorld demoUpdate [.technical, .executives, .partners]).2 =
      .error .timeout := rfl
  refine ⟨by decide +kernel, by decide +kernel, hresult, ?_⟩
  rintro ⟨-, results, hresults, -⟩
  rw [hresult] at hresults
  cases hresults

end Demo

end Notifications
