import NocAgent.AdminUi.Api
import NocAgent.ConsumerConfig.Evaluation

namespace AdminUi
open Trace
open Pricing (Rate)
open ConsumerConfig (ActiveDowngrade Container ConsumerConfigRequest Doc Fields Usage WellFormed
  docId evaluateDowngrade levelFor mergedDoc putConsumerConfig queryItems upsertItem)

def Settings.aliases (s : Settings) : Option (List String) :=
  ConsumerConfig.Settings.aliases ⟨s.allowedModelAliases, none⟩

-- The API beside the sync worker, which lists the documents and writes back, as late as it likes,
-- what an evaluation makes of a document it has listed.
structure World where
  site : Site := {}
  read : List Doc := []

inductive Event where
  | request (q : ApiRequest)
  | query
  | upsert (doc : Doc) (usage : Usage) (pricing : Dict Rate) (nowIso : String)

def World.write (w : World) (doc : Doc) : World :=
  { w with site := { w.site with configs := upsertItem w.site.configs doc } }

def World.step (s : Settings) (v : TokenVerifier) (w : World) : Event → World
  | .request q => { w with site := (handle s w.site v q).1 }
  | .query => { w with read := w.read ++ queryItems w.site.configs }
  | .upsert doc usage pricing nowIso =>
    if doc ∈ w.read then
      match evaluateDowngrade usage pricing nowIso doc with
      | some (_, updated) => w.write updated
      | none => w
    else w

structure SoundDoc (aliases : Option (List String)) (doc : Doc) : Prop where
  filed : ∃ consumer, doc.FiledUnder consumer
  valid : ConsumerConfig.validate doc.toFields aliases = .ok ()
  level : ∀ downgrade, doc.activeDowngrade = some downgrade →
    downgrade.level = 1 ∨ downgrade.level = 2

def SoundConfigs (aliases : Option (List String)) (configs : Container) : Prop :=
  ∀ id doc, configs.lookup id = some doc → id = doc.id ∧ SoundDoc aliases doc

structure World.Sound (s : Settings) (w : World) : Prop where
  registry : w.site.registry.Filed
  configs : SoundConfigs s.aliases w.site.configs
  read : ∀ doc ∈ w.read, SoundDoc s.aliases doc

section Configs
variable {aliases : Option (List String)} {configs : Container} {doc : Doc}

theorem SoundConfigs.wellFormed (h : SoundConfigs aliases configs) : WellFormed configs := by
  intro id doc hdoc
  obtain ⟨rfl, hsound⟩ := h id doc hdoc
  obtain ⟨consumer, hfiled⟩ := hsound.filed
  exact ⟨consumer, hfiled.id, hfiled⟩

theorem SoundConfigs.upsertItem (h : SoundConfigs aliases configs) (hdoc : SoundDoc aliases doc) :
    SoundConfigs aliases (ConsumerConfig.upsertItem configs doc) := by
  intro id doc' hdoc'
  rw [ConsumerConfig.upsertItem, Dict.lookup_insert_eq] at hdoc'
  split_ifs at hdoc' with hid
  · cases hdoc'
    exact ⟨hid, hdoc⟩
  · exact h id doc' hdoc'

theorem SoundConfigs.erase (h : SoundConfigs aliases configs) (id : String) :
    SoundConfigs aliases (configs.erase id) := by
  intro id' doc' hdoc'
  rw [Dict.lookup_erase_eq] at hdoc'
  split_ifs at hdoc'
  exact h id' doc' hdoc'

theorem putConsumerConfig_valid (s : ConsumerConfig.Settings) (configs : Container)
    (consumer : String) (body : ConsumerConfigRequest) :
    (putConsumerConfig s configs consumer body).1 = configs ∨
      ∃ doc, doc = mergedDoc (ConsumerConfig.ConsumerConfigStore.get configs consumer) consumer
          body ∧ ConsumerConfig.validate doc.toFields s.aliases = .ok () ∧
        (putConsumerConfig s configs consumer body).1 = upsertItem configs doc := by
  rw [putConsumerConfig]
  split_ifs
  · exact .inl rfl
  · simp only [ConsumerConfig.ConsumerConfigStore.put]
    cases hvalid : ConsumerConfig.validate
      ((ConsumerConfig.kept (ConsumerConfig.ConsumerConfigStore.get configs consumer)).update body)
      s.aliases with
    | error e => exact .inl rfl
    | ok u => exact .inr ⟨_, rfl, hvalid, rfl⟩

theorem SoundConfigs.put (h : SoundConfigs aliases configs) {s : ConsumerConfig.Settings}
    (hs : s.aliases = aliases) (consumer : String) (body : ConsumerConfigRequest) :
    SoundConfigs aliases (putConsumerConfig s configs consumer body).1 := by
  rcases putConsumerConfig_valid s configs consumer body with hsame | ⟨doc, hdoc, hvalid, hput⟩
  · rw [hsame]
    exact h
  · rw [hput]
    refine h.upsertItem ⟨⟨consumer, ?_⟩, hs ▸ hvalid, fun downgrade hdowngrade => ?_⟩
    · rw [hdoc]
      exact ⟨rfl, rfl, rfl⟩
    · rw [hdoc] at hdowngrade
      obtain ⟨old, hold, hlevel⟩ := Option.bind_eq_some_iff.mp hdowngrade
      exact (h _ old hold).2.level downgrade hlevel

theorem levelFor_pos {pct : ℚ} (h : 0 < levelFor pct) : levelFor pct = 1 ∨ levelFor pct = 2 := by
  rw [levelFor] at h ⊢
  split_ifs at h ⊢
  · exact .inr rfl
  · exact .inl rfl
  · exact absurd h (lt_irrefl 0)

theorem SoundDoc.evaluated (h : SoundDoc aliases doc) {usage : Usage} {pricing : Dict Rate}
    {nowIso consumer : String} {updated : Doc}
    (hupdated : evaluateDowngrade usage pricing nowIso doc = some (consumer, updated)) :
    SoundDoc aliases updated := by
  obtain ⟨budgetUsd, -, -, rfl⟩ := ConsumerConfig.evaluateDowngrade_eq_some_iff.mp hupdated
  refine ⟨?_, h.valid, fun downgrade hdowngrade => ?_⟩
  · obtain ⟨named, hfiled⟩ := h.filed
    exact ⟨named, hfiled.id, hfiled.docType, hfiled.consumer⟩
  · simp only [ConsumerConfig.activeAt] at hdowngrade
    split_ifs at hdowngrade with hlevel
    cases hdowngrade
    exact levelFor_pos hlevel

end Configs

section Steps
variable {s : Settings} {v : TokenVerifier} {site : Site} {w : World}

theorem Registry.Filed.erase {registry : Registry} (h : registry.Filed) (id : String) :
    Registry.Filed (AList.erase id registry) := by
  intro id' doc hdoc
  rw [Dict.lookup_erase_eq] at hdoc
  split_ifs at hdoc
  exact h id' doc hdoc

theorem handleAdmin_sound (principal : Principal) (route : AdminRoute)
    (hregistry : site.registry.Filed) (hconfigs : SoundConfigs s.aliases site.configs) :
    (handleAdmin s site principal route).1.registry.Filed ∧
      SoundConfigs s.aliases (handleAdmin s site principal route).1.configs := by
  cases route with
  | createConsumer body now =>
    exact ⟨hregistry.step (.create body principal.oid now), hconfigs⟩
  | updateConsumer consumer body => exact ⟨hregistry.step (.update consumer body), hconfigs⟩
  | deleteConsumer consumer =>
    rw [handleAdmin, removeConsumer]
    cases deleteConsumer site.keys consumer with
    | error failure => exact ⟨hregistry, hconfigs⟩
    | ok u => exact ⟨hregistry.erase _, hconfigs.erase _⟩
  | putConsumerConfig consumer body jobStarter =>
    exact ⟨hregistry, hconfigs.put (s := ⟨s.allowedModelAliases, jobStarter⟩) rfl consumer body⟩
  | pricingWrite call =>
    rw [handleAdmin, writePricing]
    cases call.respond s.azureLocation site.pricing with
    | error failure => exact ⟨hregistry, hconfigs⟩
    | ok doc => exact ⟨hregistry, hconfigs⟩
  | _ => exact ⟨hregistry, hconfigs⟩

theorem handle_sound (q : ApiRequest) (hregistry : site.registry.Filed)
    (hconfigs : SoundConfigs s.aliases site.configs) :
    (handle s site v q).1.registry.Filed ∧
      SoundConfigs s.aliases (handle s site v q).1.configs := by
  rw [handle]
  cases q.route with
  | healthz => exact ⟨hregistry, hconfigs⟩
  | config => exact ⟨hregistry, hconfigs⟩
  | me => exact ⟨hregistry, hconfigs⟩
  | admin route =>
    dsimp only
    cases requireAdmin v q.now q.authorization with
    | error failure => exact ⟨hregistry, hconfigs⟩
    | ok principal => exact handleAdmin_sound principal route hregistry hconfigs

theorem World.Sound.step (h : w.Sound s) (event : Event) : (w.step s v event).Sound s := by
  cases event with
  | request q =>
    obtain ⟨hregistry, hconfigs⟩ := handle_sound (v := v) q h.registry h.configs
    exact ⟨hregistry, hconfigs, h.read⟩
  | query =>
    refine ⟨h.registry, h.configs, fun doc hdoc => ?_⟩
    rcases List.mem_append.mp hdoc with hold | hnew
    · exact h.read doc hold
    · obtain ⟨consumer, hlookup, -⟩ :=
        (ConsumerConfig.mem_queryItems h.configs.wellFormed).mp hnew
      exact (h.configs _ doc hlookup).2
  | upsert doc usage pricing nowIso =>
    rw [World.step]
    split_ifs with hread
    · cases hupdated : evaluateDowngrade usage pricing nowIso doc with
      | none => exact h
      | some entry =>
        exact ⟨h.registry, h.configs.upsertItem ((h.read doc hread).evaluated hupdated), h.read⟩
    · exact h

theorem World.Sound.start (s : Settings) : World.Sound s {} where
  registry _ _ hdoc := absurd hdoc (Dict.lookup_empty_ne _ _)
  configs _ _ hdoc := absurd hdoc (Dict.lookup_empty_ne _ _)
  read _ hdoc := by cases hdoc

theorem World.Sound.run (s : Settings) (v : TokenVerifier) (events : List Event) :
    (Trace.run (World.step s v) {} events).Sound s :=
  Trace.invariant (fun _ event hw _ => hw.step event) (.start s) (along_trivial _ events)

end Steps

theorem stored_configs_sound (s : Settings) (v : TokenVerifier) (events : List Event) :
    ∀ id doc, (run (World.step s v) {} events).site.configs.lookup id = some doc →
      ∃ consumer, id = docId consumer ∧ doc.FiledUnder consumer ∧
        ConsumerConfig.validate doc.toFields s.aliases = .ok () ∧
          ∀ downgrade, doc.activeDowngrade = some downgrade →
            downgrade.level = 1 ∨ downgrade.level = 2 := by
  intro id doc hdoc
  obtain ⟨rfl, hsound⟩ := (World.Sound.run s v events).configs id doc hdoc
  obtain ⟨consumer, hfiled⟩ := hsound.filed
  exact ⟨consumer, hfiled.id, hfiled, hsound.valid, hsound.level⟩

section Example

def localSettings : Settings where
  entraTenantId := "tenant"
  spaClientId := "spa"
  bffApiAudience := "api://bff"
  aliasModels := [("gpt-5.4", "GPT-5.4"), ("gpt-5.4-mini", "GPT-5.4 mini")]
  allowedModelAliases := ["gpt-5.4", "gpt-5.4-mini"]
  rateTiers := [("small", ⟨500, 20000, "Daily"⟩)]
  apimAnalyticsUrl := ""
  azureLocation := none
  order := RunsQuery.firstSeen

def adminClaims : Claims where
  iss := some "issuer"
  aud := some (.one "bff")
  exp := some 1000
  oid := some "operator"
  groups := some ["admins"]

def localVerifier : TokenVerifier where
  issuer := "issuer"
  audience := "api://bff"
  adminGroup := "admins"
  decode token := if token = "token" then .ok adminClaims else .error .other

def budget : ConsumerConfigRequest where
  dailyBudgetUsd := some 1
  downgradeLadder := some ["gpt-5.4-mini"]

def overspent : List Event :=
  [.request ⟨"Bearer token", 0, .admin (.putConsumerConfig "team-a" budget none)⟩, .query,
    .upsert (mergedDoc none "team-a" budget) ConsumerConfig.spentUsage ConsumerConfig.spentPrices
      "now"]

def loweredDoc : Doc :=
  { mergedDoc none "team-a" budget with activeDowngrade := some ⟨2, 1, 1, "now"⟩ }

theorem stored_configs_sound_overspent : ∃ consumer, docId "team-a" = docId consumer ∧
    loweredDoc.FiledUnder consumer ∧
      ConsumerConfig.validate loweredDoc.toFields localSettings.aliases = .ok () ∧
        ∀ downgrade, loweredDoc.activeDowngrade = some downgrade →
          downgrade.level = 1 ∨ downgrade.level = 2 :=
  stored_configs_sound localSettings localVerifier overspent (docId "team-a") loweredDoc
    (by decide +kernel)

end Example

end AdminUi
