import NocAgent.Library.Trace
import NocAgent.Pricing.ModelsPricing

namespace AdminUi
open Pricing (Failure)
open Text (strip)

-- How a call of the APIM client or of the mapping container ends; one that raises may have
-- taken effect all the same.
inductive Reply where
  | done
  | raised (tookEffect : Bool) (text : String)

def Reply.applied : Reply → Bool
  | .done => true
  | .raised tookEffect _ => tookEffect

def Reply.write {α : Type} (reply : Reply) (f : Dict α → Dict α) (d : Dict α) : Dict α :=
  if reply.applied then f d else d

theorem Reply.lookup_write {α : Type} (reply : Reply) {f : Dict α → Dict α} {k : String}
    {w : Option α} (hf : ∀ d k', (f d).lookup k' = if k' = k then w else d.lookup k') (d : Dict α)
    (k' : String) : (reply.write f d).lookup k' =
      if reply.applied = true ∧ k' = k then w else d.lookup k' := by
  rw [write]
  by_cases h : reply.applied = true
  · rw [if_pos h, hf]
    simp only [h, true_and]
  · rw [if_neg h, if_neg fun hboth => h hboth.1]

structure Mapping where
  consumer : String
  displayName : String
  createdBy : String
  createdAt : String
deriving DecidableEq

-- The live subscriptions with their display names, and the mapping rows by key id.
structure Keys where
  subscriptions : Dict String := ∅
  mappings : Dict Mapping := ∅

structure Issued where
  id : String
  consumer : String
  displayName : String

structure CreateKey where
  consumer : String
  sid : String
  principal : String
  now : String
  createOrUpdate : Reply
  listSecrets : Reply
  record : Reply

def Keys.create (s : Keys) (sid displayName : String) (reply : Reply) : Keys :=
  { s with subscriptions := reply.write (·.insert sid displayName) s.subscriptions }

def Keys.delete (s : Keys) (sid : String) (reply : Reply) : Keys :=
  { s with subscriptions := reply.write (·.erase sid) s.subscriptions }

def Keys.record (s : Keys) (keyId : String) (row : Mapping) (reply : Reply) : Keys :=
  { s with mappings := reply.write (·.insert keyId row) s.mappings }

def Keys.remove (s : Keys) (keyId : String) (reply : Reply) : Keys :=
  { s with mappings := reply.write (·.erase keyId) s.mappings }

def CreateKey.mapping (r : CreateKey) : Mapping :=
  ⟨strip r.consumer, strip r.consumer, r.principal, r.now⟩

-- Only the record is tried with a delete of the subscription behind it.
def createKey (s : Keys) (r : CreateKey) : Keys × Except Failure Issued :=
  let consumer := strip r.consumer
  if consumer = "" then (s, .error (.http 400 "consumer is required"))
  else
    let created := s.create r.sid consumer r.createOrUpdate
    match r.createOrUpdate with
    | .raised _ text => (created, .error (.raised text))
    | .done =>
      match r.listSecrets with
      | .raised _ text => (created, .error (.raised text))
      | .done =>
        let recorded := created.record r.sid r.mapping r.record
        match r.record with
        | .raised _ text => (recorded.delete r.sid .done, .error (.raised text))
        | .done => (recorded, .ok ⟨r.sid, consumer, consumer⟩)

def deleteKey (s : Keys) (keyId : String) (delete remove : Reply) : Keys × Except Failure Unit :=
  let deleted := s.delete keyId delete
  match delete with
  | .raised _ text => (deleted, .error (.raised text))
  | .done =>
    match remove with
    | .raised _ text => (deleted.remove keyId remove, .error (.raised text))
    | .done => (deleted.remove keyId remove, .ok ())

-- The guard of a consumer's deletion counts mapping rows, and nothing else.
def deleteConsumer (s : Keys) (consumer : String) : Except Failure Unit :=
  let keyCount := (s.mappings.values.filter (·.consumer = consumer)).length
  if keyCount ≠ 0 then
    throw (.http 409 ("'" ++ consumer ++ "' still has " ++ toString keyCount ++
      " key(s); revoke them in 6 API Keys before deleting the consumer"))
  else pure ()

inductive Request where
  | createKey (r : CreateKey)
  | deleteKey (keyId : String) (delete remove : Reply)
  | deleteConsumer (consumer : String)

namespace Keys

def step (s : Keys) : Request → Keys
  | .createKey r => (createKey s r).1
  | .deleteKey keyId delete remove => (deleteKey s keyId delete remove).1
  | .deleteConsumer _ => s

def Mapped (s : Keys) : Prop :=
  ∀ sid consumer, s.subscriptions.lookup sid = some consumer →
    ∃ row, s.mappings.lookup sid = some row ∧ row.consumer = consumer

def Clean (s : Keys) : Request → Prop
  | .createKey r => ∀ failure, (AdminUi.createKey s r).2 = .error failure →
      ∀ sid consumer, (AdminUi.createKey s r).1.subscriptions.lookup sid = some consumer →
        s.subscriptions.lookup sid = some consumer
  | .deleteKey _ _ _ => True
  | .deleteConsumer consumer => AdminUi.deleteConsumer s consumer = .ok () →
      ∀ sid, s.subscriptions.lookup sid ≠ some consumer

def Covered (s : Keys) : Request → Prop
  | .createKey r => strip r.consumer ≠ "" → r.createOrUpdate.applied = true →
      (r.createOrUpdate = .done ∧ r.listSecrets = .done) ∨
        s.subscriptions.lookup r.sid = some (strip r.consumer)
  | _ => True

section Step
variable {s : Keys} {r : CreateKey}

theorem lookup_create (sid displayName : String) (reply : Reply) (sid' : String) :
    (s.create sid displayName reply).subscriptions.lookup sid' =
      if reply.applied = true ∧ sid' = sid then some displayName
      else s.subscriptions.lookup sid' :=
  reply.lookup_write (fun d => Dict.lookup_insert_eq d sid displayName) _ _

theorem lookup_delete (sid : String) (reply : Reply) (sid' : String) :
    (s.delete sid reply).subscriptions.lookup sid' =
      if reply.applied = true ∧ sid' = sid then none else s.subscriptions.lookup sid' :=
  reply.lookup_write (fun d => Dict.lookup_erase_eq d sid) _ _

theorem lookup_record (keyId : String) (row : Mapping) (reply : Reply) (keyId' : String) :
    (s.record keyId row reply).mappings.lookup keyId' =
      if reply.applied = true ∧ keyId' = keyId then some row else s.mappings.lookup keyId' :=
  reply.lookup_write (fun d => Dict.lookup_insert_eq d keyId row) _ _

theorem lookup_remove (keyId : String) (reply : Reply) (keyId' : String) :
    (s.remove keyId reply).mappings.lookup keyId' =
      if reply.applied = true ∧ keyId' = keyId then none else s.mappings.lookup keyId' :=
  reply.lookup_write (fun d => Dict.lookup_erase_eq d keyId) _ _

@[simp] theorem mappings_create (sid displayName : String) (reply : Reply) :
    (s.create sid displayName reply).mappings = s.mappings := rfl

@[simp] theorem mappings_delete (sid : String) (reply : Reply) :
    (s.delete sid reply).mappings = s.mappings := rfl

@[simp] theorem subscriptions_record (keyId : String) (row : Mapping) (reply : Reply) :
    (s.record keyId row reply).subscriptions = s.subscriptions := rfl

@[simp] theorem subscriptions_remove (keyId : String) (reply : Reply) :
    (s.remove keyId reply).subscriptions = s.subscriptions := rfl

def recorded (s : Keys) (r : CreateKey) (reply : Reply) : Keys :=
  (s.create r.sid (strip r.consumer) .done).record r.sid r.mapping reply

theorem createKey_cases (s : Keys) (r : CreateKey) :
    (strip r.consumer = "" ∧ createKey s r = (s, .error (.http 400 "consumer is required"))) ∨
    (strip r.consumer ≠ "" ∧ ¬ (r.createOrUpdate = .done ∧ r.listSecrets = .done) ∧
      ∃ text, createKey s r =
        (s.create r.sid (strip r.consumer) r.createOrUpdate, .error (.raised text))) ∨
    ((r.createOrUpdate = .done ∧ r.listSecrets = .done) ∧
      ((∃ text, createKey s r =
          ((s.recorded r r.record).delete r.sid .done, .error (.raised text))) ∨
        ∃ issued, createKey s r = (s.recorded r .done, .ok issued))) := by
  by_cases hblank : strip r.consumer = ""
  · exact .inl ⟨hblank, by rw [createKey, if_pos hblank]⟩
  · simp only [createKey, if_neg hblank]
    refine .inr ?_
    cases hcreate : r.createOrUpdate with
    | raised tookEffect text => exact .inl ⟨hblank, by simp, text, rfl⟩
    | done =>
      cases hsecrets : r.listSecrets with
      | raised tookEffect text => exact .inl ⟨hblank, by simp, text, rfl⟩
      | done =>
        refine .inr ⟨⟨rfl, rfl⟩, ?_⟩
        cases hrecord : r.record with
        | raised tookEffect text => exact .inl ⟨text, rfl⟩
        | done => exact .inr ⟨_, rfl⟩

theorem lookup_recorded (reply : Reply) (sid : String) :
    (s.recorded r reply).subscriptions.lookup sid =
      if sid = r.sid then some (strip r.consumer) else s.subscriptions.lookup sid := by
  rw [recorded, subscriptions_record, lookup_create]
  simp only [Reply.applied, true_and]

theorem lookup_compensated (reply : Reply) (sid : String) :
    ((s.recorded r reply).delete r.sid .done).subscriptions.lookup sid =
      if sid = r.sid then none else s.subscriptions.lookup sid := by
  rw [lookup_delete, lookup_recorded]
  simp only [Reply.applied, true_and]
  split_ifs <;> rfl

theorem deleteConsumer_ok {consumer : String} (h : deleteConsumer s consumer = .ok ())
    {keyId : String} {row : Mapping} (hrow : s.mappings.lookup keyId = some row) :
    row.consumer ≠ consumer := by
  intro hconsumer
  rw [deleteConsumer] at h
  split_ifs at h with hcount
  rw [not_not, List.length_eq_zero_iff, List.filter_eq_nil_iff] at hcount
  exact hcount row (Dict.mem_values_iff.mpr ⟨keyId, hrow⟩) (by simpa using hconsumer)

theorem clean_iff_covered (hs : s.Mapped) (q : Request) : s.Clean q ↔ s.Covered q := by
  cases q with
  | deleteKey keyId delete remove => exact Iff.rfl
  | deleteConsumer consumer =>
    refine iff_of_true (fun haccepted sid hlive => ?_) trivial
    obtain ⟨row, hrow, hconsumer⟩ := hs sid consumer hlive
    exact deleteConsumer_ok haccepted hrow hconsumer
  | createKey r =>
    rw [Clean, Covered]
    rcases createKey_cases s r with ⟨hblank, hr⟩ | ⟨hname, hearly, text, hr⟩ |
      ⟨hdone, ⟨text, hr⟩ | ⟨issued, hr⟩⟩
    · rw [hr]
      exact iff_of_true (fun _ _ _ _ hlive => hlive) fun hname => absurd hblank hname
    · rw [hr]
      constructor
      · intro h _ happlied
        refine .inr (h _ rfl r.sid (strip r.consumer) ?_)
        rw [lookup_create, if_pos ⟨happlied, rfl⟩]
      · intro h failure _ sid consumer hlive
        rw [lookup_create] at hlive
        split_ifs at hlive with hboth
        · rw [hboth.2, ← hlive]
          exact (h hname hboth.1).resolve_left hearly
        · exact hlive
    · rw [hr]
      refine iff_of_true (fun failure _ sid consumer hlive => ?_) fun _ _ => .inl hdone
      rw [lookup_compensated] at hlive
      split_ifs at hlive
      exact hlive
    · rw [hr]
      exact iff_of_true (fun failure hfailure => by cases hfailure) fun _ _ => .inl hdone

theorem Mapped.createKey (hs : s.Mapped) (h : s.Clean (.createKey r)) :
    (AdminUi.createKey s r).1.Mapped := by
  rw [Clean] at h
  rcases createKey_cases s r with ⟨hblank, hr⟩ | ⟨hname, hearly, text, hr⟩ |
    ⟨hdone, ⟨text, hr⟩ | ⟨issued, hr⟩⟩
  · rw [hr]
    exact hs
  · rw [hr] at h ⊢
    intro sid consumer hlive
    rw [mappings_create]
    exact hs sid consumer (h _ rfl sid consumer hlive)
  · rw [hr]
    intro sid consumer hlive
    rw [lookup_compensated] at hlive
    split_ifs at hlive with hsid
    rw [mappings_delete, recorded, lookup_record, if_neg fun hboth => hsid hboth.2,
      mappings_create]
    exact hs sid consumer hlive
  · rw [hr]
    intro sid consumer hlive
    rw [lookup_recorded] at hlive
    rw [recorded, lookup_record, mappings_create]
    split_ifs at hlive with hsid
    · cases hlive
      exact ⟨r.mapping, if_pos ⟨rfl, hsid⟩, rfl⟩
    · rw [if_neg fun hboth => hsid hboth.2]
      exact hs sid consumer hlive

theorem Mapped.deleteKey (hs : s.Mapped) (keyId : String) (delete remove : Reply) :
    (AdminUi.deleteKey s keyId delete remove).1.Mapped := by
  have hdeleted : (s.delete keyId delete).Mapped := by
    intro sid consumer hlive
    rw [lookup_delete] at hlive
    split_ifs at hlive
    rw [mappings_delete]
    exact hs sid consumer hlive
  cases delete with
  | raised tookEffect text => exact hdeleted
  | done =>
    have hremoved : ((s.delete keyId .done).remove keyId remove).Mapped := by
      intro sid consumer hlive
      rw [subscriptions_remove] at hlive
      have hsid : sid ≠ keyId := by
        rintro rfl
        rw [lookup_delete, if_pos ⟨rfl, rfl⟩] at hlive
        cases hlive
      rw [lookup_remove, if_neg fun hboth => hsid hboth.2]
      exact hdeleted sid consumer hlive
    cases remove with
    | raised tookEffect text => exact hremoved
    | done => exact hremoved

theorem Mapped.step (hs : s.Mapped) {q : Request} (h : s.Clean q) : (s.step q).Mapped := by
  cases q with
  | createKey r => exact hs.createKey h
  | deleteKey keyId delete remove => exact hs.deleteKey keyId delete remove
  | deleteConsumer consumer => exact hs

end Step

theorem no_orphan_keys_iff (requests : List Request) :
    Trace.Along step Clean {} requests ∧ Trace.Always step Mapped {} requests ↔
      Trace.Along step Covered {} requests := by
  have hempty : Mapped {} := fun sid consumer hlive =>
    absurd hlive (Dict.lookup_empty_ne sid consumer)
  exact Trace.along_and_always_iff (D := fun _ _ => True) (fun _ q hs _ => clean_iff_covered hs q)
    (fun _ _ hs _ h => hs.step h) hempty (Trace.along_trivial _ requests)

section Example

def secretsFail : CreateKey where
  consumer := "team-a"
  sid := "vk-44a9723c68dc"
  principal := "ada"
  now := "2026-09-16T12:00:00Z"
  createOrUpdate := .done
  listSecrets := .raised false "service unavailable"
  record := .done

theorem secrets_failure_leaves_key :
    (Trace.run step {} [.createKey secretsFail]).subscriptions.lookup "vk-44a9723c68dc" =
        some "team-a" ∧
      deleteConsumer (Trace.run step {} [.createKey secretsFail]) "team-a" = .ok () ∧
      ¬ (Trace.Along step Clean {} [.createKey secretsFail] ∧
        Trace.Always step Mapped {} [.createKey secretsFail]) := by
  refine ⟨by decide +kernel, by decide +kernel, fun h => ?_⟩
  exact Dict.lookup_empty_ne _ _ (h.1.1 _ rfl "vk-44a9723c68dc" "team-a" (by decide +kernel))

end Example

end Keys

end AdminUi
