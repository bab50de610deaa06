import NocAgent.AdminUi.Registry

namespace AdminUi
namespace Registry

def updated (doc : Registration) (body : ConsumerRegistryRequest) : Registration :=
  { doc with
    entraGroupId := body.entraGroupId.or doc.entraGroupId
    displayName := body.displayName.or doc.displayName
    description := body.description.or doc.description }

def UpdatesOnly (c : Registry) (consumer : String) (body : ConsumerRegistryRequest)
    (doc : Registration) : Registry × Except Failure Unit → Prop
  | (c', .ok _) => ∀ id, c'.lookup id =
      if id = registryId consumer then some (updated doc body) else c.lookup id
  | (c', .error _) => c' = c

def ChangesOnlyNamed (c : Registry) : Request → Prop
  | .update consumer body => ∀ doc, c.lookup (registryId consumer) = some doc →
      c.UpdatesOnly consumer body doc (updateConsumer c consumer body)
  | _ => True

def Unstamped (doc : Registration) : Prop := doc.createdBy = none ∧ doc.createdAt = none

def FindsUnstamped (c : Registry) : Request → Prop
  | .update consumer body => ∀ doc, c.lookup (registryId consumer) = some doc →
      blankGroup body = false → c.Admitted (mergedRegistration (some doc) consumer body) →
        Unstamped doc
  | _ => True

section Update
variable {c : Registry} {doc : Registration} {consumer : String} {body : ConsumerRegistryRequest}

theorem updated_eq_merged_iff (body : ConsumerRegistryRequest)
    (hconsumer : doc.consumer = consumer) :
    updated doc body = mergedRegistration (some doc) consumer body ↔ Unstamped doc := by
  subst hconsumer
  simp only [updated, mergedRegistration, Option.bind_some, Unstamped, Registration.mk.injEq,
    true_and]

theorem updateConsumer_of_blank (h : blankGroup body = true) :
    updateConsumer c consumer body =
      (c, .error (.http 400 "entra_group_id cannot be blank")) := if_pos h

theorem updateConsumer_of_admitted (hblank : blankGroup body = false)
    (hdoc : c.lookup (registryId consumer) = some doc)
    (h : c.Admitted (mergedRegistration (some doc) consumer body)) :
    updateConsumer c consumer body =
      (c.insert (registryId consumer) (mergedRegistration (some doc) consumer body), .ok ()) := by
  rw [updateConsumer, if_neg (by rw [hblank]; exact Bool.false_ne_true), hdoc, put_of_admitted h]
  rfl

theorem updateConsumer_of_not_admitted (hdoc : c.lookup (registryId consumer) = some doc)
    (hblank : blankGroup body = false)
    (h : ¬ c.Admitted (mergedRegistration (some doc) consumer body)) :
    ∃ failure, updateConsumer c consumer body = (c, .error failure) := by
  obtain ⟨e, he⟩ := put_of_not_admitted h
  rw [updateConsumer, if_neg (by rw [hblank]; exact Bool.false_ne_true), hdoc, he]
  exact ⟨_, rfl⟩

theorem updatesOnly_iff (hfiled : c.Filed) (hdoc : c.lookup (registryId consumer) = some doc) :
    c.UpdatesOnly consumer body doc (updateConsumer c consumer body) ↔
      (blankGroup body = false → c.Admitted (mergedRegistration (some doc) consumer body) →
        Unstamped doc) := by
  cases hblank : blankGroup body with
  | true =>
    rw [updateConsumer_of_blank hblank]
    exact iff_of_true rfl fun h => by cases h
  | false =>
    rw [forall_prop_of_true rfl]
    by_cases hadmitted : c.Admitted (mergedRegistration (some doc) consumer body)
    · rw [forall_prop_of_true hadmitted, updateConsumer_of_admitted hblank hdoc hadmitted,
        UpdatesOnly, ← updated_eq_merged_iff body (registryId_inj.mp (hfiled _ _ hdoc)).symm]
      constructor
      · intro h
        have hself := h (registryId consumer)
        rw [AList.lookup_insert, if_pos rfl, Option.some.injEq] at hself
        exact hself.symm
      · intro h id
        rw [h, Dict.lookup_insert_eq]
    · obtain ⟨failure, hfailure⟩ := updateConsumer_of_not_admitted hdoc hblank hadmitted
      rw [hfailure]
      exact iff_of_true rfl fun h => absurd h hadmitted

theorem changesOnlyNamed_iff (hfiled : c.Filed) (q : Request) :
    c.ChangesOnlyNamed q ↔ c.FindsUnstamped q := by
  cases q with
  | create body principal now => exact Iff.rfl
  | update consumer body => exact forall₂_congr fun doc hdoc => updatesOnly_iff hfiled hdoc
  | delete consumer keys => exact Iff.rfl

end Update

theorem filed_empty : Filed ∅ := fun id doc hdoc => absurd hdoc (Dict.lookup_empty_ne id doc)

theorem update_changes_only_named_iff (requests : List Request) :
    Trace.Along step ChangesOnlyNamed ∅ requests ↔ Trace.Along step FindsUnstamped ∅ requests :=
  Trace.along_congr (I := Filed) (fun _ q hfiled => hfiled.step q)
    (fun _ q hfiled => changesOnlyNamed_iff hfiled q) filed_empty requests

section Example

def renamed : List Request :=
  [register "team-a" lowerGuid, .update "team-a" { displayName := some "Team A" }]

theorem update_drops_creator :
    ((Trace.run step ∅ (renamed.take 1)).lookup (registryId "team-a")).map (·.createdBy) =
        some (some "ada") ∧
      ((Trace.run step ∅ renamed).lookup (registryId "team-a")).map (·.createdBy) = some none ∧
      ¬ Trace.Along step ChangesOnlyNamed ∅ renamed := by
  have hbefore : ((Trace.run step ∅ (renamed.take 1)).lookup (registryId "team-a")).map
      (·.createdBy) = some (some "ada") := by decide +kernel
  have hafter : ((Trace.run step ∅ renamed).lookup (registryId "team-a")).map (·.createdBy) =
      some none := by decide +kernel
  refine ⟨hbefore, hafter, fun h => ?_⟩
  have hfound := (changesOnlyNamed_iff (filed_empty.step _) _).mp h.2.1
  obtain ⟨doc, hdoc, hcreator⟩ := Option.map_eq_some_iff.mp hbefore
  have hadmitted : Admitted (Trace.run step ∅ (renamed.take 1))
      (mergedRegistration (some doc) "team-a" { displayName := some "Team A" }) := by
    rw [← hdoc]
    exact validate_ok_iff.mp (by decide +kernel)
  have hunstamped := (hfound doc hdoc (by decide) hadmitted).1
  rw [hcreator] at hunstamped
  cases hunstamped

end Example

end Registry

end AdminUi
