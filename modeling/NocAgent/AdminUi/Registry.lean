import NocAgent.AdminUi.Keys

namespace AdminUi
open Pricing (Failure given beforeEnd)
open Text (strip)

structure Registration where
  consumer : String
  entraGroupId : Option String
  displayName : Option String
  description : Option String
  createdBy : Option String := none
  createdAt : Option String := none
deriving DecidableEq

abbrev Registry := Dict Registration

def registryId (consumer : String) : String := "consumerreg:" ++ consumer

theorem registryId_inj {a b : String} : registryId a = registryId b ↔ a = b :=
  String.append_right_inj _

def isHex (c : Char) : Bool :=
  ('0' ≤ c && c ≤ '9') || ('a' ≤ c && c ≤ 'f') || ('A' ≤ c && c ≤ 'F')

def guidShape (chars : List Char) : Bool :=
  chars.length = 36 &&
    chars.zipIdx.all fun (c, i) => if i ∈ [8, 13, 18, 23] then c = '-' else isHex c

def guidMatch (text : String) : Bool := guidShape (beforeEnd text)

def validate (consumer : String) (entraGroupId : Option String)
    (existingGroupOwners : Dict String) : Except String Unit :=
  match given entraGroupId with
  | none => pure ()
  | some gid =>
    if guidMatch gid then
      match existingGroupOwners.lookup gid with
      | none => pure ()
      | some owner =>
        if owner = consumer then pure ()
        else throw ("entra_group_id already mapped to consumer '" ++ owner ++ "'")
    else throw "entra_group_id must be a valid GUID when provided"

def Registration.group (doc : Registration) : Option String := given doc.entraGroupId

def groupIndex (c : Registry) : Dict String :=
  .setAll ∅ (c.values.filterMap fun doc => doc.group.map (·, doc.consumer))

def put (c : Registry) (doc : Registration) : Except String Registry := do
  validate doc.consumer doc.entraGroupId (groupIndex c)
  pure (c.insert (registryId doc.consumer) doc)

structure ConsumerRegistryRequest where
  consumer : Option String := none
  entraGroupId : Option String := none
  displayName : Option String := none
  description : Option String := none

def answered (c : Registry) : Except String Registry → Registry × Except Failure Unit
  | .ok c' => (c', .ok ())
  | .error e => (c, .error (.http 400 e))

def newRegistration (consumer : String) (body : ConsumerRegistryRequest)
    (principal now : String) : Registration where
  consumer := consumer
  entraGroupId := body.entraGroupId
  displayName := body.displayName
  description := body.description
  createdBy := some principal
  createdAt := some now

def createConsumer (c : Registry) (body : ConsumerRegistryRequest) (principal now : String) :
    Registry × Except Failure Unit :=
  let consumer := strip (body.consumer.getD "")
  if consumer = "" then (c, .error (.http 400 "consumer is required"))
  else if (c.lookup (registryId consumer)).isSome then
    (c, .error (.http 409 ("consumer '" ++ consumer ++ "' already registered")))
  else
    answered c (put c (newRegistration consumer body principal now))

-- The body over the stored document; who created it and when is not carried over.
def mergedRegistration (existing : Option Registration) (consumer : String)
    (body : ConsumerRegistryRequest) : Registration where
  consumer := consumer
  entraGroupId := body.entraGroupId.or (existing.bind (·.entraGroupId))
  displayName := body.displayName.or (existing.bind (·.displayName))
  description := body.description.or (existing.bind (·.description))

def blankGroup (body : ConsumerRegistryRequest) : Bool :=
  body.entraGroupId.any fun gid => strip gid = ""

def updateConsumer (c : Registry) (consumer : String) (body : ConsumerRegistryRequest) :
    Registry × Except Failure Unit :=
  if blankGroup body then (c, .error (.http 400 "entra_group_id cannot be blank"))
  else answered c (put c (mergedRegistration (c.lookup (registryId consumer)) consumer body))

namespace Registry

inductive Request where
  | create (body : ConsumerRegistryRequest) (principal now : String)
  | update (consumer : String) (body : ConsumerRegistryRequest)
  -- with the subscriptions and mapping rows that the guard meets
  | delete (consumer : String) (keys : Keys)

def step (c : Registry) : Request → Registry
  | .create body principal now => (createConsumer c body principal now).1
  | .update consumer body => (updateConsumer c consumer body).1
  | .delete consumer keys =>
    match deleteConsumer keys consumer with
    | .ok () => c.erase (registryId consumer)
    | .error _ => c

def hexDigit (c : Char) : ℕ :=
  if c ≤ '9' then c.toNat - 48 else if c ≤ 'F' then c.toNat - 55 else c.toNat - 87

def guidValue (gid : String) : ℕ :=
  (gid.toList.filter isHex).foldl (fun value c => 16 * value + hexDigit c) 0

def Holds (c : Registry) (id gid : String) : Prop :=
  ∃ doc, c.lookup id = some doc ∧ doc.group = some gid

structure OneGroup (c : Registry) : Prop where
  shaped : ∀ id gid, c.Holds id gid → guidShape gid.toList = true
  unique : ∀ id id' gid gid', c.Holds id gid → c.Holds id' gid' →
    guidValue gid = guidValue gid' → id = id'
  indexed : ∀ id doc gid, c.lookup id = some doc → doc.group = some gid →
    (groupIndex c).lookup gid = some doc.consumer

def Filed (c : Registry) : Prop :=
  ∀ id doc, c.lookup id = some doc → id = registryId doc.consumer

def proposed (c : Registry) : Request → Option Registration
  | .create body principal now =>
    let consumer := strip (body.consumer.getD "")
    if consumer = "" ∨ (c.lookup (registryId consumer)).isSome then none
    else some (newRegistration consumer body principal now)
  | .update consumer body =>
    if blankGroup body then none
    else some (mergedRegistration (c.lookup (registryId consumer)) consumer body)
  | .delete _ _ => none

def OneSpelling (c : Registry) (consumer gid : String) : Prop :=
  guidShape gid.toList = true ∧ ∀ id gid', id ≠ registryId consumer → c.Holds id gid' →
    guidValue gid' = guidValue gid → gid' = gid

def Spelled (c : Registry) (q : Request) : Prop :=
  ∀ doc, c.proposed q = some doc → ∀ gid, doc.group = some gid → guidMatch gid = true →
    c.OneSpelling doc.consumer gid

section Steps
variable {c : Registry} {doc : Registration}

theorem step_of_proposed {q : Request} (h : c.proposed q = some doc) :
    c.step q = (answered c (put c doc)).1 := by
  cases q with
  | create body principal now =>
    simp only [proposed] at h
    split_ifs at h with hbad
    rw [not_or] at hbad
    cases h
    rw [step, createConsumer, if_neg hbad.1, if_neg hbad.2]
  | update consumer body =>
    simp only [proposed] at h
    split_ifs at h with hblank
    cases h
    rw [step, updateConsumer, if_neg hblank]
  | delete consumer keys => cases h

theorem step_of_not_proposed {q : Request} (h : c.proposed q = none) :
    c.step q = c ∨ ∃ id, c.step q = c.erase id := by
  cases q with
  | create body principal now =>
    simp only [proposed] at h
    split_ifs at h with hbad
    rw [step, createConsumer]
    rcases hbad with hblank | hknown
    · rw [if_pos hblank]
      exact .inl rfl
    · split_ifs
      · exact .inl rfl
      · exact .inl rfl
  | update consumer body =>
    simp only [proposed] at h
    split_ifs at h with hblank
    rw [step, updateConsumer, if_pos hblank]
    exact .inl rfl
  | delete consumer keys =>
    rw [step]
    cases deleteConsumer keys consumer with
    | ok u => exact .inr ⟨_, rfl⟩
    | error failure => exact .inl rfl

def Admitted (c : Registry) (doc : Registration) : Prop :=
  ∀ gid, doc.group = some gid → guidMatch gid = true ∧
    ∀ owner, (groupIndex c).lookup gid = some owner → owner = doc.consumer

theorem validate_ok_iff :
    validate doc.consumer doc.entraGroupId (groupIndex c) = .ok () ↔ c.Admitted doc := by
  rw [validate, Admitted, Registration.group]
  cases given doc.entraGroupId with
  | none => exact iff_of_true rfl fun gid hgid => by cases hgid
  | some gid =>
    simp only [Option.some.injEq, forall_eq']
    split_ifs with hmatch
    · rw [and_iff_right hmatch]
      cases (groupIndex c).lookup gid with
      | none => exact iff_of_true rfl fun owner howner => by cases howner
      | some holder =>
        simp only [Option.some.injEq, forall_eq']
        split_ifs with hholder
        · exact iff_of_true rfl hholder
        · exact iff_of_false (fun h => by cases h) hholder
    · exact iff_of_false (fun h => by cases h) fun h => hmatch h.1

theorem put_of_admitted (h : c.Admitted doc) :
    put c doc = .ok (c.insert (registryId doc.consumer) doc) := by
  rw [put, validate_ok_iff.mpr h]
  rfl

theorem put_of_not_admitted (h : ¬ c.Admitted doc) : ∃ e, put c doc = .error e := by
  rw [put]
  cases hvalid : validate doc.consumer doc.entraGroupId (groupIndex c) with
  | ok u => exact absurd (validate_ok_iff.mp hvalid) h
  | error e => exact ⟨e, rfl⟩

end Steps

section Held
variable {c : Registry} {doc : Registration} {id id' gid gid' : String}

theorem holds_iff : c.Holds id gid ↔ (c.lookup id).bind Registration.group = some gid :=
  Option.bind_eq_some_iff.symm

theorem holds_insert : Holds (c.insert id doc) id' gid ↔
    if id' = id then doc.group = some gid else c.Holds id' gid := by
  rw [Holds, Dict.lookup_insert_eq]
  split_ifs
  · simp only [Option.some.injEq, exists_eq_left']
  · exact Iff.rfl

theorem Holds.of_erase (h : Holds (c.erase id) id' gid) : c.Holds id' gid := by
  obtain ⟨doc, hdoc, hgroup⟩ := h
  rw [Dict.lookup_erase_eq] at hdoc
  split_ifs at hdoc
  exact ⟨doc, hdoc, hgroup⟩

theorem Holds.same (h : c.Holds id gid) (h' : c.Holds id gid') : gid = gid' := by
  obtain ⟨doc, hdoc, hgroup⟩ := h
  obtain ⟨doc', hdoc', hgroup'⟩ := h'
  rw [hdoc, Option.some.injEq] at hdoc'
  rw [← hdoc', hgroup] at hgroup'
  exact Option.some.inj hgroup'

theorem holder_of_groupIndex {owner : String} (h : (groupIndex c).lookup gid = some owner) :
    ∃ id doc, c.lookup id = some doc ∧ doc.group = some gid ∧ doc.consumer = owner := by
  obtain ⟨doc, hdoc, hpair⟩ := List.mem_filterMap.mp (Dict.mem_of_lookup_ofItems h)
  obtain ⟨id, hid⟩ := Dict.mem_values_iff.mp hdoc
  obtain ⟨gid', hgroup, hpair⟩ := Option.map_eq_some_iff.mp hpair
  cases hpair
  exact ⟨id, doc, hid, hgroup, rfl⟩

theorem nodup_groups (hunique : ∀ id id' gid, c.Holds id gid → c.Holds id' gid → id = id') :
    ((c.values.filterMap fun doc => doc.group.map (·, doc.consumer)).map Prod.fst).Nodup := by
  have hentries : c.entries.Pairwise fun e e' => e.1 ≠ e'.1 :=
    List.nodupKeys_iff_pairwise.mp c.nodupKeys
  refine List.pairwise_map.mpr (List.pairwise_filterMap.mpr (List.pairwise_map.mpr ?_))
  refine hentries.imp_of_mem fun {e e'} he he' hne pair hpair pair' hpair' hsame => hne ?_
  obtain ⟨gid, hgroup, rfl⟩ := Option.map_eq_some_iff.mp hpair
  obtain ⟨gid', hgroup', rfl⟩ := Option.map_eq_some_iff.mp hpair'
  obtain rfl : gid = gid' := hsame
  exact hunique e.1 e'.1 gid ⟨e.2, AList.mem_lookup_iff.mpr he, hgroup⟩
    ⟨e'.2, AList.mem_lookup_iff.mpr he', hgroup'⟩

theorem OneGroup.of_unique
    (hshaped : ∀ id gid, c.Holds id gid → guidShape gid.toList = true)
    (hunique : ∀ id id' gid gid', c.Holds id gid → c.Holds id' gid' →
      guidValue gid = guidValue gid' → id = id') : c.OneGroup where
  shaped := hshaped
  unique := hunique
  indexed id doc gid hdoc hgroup := by
    have hkeys := nodup_groups fun id id' gid h h' => hunique id id' gid gid h h' rfl
    rw [groupIndex, Dict.lookup_ofItems hkeys, List.mem_filterMap]
    exact ⟨doc, Dict.mem_values_iff.mpr ⟨id, hdoc⟩, by rw [hgroup, Option.map_some]⟩

theorem OneGroup.of_holds {c' : Registry} (h : c.OneGroup)
    (hsub : ∀ id gid, c'.Holds id gid → c.Holds id gid) : c'.OneGroup :=
  .of_unique (fun id gid hheld => h.shaped id gid (hsub id gid hheld))
    fun id id' gid gid' hheld hheld' => h.unique id id' gid gid' (hsub id gid hheld)
      (hsub id' gid' hheld')

theorem Filed.step (hfiled : c.Filed) (q : Request) : (c.step q).Filed := by
  cases hproposed : c.proposed q with
  | none =>
    rcases step_of_not_proposed hproposed with hstep | ⟨id, hstep⟩
    · rw [hstep]
      exact hfiled
    · rw [hstep]
      intro id' doc hdoc
      rw [Dict.lookup_erase_eq] at hdoc
      split_ifs at hdoc
      exact hfiled id' doc hdoc
  | some doc =>
    rw [step_of_proposed hproposed]
    by_cases hadmitted : c.Admitted doc
    · rw [put_of_admitted hadmitted]
      intro id doc' hdoc'
      simp only [answered, Dict.lookup_insert_eq] at hdoc'
      split_ifs at hdoc' with hid
      · cases hdoc'
        exact hid
      · exact hfiled id doc' hdoc'
    · obtain ⟨e, he⟩ := put_of_not_admitted hadmitted
      rw [he]
      exact hfiled

theorem spelled_of_not_admitted (h : c.OneGroup) (hadmitted : ¬ c.Admitted doc)
    (hgroup : doc.group = some gid) (hmatch : guidMatch gid = true) :
    c.OneSpelling doc.consumer gid := by
  have howner : ∃ owner, (groupIndex c).lookup gid = some owner := by
    by_contra hfree
    refine hadmitted fun gid' hgroup' => ?_
    rw [hgroup] at hgroup'
    cases hgroup'
    exact ⟨hmatch, fun owner howner => absurd ⟨owner, howner⟩ hfree⟩
  obtain ⟨owner, howner⟩ := howner
  obtain ⟨id, holder, hholder, hheld, -⟩ := holder_of_groupIndex howner
  have hholds : c.Holds id gid := ⟨holder, hholder, hheld⟩
  refine ⟨h.shaped id gid hholds, fun id' gid' _ hholds' hvalue => ?_⟩
  rw [h.unique id' id gid' gid hholds' hholds hvalue] at hholds'
  exact hholds'.same hholds

theorem oneGroup_insert_iff (hfiled : c.Filed) (h : c.OneGroup) (hadmitted : c.Admitted doc) :
    OneGroup (c.insert (registryId doc.consumer) doc) ↔
      ∀ gid, doc.group = some gid → c.OneSpelling doc.consumer gid := by
  constructor
  · intro hone gid hgroup
    have hself : Holds (c.insert (registryId doc.consumer) doc) (registryId doc.consumer) gid :=
      holds_insert.mpr (by rwa [if_pos rfl])
    refine ⟨hone.shaped _ gid hself, fun id gid' hid hheld hvalue => ?_⟩
    have hother : Holds (c.insert (registryId doc.consumer) doc) id gid' :=
      holds_insert.mpr (by rwa [if_neg hid])
    exact absurd (hone.unique id _ gid' gid hother hself hvalue) hid
  · intro hspelled
    -- another holder of the value would hold the text, and so be the document's own consumer
    have hfree : ∀ id gid gid', id ≠ registryId doc.consumer → doc.group = some gid →
        c.Holds id gid' → guidValue gid' ≠ guidValue gid := by
      intro id gid gid' hid hgroup hheld hvalue
      have hsame := (hspelled gid hgroup).2 id gid' hid hheld hvalue
      obtain ⟨holder, hholder, hheld⟩ := hheld
      have howner := (hadmitted gid hgroup).2 holder.consumer
        (h.indexed id holder gid hholder (hsame ▸ hheld))
      exact hid (by rw [hfiled id holder hholder, howner])
    refine .of_unique (fun id gid hheld => ?_) fun id id' gid gid' hheld hheld' hvalue => ?_
    · rw [holds_insert] at hheld
      split_ifs at hheld
      · exact (hspelled gid hheld).1
      · exact h.shaped id gid hheld
    · rw [holds_insert] at hheld hheld'
      split_ifs at hheld hheld' with hid hid' hid'
      · rw [hid, hid']
      · exact absurd hvalue.symm (hfree id' gid gid' hid' hheld hheld')
      · exact absurd hvalue (hfree id gid' gid hid hheld' hheld)
      · exact h.unique id id' gid gid' hheld hheld' hvalue

theorem oneGroup_step_iff (hfiled : c.Filed) (h : c.OneGroup) (q : Request) :
    (c.step q).OneGroup ↔ c.Spelled q := by
  cases hproposed : c.proposed q with
  | none =>
    refine iff_of_true ?_ fun doc hdoc => by
      rw [hproposed] at hdoc
      cases hdoc
    rcases step_of_not_proposed hproposed with hstep | ⟨id, hstep⟩
    · rwa [hstep]
    · rw [hstep]
      exact h.of_holds fun id' gid hheld => hheld.of_erase
  | some doc =>
    have hspelled : c.Spelled q ↔ ∀ gid, doc.group = some gid → guidMatch gid = true →
        c.OneSpelling doc.consumer gid := by
      simp only [Spelled, hproposed, Option.some.injEq, forall_eq']
    rw [hspelled, step_of_proposed hproposed]
    by_cases hadmitted : c.Admitted doc
    · rw [put_of_admitted hadmitted]
      refine (oneGroup_insert_iff hfiled h hadmitted).trans (forall₂_congr fun gid hgroup => ?_)
      rw [forall_prop_of_true (hadmitted gid hgroup).1]
    · obtain ⟨e, he⟩ := put_of_not_admitted hadmitted
      rw [he]
      exact iff_of_true h fun gid hgroup hmatch => spelled_of_not_admitted h hadmitted hgroup hmatch

end Held

theorem one_group_iff (requests : List Request) :
    Trace.Always step OneGroup ∅ requests ↔ Trace.Along step Spelled ∅ requests := by
  have hnone : ∀ id gid, ¬ Holds ∅ id gid := by
    rintro id gid ⟨doc, hdoc, -⟩
    exact Dict.lookup_empty_ne id doc hdoc
  have hempty : OneGroup ∅ := .of_unique (fun id gid h => absurd h (hnone id gid))
    fun id id' gid gid' h => absurd h (hnone id gid)
  have hfiled : Filed ∅ := fun id doc hdoc => absurd hdoc (Dict.lookup_empty_ne id doc)
  exact Trace.always_iff_along (D := fun _ _ => True) (fun c q hf _ => hf.step q)
    (fun c q hf h _ => oneGroup_step_iff hf h q) hfiled hempty (Trace.along_trivial ∅ requests)

section Example

def lowerGuid : String := "a3b801e9-1a17-4af8-b1ef-3103a1e0f075"

def upperGuid : String := "A3B801E9-1A17-4AF8-B1EF-3103A1E0F075"

def register (consumer gid : String) : Request :=
  .create { consumer := some consumer, entraGroupId := some gid } "ada" "2026-09-16T12:00:00Z"

def twoTeams : List Request := [register "team-a" lowerGuid, register "team-b" upperGuid]

theorem same_guid_twice :
    Holds (Trace.run step ∅ twoTeams) (registryId "team-a") lowerGuid ∧
      Holds (Trace.run step ∅ twoTeams) (registryId "team-b") upperGuid ∧
      ¬ Trace.Always step OneGroup ∅ twoTeams := by
  have hlower : Holds (Trace.run step ∅ twoTeams) (registryId "team-a") lowerGuid :=
    holds_iff.mpr (by decide +kernel)
  have hupper : Holds (Trace.run step ∅ twoTeams) (registryId "team-b") upperGuid :=
    holds_iff.mpr (by decide +kernel)
  refine ⟨hlower, hupper, fun h => ?_⟩
  have hsame := (h twoTeams [] (List.append_nil _).symm).unique _ _ _ _ hlower hupper
    (by decide +kernel)
  revert hsame
  decide +kernel

end Example

end Registry

end AdminUi
