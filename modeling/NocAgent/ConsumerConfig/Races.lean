import NocAgent.ConsumerConfig.LastWriter

namespace ConsumerConfig
open Pricing

-- A client of the container: it reads once, computes, and then upserts what it computed.
inductive Client where
  | put (consumer : String) (incoming : ConsumerConfigRequest)
  | worker (query : UsageQuery) (pricing : Dict Rate) (nowIso : String)

namespace Client
variable (s : Settings) (c : Container)

def bodies : Client → List Doc
  | .put consumer incoming =>
    let body := mergedDoc (ConsumerConfigStore.get c consumer) consumer incoming
    if incoming = {} then []
    else
      match validate body.toFields s.aliases with
      | .error _ => []
      | .ok _ => [body]
  | .worker query pricing nowIso =>
    match queryUsage query with
    | .error _ => []
    | .ok usage => (evaluateDowngrades usage pricing nowIso (queryItems c)).values

def alone : Client → Container
  | .put consumer incoming => (putConsumerConfig s c consumer incoming).1
  | .worker query pricing nowIso => syncBudgetDowngrades query pricing nowIso c

theorem alone_eq (client : Client) : client.alone s c = (client.bodies s c).foldl upsertItem c := by
  cases client with
  | put consumer incoming =>
    simp only [alone, bodies, putConsumerConfig, ConsumerConfigStore.put, mergedDoc]
    split_ifs
    · rfl
    · cases validate ((kept (ConsumerConfigStore.get c consumer)).update incoming) s.aliases <;> rfl
  | worker query pricing nowIso =>
    simp only [alone, bodies, syncBudgetDowngrades_eq]
    cases queryUsage query <;> rfl

end Client

inductive ClientPhase where
  | idle
  | writing (pending : List Doc)

-- What the document of a consumer should hold: the operator's fields and the worker's level.
structure Intended where
  fields : ConsumerConfigRequest
  downgrade : Option ActiveDowngrade
deriving DecidableEq

structure Race (ι : Type) where
  container : Container
  phase : ι → ClientPhase
  intended : String → Intended

def Intended.record (intended : Intended) (body : Doc) : Client → Intended
  | .put _ incoming => { intended with fields := incoming.over intended.fields }
  | .worker .. => { intended with downgrade := body.activeDowngrade }

namespace Race
variable {ι : Type} (s : Settings) (clients : ι → Client)

def start (c : Container) : Race ι where
  container := c
  phase _ := .idle
  intended consumer :=
    ⟨operatorFields (ConsumerConfigStore.get c consumer),
      downgradeOf (ConsumerConfigStore.get c consumer)⟩

def step [DecidableEq ι] (r : Race ι) (i : ι) : Race ι :=
  match r.phase i with
  | .idle =>
    { r with phase := Function.update r.phase i (.writing ((clients i).bodies s r.container)) }
  | .writing [] => r
  | .writing (body :: pending) =>
    let consumer := body.consumer.getD ""
    { container := upsertItem r.container body
      phase := Function.update r.phase i (.writing pending)
      intended := Function.update r.intended consumer
        ((r.intended consumer).record body (clients i)) }

def stored (r : Race ι) (consumer : String) : Intended where
  fields := operatorFields (ConsumerConfigStore.get r.container consumer)
  downgrade := downgradeOf (ConsumerConfigStore.get r.container consumer)

def NothingLost (r : Race ι) : Prop := ∀ consumer, r.stored consumer = r.intended consumer

-- The body holds what is stored now in the fields that its client does not set.
def Carries (r : Race ι) (body : Doc) : Client → Prop
  | .put _ incoming =>
    operatorFields (some body) =
        incoming.over (r.stored (body.consumer.getD "")).fields ∧
      body.activeDowngrade = (r.stored (body.consumer.getD "")).downgrade
  | .worker .. => operatorFields (some body) = (r.stored (body.consumer.getD "")).fields

def Fresh (r : Race ι) (i : ι) : Prop :=
  ∀ body pending, r.phase i = .writing (body :: pending) → r.Carries body (clients i)

instance (r : Race ι) (body : Doc) (client : Client) : Decidable (r.Carries body client) :=
  match client with
  | .put .. => inferInstanceAs (Decidable (_ ∧ _))
  | .worker .. => inferInstanceAs (Decidable (_ = _))

instance decidableFresh (r : Race ι) (i : ι) : Decidable (r.Fresh clients i) :=
  match hi : r.phase i with
  | .idle | .writing [] => isTrue fun _ _ hbody => nomatch hi.symm.trans hbody
  | .writing (body :: pending) =>
    decidable_of_iff (r.Carries body (clients i))
      ⟨fun h _ _ hbody => by cases hi.symm.trans hbody; exact h, fun h => h body pending hi⟩

structure Filed (r : Race ι) : Prop where
  wellFormed : WellFormed r.container
  pending : ∀ i bodies, r.phase i = .writing bodies → ∀ body ∈ bodies, ∃ consumer,
    body.FiledUnder consumer

theorem start_filed {c : Container} (hc : WellFormed c) : (start c : Race ι).Filed :=
  ⟨hc, fun i bodies h => by cases h⟩

variable {s clients} {r : Race ι} {i : ι}

theorem carries_iff {body : Doc} {consumer : String} (hfiled : body.FiledUnder consumer)
    (h : r.NothingLost) (client : Client) : r.Carries body client ↔
      ⟨operatorFields (some body), body.activeDowngrade⟩ =
        (r.intended consumer).record body client := by
  have hstored : r.stored (body.consumer.getD "") = r.intended consumer := by
    rw [hfiled.consumer, Option.getD_some, h consumer]
  cases client <;> simp only [Carries, Intended.record, hstored, Intended.mk.injEq, and_true]

variable [DecidableEq ι]

theorem bodies_filed {c : Container} (hc : WellFormed c) (client : Client) :
    ∀ body ∈ client.bodies s c, ∃ consumer, body.FiledUnder consumer := by
  intro body hbody
  cases client with
  | put consumer incoming =>
    simp only [Client.bodies] at hbody
    split at hbody
    · cases hbody
    · split at hbody
      · cases hbody
      · cases List.mem_singleton.mp hbody
        exact ⟨consumer, mergedDoc_filedUnder ..⟩
  | worker query pricing nowIso =>
    simp only [Client.bodies] at hbody
    split at hbody
    · cases hbody
    · obtain ⟨consumer, hconsumer⟩ := Dict.mem_values_iff.mp hbody
      obtain ⟨doc, hdoc, hentry⟩ :=
        (lookup_evaluateDowngrades (distinct_queryItems hc)).mp hconsumer
      obtain ⟨named, -, hfiled⟩ := (mem_queryItems hc).mp hdoc
      rw [← evaluated_of_some hentry]
      exact ⟨named, hfiled.evaluated⟩

theorem step_idle (hi : r.phase i = .idle) : step s clients r i =
    { r with
      phase := Function.update r.phase i (.writing ((clients i).bodies s r.container)) } := by
  rw [step, hi]

theorem step_written (hi : r.phase i = .writing []) : step s clients r i = r := by
  rw [step, hi]

theorem step_writing {body : Doc} {pending : List Doc}
    (hi : r.phase i = .writing (body :: pending)) : step s clients r i =
    { container := upsertItem r.container body
      phase := Function.update r.phase i (.writing pending)
      intended := Function.update r.intended (body.consumer.getD "")
        ((r.intended (body.consumer.getD "")).record body (clients i)) } := by
  rw [step, hi]

theorem pending_update {bodies : List Doc} (hr : r.Filed)
    (hbodies : ∀ body ∈ bodies, ∃ consumer, body.FiledUnder consumer) (j : ι) (bodies' : List Doc)
    (hj : Function.update r.phase i (.writing bodies) j = .writing bodies') :
    ∀ body ∈ bodies', ∃ consumer, body.FiledUnder consumer := by
  rw [Function.update_apply] at hj
  split_ifs at hj
  · cases hj
    exact hbodies
  · exact hr.pending j bodies' hj

theorem Filed.step (hr : r.Filed) : (Race.step s clients r i).Filed := by
  cases hi : r.phase i with
  | idle =>
    rw [step_idle hi]
    exact ⟨hr.wellFormed, pending_update hr (bodies_filed hr.wellFormed (clients i))⟩
  | writing bodies =>
    cases bodies with
    | nil =>
      rw [step_written hi]
      exact hr
    | cons body pending =>
      rw [step_writing hi]
      obtain ⟨consumer, hfiled⟩ := hr.pending i _ hi body List.mem_cons_self
      exact ⟨hr.wellFormed.upsertItem hfiled, pending_update hr fun body' hbody' =>
        hr.pending i _ hi body' (List.mem_cons_of_mem _ hbody')⟩

theorem stored_writing {body : Doc} {pending : List Doc} {consumer : String}
    (hi : r.phase i = .writing (body :: pending)) (hfiled : body.FiledUnder consumer)
    (named : String) : (Race.step s clients r i).stored named =
      if named = consumer then ⟨operatorFields (some body), body.activeDowngrade⟩
      else r.stored named := by
  rw [step_writing hi]
  simp only [stored, get_upsertItem _ _ hfiled.id]
  split_ifs <;> rfl

theorem intended_writing {body : Doc} {pending : List Doc} {consumer : String}
    (hi : r.phase i = .writing (body :: pending)) (hfiled : body.FiledUnder consumer)
    (named : String) : (Race.step s clients r i).intended named =
      if named = consumer then (r.intended consumer).record body (clients i)
      else r.intended named := by
  rw [step_writing hi, hfiled.consumer]
  exact Function.update_apply ..

theorem nothingLost_step_iff (hr : r.Filed) (h : r.NothingLost) :
    (Race.step s clients r i).NothingLost ↔ r.Fresh clients i := by
  cases hi : r.phase i with
  | idle =>
    rw [step_idle hi]
    refine ⟨fun _ body pending hbody => ?_, fun _ => h⟩
    rw [hi] at hbody
    cases hbody
  | writing bodies =>
    cases bodies with
    | nil =>
      rw [step_written hi]
      refine ⟨fun _ body pending hbody => ?_, fun _ => h⟩
      rw [hi] at hbody
      cases hbody
    | cons body pending =>
      obtain ⟨consumer, hfiled⟩ := hr.pending i _ hi body List.mem_cons_self
      have hfresh : r.Fresh clients i ↔ r.Carries body (clients i) := by
        refine ⟨fun hf => hf body pending hi, fun hc body' pending' hbody' => ?_⟩
        rw [hi] at hbody'
        cases hbody'
        exact hc
      rw [hfresh, carries_iff hfiled h]
      constructor
      · intro hnext
        have hconsumer := hnext consumer
        rwa [stored_writing hi hfiled, intended_writing hi hfiled, if_pos rfl, if_pos rfl]
          at hconsumer
      · intro hbody named
        rw [stored_writing hi hfiled, intended_writing hi hfiled]
        split_ifs
        · exact hbody
        · exact h named

theorem nothing_lost_iff (s : Settings) (clients : ι → Client) {c : Container}
    (hc : WellFormed c) (schedule : List ι) :
    Trace.Always (step s clients) NothingLost (start c) schedule ↔
      Trace.Along (step s clients) (Fresh clients) (start c) schedule :=
  Trace.always_iff_along (J := Filed) (D := fun _ _ => True) (fun _ _ hr _ => hr.step)
    (fun _ _ hr h _ => nothingLost_step_iff hr h) (start_filed hc) (fun _ => rfl)
    (Trace.along_trivial _ _)

section Example

def settings : Settings := ⟨[], none⟩

def budgeted : ConsumerConfigRequest where
  dailyBudgetUsd := some 10
  downgradeLadder := some ["gpt-5.4", "gpt-5.4-mini"]

def overBudget : UsageQuery :=
  .success [[⟨some "noc", some "gpt-5.4", some "prompt", some 20000⟩]]

def three : ℕ → Client
  | 0 => .put "noc" budgeted
  | 1 => .put "noc" { tier := some "small" }
  | _ => .worker overBudget (AList.singleton "gpt-5.4" ⟨1, 1⟩) "2026-01-01T00:00:00+00:00"

theorem nothing_lost_iff_in_turn :
    Trace.Always (step settings three) NothingLost (start ∅) [0, 0, 1, 1, 2, 2] :=
  (nothing_lost_iff settings three WellFormed.empty [0, 0, 1, 1, 2, 2]).mpr (by decide +kernel)

-- The second PUT reads before the worker's upsert and writes after it.
theorem level_change_is_lost :
    (Trace.run (step settings three) (start ∅) [0, 0, 1, 2, 2, 1]).stored "noc" =
        ⟨{ budgeted with tier := some "small" }, none⟩ ∧
      ¬ Trace.Always (step settings three) NothingLost (start ∅) [0, 0, 1, 2, 2, 1] := by
  refine ⟨by decide +kernel, fun h => ?_⟩
  have hlevel := congrArg (·.downgrade) (h _ [] (List.append_nil _).symm "noc")
  revert hlevel
  decide +kernel

end Example

end Race

end ConsumerConfig
