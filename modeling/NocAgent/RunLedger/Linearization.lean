import NocAgent.RunLedger.Clients
import NocAgent.RunLedger.Expiry

namespace RunLedger

-- Within one version of a run's hash neither the hash nor the prompt list has changed.
def Redis.Extends (s t : Redis) : Prop :=
  ∀ R, s.watch (runKey R) ≤ t.watch (runKey R) ∧
    (t.watch (runKey R) = s.watch (runKey R) →
      t.run R = s.run R ∧ t.prompts.get (promptKey R) = s.prompts.get (promptKey R))

namespace Redis

theorem extends_of_runs {s t : Redis} (hr : Keyspace.Extends s.runs t.runs)
    (hp : ∀ R, t.prompts.get (promptKey R) = s.prompts.get (promptKey R)) : s.Extends t :=
  fun R => ⟨(hr (runKey R)).1, fun hv => ⟨(hr (runKey R)).2 hv, hp R⟩⟩

theorem extends_refl (s : Redis) : s.Extends s :=
  extends_of_runs (Keyspace.Extends.refl _) fun _ => rfl

theorem runs_extends_hincrby (s : Redis) (key : String) (field : Counter) (n : ℤ) :
    Keyspace.Extends s.runs (s.hincrby key field n).runs := Keyspace.extends_put _ _ _

theorem runs_extends_hset (s : Redis) (key : String) (mapping : RunHash) :
    Keyspace.Extends s.runs (s.hset key mapping).runs := Keyspace.extends_put _ _ _

theorem runs_extends_expire (s : Redis) (key : String) (ttl : ℕ) :
    Keyspace.Extends s.runs (s.expire key ttl).runs := Keyspace.extends_expire _ _ _

theorem extends_hset (s : Redis) (key : String) (mapping : RunHash) :
    s.Extends (s.hset key mapping) :=
  extends_of_runs (s.runs_extends_hset key mapping) fun _ => rfl

theorem extends_expire (s : Redis) (key : String) (ttl : ℕ) : s.Extends (s.expire key ttl) :=
  extends_of_runs (s.runs_extends_expire key ttl) fun _ => get_prompts_expire ..

end Redis

namespace RunLedgerService
variable (svc : RunLedgerService)

theorem extends_settle (body : PostcallRequest) (r : Reservation) (s : Redis) :
    s.Extends (svc.settle body r s) := by
  refine Redis.extends_of_runs ?_ fun R => ?_
  · simp only [settle]
    refine Keyspace.Extends.trans ?_ (Redis.runs_extends_expire _ _ _)
    split_ifs
    · exact (Redis.runs_extends_hincrby _ _ _ _).trans
        ((Redis.runs_extends_hincrby _ _ _ _).trans (Redis.runs_extends_hincrby _ _ _ _))
    · exact (Redis.runs_extends_hincrby _ _ _ _).trans (Redis.runs_extends_hincrby _ _ _ _)
  · simp only [settle]
    split_ifs <;> simp

theorem prompts_reserve_of_ne {body : PrecallRequest} {R : String} (hR : R ≠ body.runId)
    (uuid : String) (current : RunHash) (hashes : List String) (d : Decision) (s : Redis) :
    (svc.reserve body uuid current hashes d s).prompts.get (promptKey R) =
      s.prompts.get (promptKey R) := by
  simp [reserve, Redis.lpush, Redis.ltrim, hR]

theorem runs_reserve_extends (body : PrecallRequest) (uuid : String) (current : RunHash)
    (hashes : List String) (d : Decision) (s : Redis) :
    Keyspace.Extends (s.hincrby (runKey body.runId) .inflightMicros d.reserveMicros).runs
      (svc.reserve body uuid current hashes d s).runs :=
  (Redis.runs_extends_hincrby _ _ _ _).trans ((Redis.runs_extends_hset _ _ _).trans
    ((Redis.runs_extends_expire _ _ _).trans (Redis.runs_extends_expire _ _ _)))

theorem extends_reserve (body : PrecallRequest) (uuid : String) (current : RunHash)
    (hashes : List String) (d : Decision) (s : Redis) :
    s.Extends (svc.reserve body uuid current hashes d s) := by
  have hrest := svc.runs_reserve_extends body uuid current hashes d s
  have hall := (s.runs_extends_hincrby (runKey body.runId) .inflightMicros d.reserveMicros).trans
    hrest
  intro R
  refine ⟨(hall (runKey R)).1, fun hv => ⟨(hall (runKey R)).2 hv, ?_⟩⟩
  by_cases hR : R = body.runId
  · subst hR
    have hlt : s.runs.version (runKey body.runId) <
        (s.hincrby (runKey body.runId) .inflightMicros d.reserveMicros).runs.version
          (runKey body.runId) := Keyspace.version_lt_write ..
    have hle := (hrest (runKey body.runId)).1
    change _ = s.runs.version _ at hv
    change _ ≤ (svc.reserve body uuid current hashes d s).watch _ at hle
    omega
  · exact svc.prompts_reserve_of_ne hR uuid current hashes d s

theorem extends_stepClient (uuid : String) (s : Redis) (c : Client) :
    s.Extends (svc.stepClient uuid s c).1 := by
  have heffect := svc.effect_stepClient uuid s c
  generalize (svc.stepClient uuid s c).1 = t at heffect
  cases heffect with
  | idle => exact s.extends_refl
  | initialise body => exact s.extends_hset _ _
  | refresh body current => exact s.extends_expire _ _
  | commit body current hashes d => exact svc.extends_reserve body uuid current hashes d s
  | settle body r => exact svc.extends_settle body r s
  | halt body => exact s.extends_hset _ _

theorem promptHashes_congr {s t : Redis} {R : String}
    (h : t.prompts.get (promptKey R) = s.prompts.get (promptKey R)) :
    svc.promptHashes t R = svc.promptHashes s R := by
  simp only [promptHashes, Redis.lrange, h]

def Snapshot (s : Redis) : Client → Prop
  | .precall body (.watched version) => version ≤ s.watch (runKey body.runId)
  | .precall body (.read version current) =>
    version ≤ s.watch (runKey body.runId) ∧
      (s.watch (runKey body.runId) = version → s.run body.runId = some current)
  | .precall body (.decided version current hashes d) =>
    version ≤ s.watch (runKey body.runId) ∧
      svc.decideOn body current hashes = .ok d ∧ d.action.admits = true ∧
        (s.watch (runKey body.runId) = version →
          s.run body.runId = some current ∧ svc.promptHashes s body.runId = hashes)
  | _ => True

theorem Snapshot.extend {svc : RunLedgerService} {s t : Redis} {c : Client}
    (h : svc.Snapshot s c) (hst : s.Extends t) : svc.Snapshot t c := by
  cases c with
  | precall body pc =>
    obtain ⟨hle, hsame⟩ := hst body.runId
    cases pc with
    | watched version => exact le_trans h hle
    | read version current =>
      obtain ⟨hv, hrun⟩ := h
      refine ⟨hv.trans hle, fun ht => ?_⟩
      rw [(hsame (by omega)).1]
      exact hrun (by omega)
    | decided version current hashes d =>
      obtain ⟨hv, hd, ha, hread⟩ := h
      refine ⟨hv.trans hle, hd, ha, fun ht => ?_⟩
      obtain ⟨hrun, hprompts⟩ := hsame (by omega)
      rw [hrun, svc.promptHashes_congr hprompts]
      exact hread (by omega)
    | start => trivial
    | done result => trivial
  | createRun body pc => trivial
  | postcall body pc => trivial

theorem Snapshot.stepClient {svc : RunLedgerService} {s : Redis} {c : Client}
    (h : svc.Snapshot s c) (uuid : String) :
    svc.Snapshot (svc.stepClient uuid s c).1 (svc.stepClient uuid s c).2 := by
  cases c with
  | precall body pc =>
    change svc.Snapshot (svc.stepPrecall body uuid s pc).1
      (.precall body (svc.stepPrecall body uuid s pc).2)
    cases pc with
    | start => exact le_rfl
    | watched version =>
      simp only [stepPrecall]
      cases hrun : s.hgetall (runKey body.runId) with
      | none => trivial
      | some current => exact ⟨h, fun _ => hrun⟩
    | read version current =>
      obtain ⟨hv, hrun⟩ := h
      simp only [stepPrecall]
      cases hd : svc.decideOn body current (svc.promptHashes s body.runId) with
      | error e => trivial
      | ok d =>
        by_cases ha : d.action.admits = true
        · simp only [ha, if_true]
          exact ⟨hv, hd, ha, fun hs => ⟨hrun hs, rfl⟩⟩
        · simp only [ha]
          trivial
    | decided version current hashes d =>
      simp only [stepPrecall]
      split_ifs <;> trivial
    | done result => trivial
  | createRun body pc => trivial
  | postcall body pc => trivial

end RunLedgerService

structure Commit.Linear {ι : Type} (svc : RunLedgerService) (c : Commit ι) : Prop where
  current : c.store.run c.body.runId = some c.current
  promptHashes : svc.promptHashes c.store c.body.runId = c.promptHashes
  decision : svc.decideOn c.body c.current c.promptHashes = .ok c.decision
  admits : c.decision.action.admits = true

def Reported {ι : Type} (cs : List (Commit ι)) : Client → Prop
  | .precall body (.done (.ok response)) =>
    if response.action.admits then
      ∃ c, cs = [c] ∧ c.body = body ∧ response = RunLedgerService.precallResponse c.decision (some c.uuid)
    else cs = []
  | _ => cs = []

theorem Client.Starting.reported {ι : Type} {c : Client} (hc : c.Starting) :
    Reported ([] : List (Commit ι)) c := by
  cases hc <;> rfl

theorem Client.Starting.snapshot (svc : RunLedgerService) (s : Redis) {c : Client}
    (hc : c.Starting) : svc.Snapshot s c := by
  cases hc <;> trivial

namespace System
variable {ι : Type} {svc : RunLedgerService} {sys : System ι}

theorem mem_commitOf {k : ι} {uuid : String} {c : Commit ι} :
    c ∈ sys.commitOf k uuid ↔
      sys.client k = .precall c.body
          (.decided (sys.redis.watch (runKey c.body.runId)) c.current c.promptHashes c.decision) ∧
        c.client = k ∧ c.uuid = uuid ∧ c.store = sys.redis := by
  constructor
  · intro hc
    unfold commitOf at hc
    split at hc
    · next body version current hashes d hk =>
      split_ifs at hc with hv
      · obtain rfl := List.mem_singleton.mp hc
        exact ⟨by rw [hk, hv], rfl, rfl, rfl⟩
      · cases hc
    · cases hc
  · rintro ⟨hk, rfl, rfl, hs⟩
    unfold commitOf
    rw [hk, ← hs]
    simp

theorem reported_stepClient {k : ι} (uuid : String) {cs : List (Commit ι)}
    (hs : svc.Snapshot sys.redis (sys.client k)) (hr : Reported cs (sys.client k)) :
    Reported (sys.commitOf k uuid ++ cs) (svc.stepClient uuid sys.redis (sys.client k)).2 := by
  unfold commitOf
  cases hk : sys.client k with
  | createRun body pc =>
    rw [hk] at hr
    exact hr
  | postcall body pc =>
    rw [hk] at hr
    exact hr
  | precall body pc =>
    rw [hk] at hr hs
    cases pc with
    | start => exact hr
    | watched version =>
      obtain rfl : cs = [] := hr
      simp only [RunLedgerService.stepClient, RunLedgerService.stepPrecall]
      split <;> rfl
    | read version current =>
      obtain rfl : cs = [] := hr
      simp only [RunLedgerService.stepClient, RunLedgerService.stepPrecall]
      split
      · rfl
      · next d hd =>
        split_ifs with ha
        · rfl
        · simp [Reported, RunLedgerService.precallResponse, ha]
    | decided version current hashes d =>
      obtain rfl : cs = [] := hr
      simp only [RunLedgerService.stepClient, RunLedgerService.stepPrecall]
      split_ifs
      · simp [Reported, RunLedgerService.precallResponse, hs.2.2.1]
      · rfl
    | done result => exact hr

variable [DecidableEq ι]

def UuidUnused (sys : System ι) (l : ι × String) : Prop := ∀ c ∈ sys.commits, c.uuid ≠ l.2

instance (sys : System ι) (l : ι × String) : Decidable (sys.UuidUnused l) :=
  inferInstanceAs (Decidable (∀ c ∈ sys.commits, c.uuid ≠ l.2))

def Atomic (svc : RunLedgerService) (sys : System ι) (l : ι × String) : Prop :=
  match sys.client l.1 with
  | .precall body _ =>
    sys.commitOf l.1 l.2 = [] ∧ (sys.step svc l).redis = sys.redis ∨
      ∃ c, sys.commitOf l.1 l.2 = [c] ∧
        (sys.step svc l).redis = (svc.precall body l.2 sys.redis).1 ∧
        (sys.step svc l).client l.1 = .precall body (.done (svc.precall body l.2 sys.redis).2)
  | _ => sys.commitOf l.1 l.2 = []

structure Coherent (svc : RunLedgerService) (sys : System ι) : Prop where
  snapshot : ∀ k, svc.Snapshot sys.redis (sys.client k)
  commits : ∀ c ∈ sys.commits, c.Linear svc
  reported : ∀ k, Reported (sys.commits.filter (·.client = k)) (sys.client k)

theorem Coherent.start (redis : Redis) {client : ι → Client} (hc : ∀ k, (client k).Starting) :
    Coherent svc (System.start redis client) where
  snapshot k := (hc k).snapshot svc redis
  commits _ h := by cases h
  reported k := (hc k).reported

theorem commitOf_client {k : ι} {uuid : String} (j : ι) :
    (sys.commitOf k uuid).filter (·.client = j) = if j = k then sys.commitOf k uuid else [] := by
  have hmem : ∀ c ∈ sys.commitOf k uuid, c.client = k := fun c hc => (mem_commitOf.mp hc).2.1
  split_ifs with hj
  · rw [List.filter_eq_self]
    intro c hc
    simp [hmem c hc, hj]
  · rw [List.filter_eq_nil_iff]
    intro c hc
    simp [hmem c hc, Ne.symm hj]

theorem Coherent.step (h : Coherent svc sys) (l : ι × String) :
    Coherent svc (sys.step svc l) where
  snapshot := forall_step_client ((h.snapshot l.1).stepClient l.2)
    fun j _ => (h.snapshot j).extend (svc.extends_stepClient l.2 sys.redis (sys.client l.1))
  commits c hc := by
    rcases List.mem_append.mp hc with hc | hc
    · obtain ⟨hk, -, -, hstore⟩ := mem_commitOf.mp hc
      have hs := h.snapshot l.1
      rw [hk] at hs
      obtain ⟨-, hd, ha, hread⟩ := hs
      obtain ⟨hrun, hprompts⟩ := hread rfl
      exact ⟨by rw [hstore, hrun], by rw [hstore, hprompts], hd, ha⟩
    · exact h.commits c hc
  reported j := by
    refine forall_step_client (P := fun j c =>
      Reported ((sys.step svc l).commits.filter (·.client = j)) c) ?_ (fun j hj => ?_) j
    · change Reported ((sys.commitOf l.1 l.2 ++ sys.commits).filter (·.client = l.1)) _
      rw [List.filter_append, commitOf_client, if_pos rfl]
      exact reported_stepClient l.2 (h.snapshot l.1) (h.reported l.1)
    · change Reported ((sys.commitOf l.1 l.2 ++ sys.commits).filter (·.client = j)) _
      rw [List.filter_append, commitOf_client, if_neg hj, List.nil_append]
      exact h.reported j

theorem Coherent.atomic (h : Coherent svc sys) (l : ι × String) : Atomic svc sys l := by
  unfold Atomic
  have hs := h.snapshot l.1
  cases hk : sys.client l.1 with
  | createRun body pc => simp [commitOf, hk]
  | postcall body pc => simp [commitOf, hk]
  | precall body pc =>
    rw [hk] at hs
    have hredis : (sys.step svc l).redis = (svc.stepPrecall body l.2 sys.redis pc).1 := by
      simp only [System.step, hk, RunLedgerService.stepClient]
    have hclient : (sys.step svc l).client l.1 =
        .precall body (svc.stepPrecall body l.2 sys.redis pc).2 := by
      rw [step_client_self, hk, RunLedgerService.stepClient]
    simp only [hredis, hclient, commitOf, hk]
    cases pc with
    | start => exact .inl ⟨rfl, rfl⟩
    | watched version =>
      left
      simp only [RunLedgerService.stepPrecall]
      split <;> exact ⟨trivial, rfl⟩
    | read version current =>
      left
      simp only [RunLedgerService.stepPrecall]
      split
      · exact ⟨trivial, rfl⟩
      · split_ifs <;> exact ⟨trivial, rfl⟩
    | decided version current hashes d =>
      obtain ⟨-, hd, ha, hread⟩ := hs
      by_cases hv : sys.redis.watch (runKey body.runId) = version
      · obtain ⟨hrun, hprompts⟩ := hread hv
        have hadm : svc.admission body sys.redis = some (current, d) :=
          svc.admission_eq_some.mpr ⟨hrun, by rw [hprompts, hd], ha⟩
        right
        simp only [RunLedgerService.stepPrecall, if_pos hv, svc.precall_some hadm, hprompts]
        exact ⟨_, rfl, trivial, trivial⟩
      · left
        simp only [RunLedgerService.stepPrecall, if_neg hv]
        exact ⟨trivial, trivial⟩
    | done result => exact .inl ⟨rfl, rfl⟩

theorem commits_nodup_step (hn : (sys.commits.map Commit.uuid).Nodup) {l : ι × String}
    (hl : sys.UuidUnused l) : ((sys.step svc l).commits.map Commit.uuid).Nodup := by
  change ((sys.commitOf l.1 l.2 ++ sys.commits).map Commit.uuid).Nodup
  cases hc : sys.commitOf l.1 l.2 with
  | nil => exact hn
  | cons c cs =>
    have hcs : cs = [] := by
      unfold commitOf at hc
      split at hc
      · split_ifs at hc
        exact (List.cons.inj hc).2.symm
      · cases hc
    have hmem : c ∈ sys.commitOf l.1 l.2 := by simp [hc]
    rw [hcs, List.singleton_append, List.map_cons, List.nodup_cons]
    refine ⟨fun hin => ?_, hn⟩
    obtain ⟨c', hc', he⟩ := List.mem_map.mp hin
    exact hl c' hc' (he.trans (mem_commitOf.mp hmem).2.2.1)

end System

structure Linearizable {ι : Type} [DecidableEq ι] (svc : RunLedgerService) (sys : System ι) :
    Prop where
  commits : ∀ c ∈ sys.commits, c.Linear svc
  returned : ∀ k body response, sys.client k = .precall body (.done (.ok response)) →
    response.action.admits = true →
      ∃ c, sys.commits.filter (·.client = k) = [c] ∧ c.body = body ∧
        response = RunLedgerService.precallResponse c.decision (some c.uuid)
  distinct : (sys.commits.map Commit.uuid).Nodup

theorem RunLedgerService.precall_linearizable {ι : Type} [DecidableEq ι] (svc : RunLedgerService)
    (redis : Redis) {client : ι → Client} (hc : ∀ k, (client k).Starting)
    {schedule : List (ι × String)}
    (hu : Trace.Along (System.step svc) System.UuidUnused (System.start redis client) schedule) :
    Linearizable svc (Trace.run (System.step svc) (System.start redis client) schedule) ∧
      Trace.Along (System.step svc) (System.Atomic svc) (System.start redis client) schedule := by
  have hall : Trace.Always (System.step svc) (System.Coherent svc) (System.start redis client)
      schedule :=
    Trace.always_of_invariant (fun _ l h _ => h.step l) (System.Coherent.start redis hc) hu
  have hend := hall schedule [] (List.append_nil _).symm
  refine ⟨⟨hend.commits, fun k body response hk ha => ?_, ?_⟩,
    (Trace.along_iff _ _).mpr fun pre l post hls => (hall pre (l :: post) hls).atomic l⟩
  · have hrep := hend.reported k
    rw [hk] at hrep
    simpa only [Reported, ha, if_true] using hrep
  · exact Trace.invariant (I := fun sys => (sys.commits.map Commit.uuid).Nodup)
      (fun _ _ hn hl => System.commits_nodup_step hn hl) List.nodup_nil hu

section Example

def retryingPrecalls : List (Bool × String) :=
  [(false, "u"), (false, "u"), (false, "u"), (true, "v"), (true, "v"), (true, "v"), (true, "v"),
    (false, "u"), (false, "u"), (false, "u"), (false, "u"), (false, "u")]

theorem precall_linearizable_retried :
    Linearizable demoService (Trace.run (System.step demoService)
        (System.start (demoService.createRun demoRun .empty).1 fun _ : Bool =>
          .precall demoPrecall .start) retryingPrecalls) ∧
      Trace.Along (System.step demoService) (System.Atomic demoService)
        (System.start (demoService.createRun demoRun .empty).1 fun _ : Bool =>
          .precall demoPrecall .start) retryingPrecalls :=
  demoService.precall_linearizable _ (fun _ => .precall demoPrecall) (by decide +kernel)

end Example

end RunLedger
