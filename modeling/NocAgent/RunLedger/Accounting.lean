import NocAgent.RunLedger.Ledger

namespace RunLedger

def inflightOf (runId : String) (r : Reservation) : ℤ :=
  if r.runId = runId then r.reservedMicros else 0

def countOf (runId : String) (r : Reservation) : ℤ := if r.runId = runId then 1 else 0

def BalancedAt (R : String) (s : Redis) : Prop :=
  ∀ h, s.run R = some h →
    toInt h.inflightMicros = s.reservations.total (inflightOf R) ∧
      toInt h.concurrent = s.reservations.total (countOf R)

def Balanced (s : Redis) : Prop := ∀ R, BalancedAt R s

def Owned (s : Redis) : Prop := ∀ k r, s.reservations.get k = some r → s.run r.runId ≠ none

def Covered (s : Redis) : Prop :=
  ∀ k r, s.reservations.get k = some r → 0 ≤ r.reservedMicros

theorem countOf_nonneg (R : String) (r : Reservation) : 0 ≤ countOf R r := by
  unfold countOf
  split_ifs <;> simp

theorem Balanced.of_same {s t : Redis} (hb : Balanced s)
    (hrun : ∀ R h', t.run R = some h' → ∃ h, s.run R = some h ∧
      toInt h'.inflightMicros = toInt h.inflightMicros ∧ toInt h'.concurrent = toInt h.concurrent)
    (hres : ∀ k, t.reservations.get k = s.reservations.get k) : Balanced t := by
  intro R h' hR
  obtain ⟨h, hs, hin, hco⟩ := hrun R h' hR
  rw [hin, hco, Keyspace.total_congr _ hres, Keyspace.total_congr _ hres]
  exact hb R h hs

theorem total_eq_zero_of_run_none {s : Redis} (ho : Owned s) {R : String} (hR : s.run R = none) :
    s.reservations.total (inflightOf R) = 0 ∧ s.reservations.total (countOf R) = 0 := by
  have hne : ∀ k r, s.reservations.get k = some r → r.runId ≠ R := by
    rintro k r hk rfl
    exact ho k r hk hR
  exact ⟨Keyspace.total_eq_zero fun k r hk => if_neg (hne k r hk),
    Keyspace.total_eq_zero fun k r hk => if_neg (hne k r hk)⟩

theorem Covered.total_inflightOf_nonneg {s : Redis} (hc : Covered s) (R : String) :
    0 ≤ s.reservations.total (inflightOf R) := by
  refine Keyspace.total_nonneg fun k r hk => ?_
  have := hc k r hk
  unfold inflightOf
  split_ifs <;> omega

theorem Covered.of_subset {s t : Redis} (hc : Covered s)
    (h : ∀ k r, t.reservations.get k = some r → s.reservations.get k = some r) : Covered t :=
  fun k r hk => hc k r (h k r hk)

namespace RunLedgerService
variable (svc : RunLedgerService)

theorem admission_reserveMicros_nonneg (hp : svc.settings.PricesNonneg) {body : PrecallRequest}
    {s : Redis} {current : RunHash} {d : Decision}
    (h : svc.admission body s = some (current, d)) : 0 ≤ d.reserveMicros :=
  have hd := (svc.admission_eq_some.mp h).2
  decide_reserveMicros_nonneg (hp body.model) hd.1 hd.2

theorem covered_reserve {s : Redis} (hc : Covered s) {d : Decision} (hd : 0 ≤ d.reserveMicros)
    (body : PrecallRequest) (uuid : String) (current : RunHash) (hashes : List String) :
    Covered (svc.reserve body uuid current hashes d s) := by
  intro k r hk
  rw [reservations_reserve] at hk
  split_ifs at hk
  · cases hk
    exact hd
  · exact hc k r hk

theorem covered_settle {s : Redis} (hc : Covered s) (body : PostcallRequest) (r : Reservation) :
    Covered (svc.settle body r s) := by
  refine hc.of_subset fun k r' hk => ?_
  rw [reservations_settle] at hk
  split_ifs at hk
  exact hk

theorem balanced_createRun {s : Redis} (ho : Owned s) (hb : Balanced s)
    (body : RunCreateRequest) : Balanced (svc.createRun body s).1 := by
  intro R h hR
  have hres := svc.reservations_createRun body s
  rw [Keyspace.total_congr _ hres, Keyspace.total_congr _ hres]
  rw [run_createRun] at hR
  split_ifs at hR with hRb
  · subst hRb
    cases hrun : s.run body.runId with
    | none =>
      obtain ⟨hin, hco⟩ := total_eq_zero_of_run_none ho hrun
      rw [hrun] at hR
      cases hR
      rw [hin, hco]
      exact ⟨rfl, rfl⟩
    | some h' =>
      rw [hrun] at hR
      cases hR
      exact hb _ _ hrun
  · exact hb R h hR

theorem balancedAt_reserve {s : Redis} {R : String} (hb : BalancedAt R s) {body : PrecallRequest}
    {uuid : String} (hfresh : s.resv uuid = none) (hrun : body.runId = R → s.run R ≠ none)
    (current : RunHash) (hashes : List String) (d : Decision) :
    BalancedAt R (svc.reserve body uuid current hashes d s) := by
  intro h' hR
  rw [total_reserve, total_reserve, hfresh]
  rw [run_reserve] at hR
  split_ifs at hR with hRb
  · subst hRb
    obtain ⟨h, hrun⟩ := Option.ne_none_iff_exists'.mp (hrun rfl)
    rw [hrun] at hR
    cases hR
    obtain ⟨hin, hco⟩ := hb _ hrun
    simp [inflightOf, countOf, hin, hco]
  · have hne : body.runId ≠ R := fun e => hRb e.symm
    simpa [inflightOf, countOf, hne] using hb h' hR

theorem balanced_reserve {s : Redis} (hb : Balanced s) {body : PrecallRequest} {uuid : String}
    (hfresh : s.resv uuid = none) (hrun : s.run body.runId ≠ none) (current : RunHash)
    (hashes : List String) (d : Decision) :
    Balanced (svc.reserve body uuid current hashes d s) :=
  fun R => svc.balancedAt_reserve (hb R) hfresh (fun hR => hR ▸ hrun) current hashes d

theorem balancedAt_settle {s : Redis} {R : String} (hb : BalancedAt R s) {body : PostcallRequest}
    {r : Reservation} (hr : s.resv body.reservationId = some r) (hname : r.runId = body.runId)
    (hrun : body.runId = R → s.run R ≠ none) : BalancedAt R (svc.settle body r s) := by
  intro h' hR
  rw [total_settle, total_settle, hr, Option.elim_some, Option.elim_some]
  rw [run_settle] at hR
  split_ifs at hR with hRb
  · subst hRb
    obtain ⟨h, hrun⟩ := Option.ne_none_iff_exists'.mp (hrun rfl)
    rw [hrun] at hR
    cases hR
    obtain ⟨hin, hco⟩ := hb _ hrun
    simp [inflightOf, countOf, hname, hin, hco]
  · have hne : r.runId ≠ R := fun e => hRb (e.symm.trans hname)
    simpa [inflightOf, countOf, hne] using hb h' hR

theorem balanced_settle_iff {s : Redis} (ho : Owned s) (hb : Balanced s) {body : PostcallRequest}
    {r : Reservation} (hr : s.resv body.reservationId = some r) :
    Balanced (svc.settle body r s) ↔ r.runId = body.runId := by
  constructor
  · intro hafter
    by_contra hne
    obtain ⟨h, hrun⟩ := Option.ne_none_iff_exists'.mp (ho _ r hr)
    have hsame : (svc.settle body r s).run r.runId = some h := by
      rw [run_settle, if_neg hne, hrun]
    have hbefore := (hb _ _ hrun).2
    have hthen := (hafter _ _ hsame).2
    rw [total_settle, hr, Option.elim_some, countOf, if_pos rfl] at hthen
    omega
  · exact fun hname R => svc.balancedAt_settle (hb R) hr hname fun hR =>
      hR ▸ hname ▸ ho _ r hr

theorem balancedAt_hset_costHalt {s : Redis} {R : String} (hb : BalancedAt R s)
    (hnone : s.run R = none →
      s.reservations.total (inflightOf R) = 0 ∧ s.reservations.total (countOf R) = 0)
    (runId : String) : BalancedAt R (s.hset (runKey runId) costHalt) := by
  intro h hR
  rw [run_hset_costHalt] at hR
  split_ifs at hR with hRr
  · subst hRr
    cases hrun : s.run R with
    | none =>
      obtain ⟨hin, hco⟩ := hnone hrun
      rw [hrun] at hR
      cases hR
      exact ⟨hin.symm, hco.symm⟩
    | some h' =>
      rw [hrun] at hR
      cases hR
      exact hb h' hrun
  · exact hb h hR

theorem balanced_halt_iff (s : Redis) (runId : String) :
    Balanced (haltIfOverspent runId s) ↔ Balanced s := by
  have hres : ∀ k, (haltIfOverspent runId s).reservations.get k = s.reservations.get k := by simp
  have hrun : ∀ R, (haltIfOverspent runId s).run R =
      if R = runId then (s.run R).map closedHash else s.run R := by
    intro R
    rw [run_haltIfOverspent]
    split_ifs with h <;> simp [h]
  constructor
  · refine fun hb => hb.of_same (fun R h hR => ?_) fun k => (hres k).symm
    by_cases hRr : R = runId
    · exact ⟨closedHash h, by rw [hrun, if_pos hRr, hR, Option.map_some], by simp, by simp⟩
    · exact ⟨h, by rw [hrun, if_neg hRr, hR], rfl, rfl⟩
  · refine fun hb => hb.of_same (fun R h' hR => ?_) hres
    rw [hrun] at hR
    split_ifs at hR
    · obtain ⟨h, hs, rfl⟩ := Option.map_eq_some_iff.mp hR
      exact ⟨h, hs, by simp, by simp⟩
    · exact ⟨h', hR, rfl, rfl⟩

theorem balanced_postcall_iff {s : Redis} (ho : Owned s) (hb : Balanced s)
    (body : PostcallRequest) :
    Balanced (svc.postcall body s) ↔
      ∀ r, s.resv body.reservationId = some r → r.runId = body.runId := by
  cases hr : s.resv body.reservationId with
  | none => simp [svc.postcall_of_resv_none hr, hb]
  | some r =>
    have hget : s.get (reservationKey body.reservationId) = some r := hr
    simp [postcall, hget, balanced_halt_iff, svc.balanced_settle_iff ho hb hr]

theorem owned_createRun {s : Redis} (ho : Owned s) (body : RunCreateRequest) :
    Owned (svc.createRun body s).1 := by
  intro k r hk
  rw [reservations_createRun] at hk
  rw [run_createRun]
  split_ifs
  · simp
  · exact ho k r hk

theorem owned_reserve {s : Redis} (ho : Owned s) (body : PrecallRequest) (uuid : String)
    (current : RunHash) (hashes : List String) (d : Decision) :
    Owned (svc.reserve body uuid current hashes d s) := by
  intro k r hk
  rw [run_reserve]
  split_ifs with hrb
  · simp
  · rw [reservations_reserve] at hk
    split_ifs at hk
    · cases hk
      exact absurd rfl hrb
    · exact ho k r hk

theorem owned_settle {s : Redis} (ho : Owned s) (body : PostcallRequest) (r : Reservation) :
    Owned (svc.settle body r s) := by
  intro k r' hk
  rw [reservations_settle] at hk
  rw [run_settle]
  split_ifs at hk ⊢
  · simp
  · exact ho k r' hk

theorem owned_halt {s : Redis} (ho : Owned s) (runId : String) :
    Owned (haltIfOverspent runId s) := by
  intro k r hk
  rw [reservations_haltIfOverspent] at hk
  rw [run_haltIfOverspent]
  split_ifs with hR
  · rw [← hR]
    simpa using ho k r hk
  · exact ho k r hk

theorem owned_postcall {s : Redis} (ho : Owned s) (body : PostcallRequest) :
    Owned (svc.postcall body s) := by
  cases hr : s.resv body.reservationId with
  | none => rwa [svc.postcall_of_resv_none hr]
  | some r =>
    have hget : s.get (reservationKey body.reservationId) = some r := hr
    simp only [postcall, hget]
    exact owned_halt (svc.owned_settle ho body r) body.runId

end RunLedgerService

end RunLedger
