import NocAgent.BudgetLease.Ledger

namespace BudgetLease

inductive LedgerOp (T : Type) where
  | grant (sizeMicros : ℤ) (now ttl : T)
  | reclaimExpired (now : T)
  | settle (token spentMicros unusedMicros : ℤ)
deriving DecidableEq, Repr

-- The three lists are not in the program: they hold every token handed out, settled with a
-- positive answer, or reclaimed, the latest first.
structure History (T : Type) where
  ledger : Ledger T
  granted : List ℤ := []
  settled : List ℤ := []
  reclaimed : List ℤ := []
deriving DecidableEq, Repr

namespace History
variable {T : Type}

def start (budgetMicros : ℤ) : History T := { ledger := { budgetMicros := budgetMicros } }

structure Fenced (h : History T) : Prop where
  ledger : h.ledger.Fenced
  below : ∀ t ∈ h.granted, t < h.ledger.nextToken
  increasing : h.granted.Pairwise fun later earlier => earlier < later
  live : ∀ t, t ∈ h.ledger.tokens ↔ t ∈ h.granted ∧ t ∉ h.settled ++ h.reclaimed
  once : (h.settled ++ h.reclaimed).Nodup
  known : ∀ t ∈ h.settled ++ h.reclaimed, t ∈ h.granted

theorem fenced_start (budgetMicros : ℤ) : (start budgetMicros : History T).Fenced where
  ledger := Ledger.fenced_fresh budgetMicros
  below _ h := by cases h
  increasing := .nil
  live t := by simp [start]
  once := .nil
  known _ h := by cases h

theorem Fenced.issue [Add T] {h : History T} (hf : h.Fenced) (size : ℤ) (now ttl : T) :
    Fenced
      { h with
        ledger := h.ledger.issue (h.ledger.nextGrant size now ttl)
        granted := h.ledger.nextToken :: h.granted } := by
  have hfresh : h.ledger.nextToken ∉ h.granted := fun hm => lt_irrefl _ (hf.below _ hm)
  refine ⟨hf.ledger.issue size now ttl, fun t ht => ?_, ?_, fun t => ?_, hf.once, fun t ht => ?_⟩
  · change t < h.ledger.nextToken + 1
    rcases List.mem_cons.mp ht with rfl | ht
    · exact Int.lt_succ _
    · exact (hf.below t ht).trans (Int.lt_succ _)
  · exact List.pairwise_cons.mpr ⟨fun t ht => hf.below t ht, hf.increasing⟩
  · have hnew : t ∈ (h.ledger.issue (h.ledger.nextGrant size now ttl)).tokens ↔
        t ∈ h.ledger.tokens ∨ t = h.ledger.nextToken := Ledger.mem_tokens_issue
    change _ ↔ t ∈ h.ledger.nextToken :: h.granted ∧ t ∉ h.settled ++ h.reclaimed
    rw [hnew, hf.live t, List.mem_cons]
    constructor
    · rintro (⟨hg, hn⟩ | rfl)
      · exact ⟨.inr hg, hn⟩
      · exact ⟨.inl rfl, fun hm => hfresh (hf.known _ hm)⟩
    · rintro ⟨rfl | hg, hn⟩
      · exact .inr rfl
      · exact .inl ⟨hg, hn⟩
  · exact List.mem_cons_of_mem _ (hf.known t ht)

variable [LE T] [DecidableLE T]

def reclaimExpired (h : History T) (now : T) : History T :=
  { h with
    ledger := (h.ledger.reclaimExpired now).1
    reclaimed := (h.ledger.expired now).map Grant.token ++ h.reclaimed }

def step [Add T] (h : History T) : LedgerOp T → History T
  | .grant size now ttl =>
    { h.reclaimExpired now with
      ledger := (h.ledger.grant size now ttl).1
      granted :=
        match (h.ledger.grant size now ttl).2 with
        | .ok g => g.token :: h.granted
        | .error _ => h.granted }
  | .reclaimExpired now => h.reclaimExpired now
  | .settle token spent unused =>
    { h with
      ledger := (h.ledger.settle token spent unused).1
      settled :=
        if (h.ledger.settle token spent unused).2 then token :: h.settled else h.settled }

section Step
variable {h : History T}

theorem Fenced.reclaimExpired (hf : h.Fenced) (now : T) : (h.reclaimExpired now).Fenced := by
  have hexp : ∀ t ∈ (h.ledger.expired now).map Grant.token, t ∈ h.ledger.tokens := by
    intro t ht
    exact ((List.filter_sublist ..).map Grant.token).subset ht
  have hmem : ∀ t, t ∈ h.settled ++ ((h.ledger.expired now).map Grant.token ++ h.reclaimed) ↔
      t ∈ (h.ledger.expired now).map Grant.token ∨ t ∈ h.settled ++ h.reclaimed := by
    intro t
    simp only [List.mem_append]
    tauto
  refine ⟨hf.ledger.reclaimExpired now, ?_, hf.increasing, fun t => ?_, ?_, fun t ht => ?_⟩
  · intro t ht
    change t < (h.ledger.reclaimExpired now).1.nextToken
    rw [Ledger.reclaimExpired_fst hf.ledger]
    exact hf.below t ht
  · change t ∈ (h.ledger.reclaimExpired now).1.tokens ↔ t ∈ h.granted ∧
      t ∉ h.settled ++ ((h.ledger.expired now).map Grant.token ++ h.reclaimed)
    rw [Ledger.mem_tokens_reclaimExpired, hf.live, hmem]
    tauto
  · have hperm : (h.settled ++ ((h.ledger.expired now).map Grant.token ++ h.reclaimed)).Perm
        ((h.ledger.expired now).map Grant.token ++ (h.settled ++ h.reclaimed)) :=
      List.perm_append_comm_assoc ..
    refine hperm.nodup_iff.mpr (List.nodup_append.mpr ⟨?_, hf.once, fun a ha b hb he => ?_⟩)
    · exact hf.ledger.distinct.sublist ((List.filter_sublist ..).map Grant.token)
    · subst he
      exact ((hf.live a).mp (hexp a ha)).2 hb
  · rcases (hmem t).mp ht with ht | ht
    · exact ((hf.live t).mp (hexp t ht)).1
    · exact hf.known t ht

theorem Fenced.grant [Add T] (hf : h.Fenced) (size : ℤ) (now ttl : T) :
    (h.step (.grant size now ttl)).Fenced := by
  have hr := hf.reclaimExpired now
  by_cases hfull : (h.ledger.reclaimExpired now).1.Refuses
  · obtain ⟨e, he⟩ := Ledger.grant_of_refuses h.ledger size now ttl hfull
    simp only [step, he]
    exact ⟨⟨hr.ledger.below, hr.ledger.distinct⟩, hr.below, hr.increasing, hr.live, hr.once,
      hr.known⟩
  · simp only [step, Ledger.grant_of_serves h.ledger size now ttl hfull]
    exact hr.issue size now ttl

theorem Fenced.settle [Add T] (hf : h.Fenced) (token spent unused : ℤ) :
    (h.step (.settle token spent unused)).Fenced := by
  by_cases ht : token ∈ h.ledger.tokens
  · have hset := hf.ledger.settle token spent unused
    simp only [step, Ledger.settle_of_mem ht, if_true] at hset ⊢
    obtain ⟨hgranted, hopen⟩ := (hf.live token).mp ht
    refine ⟨hset, hf.below, hf.increasing, fun t => ?_, ?_, fun t hm => ?_⟩
    · change t ∈ (h.ledger.outstanding.filter (·.token ≠ token)).map Grant.token ↔ _
      rw [Ledger.mem_tokens_filter, hf.live t, List.cons_append, List.mem_cons]
      tauto
    · rw [List.cons_append, List.nodup_cons]
      exact ⟨hopen, hf.once⟩
    · rw [List.cons_append] at hm
      rcases List.mem_cons.mp hm with rfl | hm
      · exact hgranted
      · exact hf.known t hm
  · simp only [step, Ledger.settle_of_not_mem ht]
    exact hf

theorem Fenced.step [Add T] (hf : h.Fenced) (op : LedgerOp T) : (h.step op).Fenced := by
  cases op with
  | grant size now ttl => exact hf.grant size now ttl
  | reclaimExpired now => exact hf.reclaimExpired now
  | settle token spent unused => exact hf.settle token spent unused

end Step

structure Fences (h : History T) : Prop where
  increasing : h.granted.Pairwise fun later earlier => earlier < later
  once : (h.settled ++ h.reclaimed).Nodup
  known : ∀ t ∈ h.settled ++ h.reclaimed, t ∈ h.granted
  settle_iff : ∀ token spent unused, (h.ledger.settle token spent unused).2 = true ↔
    token ∈ h.ledger.tokens
  outstanding_iff : ∀ token, token ∈ h.ledger.tokens ↔
    token ∈ h.granted ∧ token ∉ h.settled ∧ token ∉ h.reclaimed
  refused : ∀ token spent unused, (h.ledger.settle token spent unused).2 = false →
    (h.ledger.settle token spent unused).1 = h.ledger

theorem ledger_fences [Add T] (budgetMicros : ℤ) (ops : List (LedgerOp T)) :
    (Trace.run step (start budgetMicros) ops).Fences := by
  have hf : (Trace.run step (start budgetMicros) ops : History T).Fenced :=
    Trace.invariant (fun _ op h _ => h.step op) (fenced_start budgetMicros)
      (Trace.along_trivial _ _)
  exact
    { increasing := hf.increasing
      once := hf.once
      known := hf.known
      settle_iff := Ledger.settle_snd_iff _
      outstanding_iff := fun token => by rw [hf.live, List.mem_append, not_or]
      refused := fun _ _ _ => Ledger.settle_fst_of_false }

end History

end BudgetLease
