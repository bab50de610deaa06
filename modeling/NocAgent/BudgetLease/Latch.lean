import NocAgent.BudgetLease.Fencing

namespace BudgetLease

namespace History
variable {T : Type} [LE T] [DecidableLE T] [Add T]

def Exhausts (h : History T) : LedgerOp T → Prop
  | .grant _ now _ => (h.ledger.reclaimExpired now).1.available ≤ 0
  | _ => False

instance (h : History T) : (op : LedgerOp T) → Decidable (h.Exhausts op)
  | .grant _ now _ => inferInstanceAs (Decidable ((h.ledger.reclaimExpired now).1.available ≤ 0))
  | .reclaimExpired _ | .settle _ _ _ => isFalse id

structure Serves (l : Ledger T) (size : ℤ) (now ttl : T) : Prop where
  served : 0 < (l.reclaimExpired now).1.available →
    ∃ g, (l.grant size now ttl).2 = .ok g ∧
      g.amountMicros = min size (l.reclaimExpired now).1.available
  full : ∀ e, (l.grant size now ttl).2 = .error e → (l.reclaimExpired now).1.available ≤ 0

theorem serves_iff (l : Ledger T) (size : ℤ) (now ttl : T) :
    Serves l size now ttl ↔
      (l.halted = false ∨ (l.reclaimExpired now).1.available ≤ 0) := by
  by_cases hfull : (l.reclaimExpired now).1.Refuses
  · obtain ⟨e, he⟩ := Ledger.grant_of_refuses l size now ttl hfull
    constructor
    · exact fun h => .inr (h.full e (by rw [he]))
    · intro h
      have hnone : (l.reclaimExpired now).1.available ≤ 0 := by
        rcases h with hh | hnone
        · rw [Ledger.Refuses, Ledger.reclaimExpired_halted, hh] at hfull
          exact hfull.resolve_left Bool.false_ne_true
        · exact hnone
      exact ⟨fun hpos => absurd hpos hnone.not_gt, fun _ _ => hnone⟩
  · have hs := Ledger.grant_of_serves l size now ttl hfull
    obtain ⟨hh, -⟩ := not_or.mp hfull
    rw [Ledger.reclaimExpired_halted, Bool.not_eq_true] at hh
    refine iff_of_true ⟨fun _ => ?_, fun e he => ?_⟩ (.inl hh)
    · exact ⟨_, by rw [hs], rfl⟩
    · rw [hs] at he
      cases he

theorem halted_step (h : History T) (op : LedgerOp T) :
    (h.step op).ledger.halted = true ↔ h.ledger.halted = true ∨ h.Exhausts op := by
  cases op with
  | grant size now ttl =>
    change (h.ledger.grant size now ttl).1.halted = true ↔ _
    by_cases hfull : (h.ledger.reclaimExpired now).1.Refuses
    · obtain ⟨e, he⟩ := Ledger.grant_of_refuses h.ledger size now ttl hfull
      rw [he, ← Ledger.reclaimExpired_halted h.ledger now]
      exact iff_of_true rfl hfull
    · rw [Ledger.grant_of_serves h.ledger size now ttl hfull]
      change (h.ledger.reclaimExpired now).1.halted = true ↔ _
      rw [Ledger.reclaimExpired_halted]
      exact (or_iff_left fun hx => hfull (.inr hx)).symm
  | reclaimExpired now =>
    change (h.ledger.reclaimExpired now).1.halted = true ↔ _
    rw [Ledger.reclaimExpired_halted]
    exact (or_iff_left id).symm
  | settle token spent unused =>
    change (h.ledger.settle token spent unused).1.halted = true ↔ _
    refine Iff.trans ?_ (or_iff_left id).symm
    by_cases ht : token ∈ h.ledger.tokens
    · rw [Ledger.settle_of_mem ht]
    · rw [Ledger.settle_of_not_mem ht]

theorem halted_run_iff (h : History T) (ops : List (LedgerOp T)) :
    (Trace.run step h ops).ledger.halted = false ↔
      h.ledger.halted = false ∧ Trace.Along step (fun h op => ¬ h.Exhausts op) h ops := by
  induction ops generalizing h with
  | nil => exact (and_iff_left trivial).symm
  | cons op ops ih =>
    have hstep : (h.step op).ledger.halted = false ↔
        h.ledger.halted = false ∧ ¬ h.Exhausts op := by
      rw [← Bool.not_eq_true, halted_step, not_or, Bool.not_eq_true]
    rw [Trace.run_cons, ih, hstep, and_assoc]
    rfl

theorem no_stranded_budget_iff (budgetMicros : ℤ) (ops : List (LedgerOp T)) (size : ℤ)
    (now ttl : T) :
    Serves (Trace.run step (start budgetMicros) ops).ledger size now ttl ↔
      (Trace.Along step (fun h op => ¬ h.Exhausts op) (start budgetMicros) ops ∨
        ((Trace.run step (start budgetMicros) ops).ledger.reclaimExpired now).1.available ≤ 0) := by
  rw [serves_iff, halted_run_iff]
  exact or_congr_left (and_iff_right rfl)

section Example

def askedTooEarly : List (LedgerOp ℕ) :=
  [.grant 750000 0 300, .grant 750000 100 300, .reclaimExpired 400]

theorem returned_budget_is_stranded :
    (Trace.run step (start 500000) askedTooEarly).ledger.available = 500000 ∧
      ((Trace.run step (start 500000) askedTooEarly).ledger.grant 750000 400 300).2 =
        .error .runHalted ∧
      ¬ Serves (Trace.run step (start 500000) askedTooEarly).ledger 750000 400 300 := by
  have hrefused : ((Trace.run step (start 500000) askedTooEarly).ledger.grant 750000 400 300).2 =
      .error .runHalted := by decide
  refine ⟨by decide, hrefused, fun h => ?_⟩
  exact absurd (h.full _ hrefused) (by decide)

end Example

end History

end BudgetLease
