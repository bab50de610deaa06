import NocAgent.BudgetLease.Lease
import Mathlib.Tactic.Positivity

namespace BudgetLease

namespace Pool
variable {ι T : Type} [Fintype ι]

structure Balanced (budgetMicros : ℤ) (p : Pool ι T) : Prop where
  budget : p.ledger.budgetMicros = budgetMicros
  spent : p.debited + p.unspent + p.dropped = p.ledger.grantedMicros + p.reclaimed

theorem balanced_start (budget : ℤ) (size : ι → ℤ) :
    (start budget size : Pool ι T).Balanced budget where
  budget := rfl
  spent := by simp [start, unspent]

theorem Balanced.reclaimExpired [LE T] [DecidableLE T] {budget : ℤ} {p : Pool ι T}
    (h : p.Balanced budget) (now : T) :
    (p.reclaimExpired now).Balanced budget := by
  have hspent := h.spent
  refine ⟨?_, ?_⟩
  · simp only [Pool.reclaimExpired, Ledger.reclaimExpired, Ledger.foldl_reclaim]
    exact h.budget
  · change p.debited + p.unspent + p.dropped = _
    simp only [Pool.reclaimExpired, Ledger.reclaimExpired, Ledger.foldl_reclaim]
    omega

theorem debited_le_of_reclaimed {budget bound : ℤ} {p : Pool ι T} (hb : p.Balanced budget)
    (hs : p.Solvent budget) (hr : p.reclaimed ≤ bound) : p.debited ≤ budget + bound := by
  have hspent := hb.spent
  have hwithin := hs.within
  have hdropped := hs.dropped
  have hunspent : 0 ≤ p.unspent := Finset.sum_nonneg fun k _ => hs.remaining k
  omega

variable [DecidableEq ι]

section Pieces
variable {budget : ℤ} {p : Pool ι T}

theorem unspent_update (p : Pool ι T) (k : ι) (c : Lease) :
    ({ p with lease := Function.update p.lease k c }).unspent =
      p.unspent + (c.remainingMicros - (p.lease k).remainingMicros) :=
  sum_update Lease.remainingMicros p.lease k c

theorem Balanced.charge (h : p.Balanced budget) (k : ι) (cost : ℤ) :
    (p.charge k cost).Balanced budget where
  budget := h.budget
  spent := by
    have hsum : (p.charge k cost).unspent = p.unspent - cost := by
      refine (unspent_update p k _).trans ?_
      simp only [Lease.charge]
      ring
    have hspent := h.spent
    rw [hsum]
    simp only [Pool.charge]
    omega

theorem unspent_clear (p : Pool ι T) (k : ι) :
    ({ p with lease := Function.update p.lease k (p.lease k).clear }).unspent =
      p.unspent - (p.lease k).remainingMicros := by
  refine (unspent_update p k _).trans ?_
  rw [Lease.clear, zero_sub, sub_eq_add_neg]

theorem Balanced.settled (h : p.Balanced budget) (k : ι) : (p.settled k).Balanced budget where
  budget := h.budget
  spent := by
    have hsum : (p.settled k).unspent = p.unspent - (p.lease k).remainingMicros := unspent_clear p k
    have hspent := h.spent
    rw [hsum]
    simp only [Pool.settled]
    omega

theorem Balanced.forget (h : p.Balanced budget) (k : ι) : (p.forget k).Balanced budget where
  budget := h.budget
  spent := by
    have hsum : (p.forget k).unspent = p.unspent - (p.lease k).remainingMicros := unspent_clear p k
    have hspent := h.spent
    rw [hsum]
    simp only [Pool.forget]
    omega

theorem Balanced.refuse (h : p.Balanced budget) (k : ι) : (p.refuse k).Balanced budget where
  budget := h.budget
  spent := by
    have hsum : (p.refuse k).unspent = p.unspent := by
      refine (unspent_update p k _).trans ?_
      rw [sub_self, add_zero]
    rw [hsum]
    exact h.spent

theorem Balanced.serve [Add T] [OfNat T 300] (h : p.Balanced budget) (k : ι) (now : T) :
    (p.serve k now).Balanced budget where
  budget := h.budget
  spent := by
    have hsum : (p.serve k now).unspent =
        p.unspent + (p.ledger.nextGrant (p.lease k).sizeMicros now 300).amountMicros := by
      refine (unspent_update p k _).trans ?_
      simp only [Lease.receive]
      ring
    have hspent := h.spent
    rw [hsum]
    simp only [Pool.serve, Ledger.issue]
    omega

end Pieces

variable [LE T] [DecidableLE T] [Add T] [OfNat T 300] [OfNat T 0]

theorem Balanced.step {budget : ℤ} {p : Pool ι T} (h : p.Balanced budget) (op : LeaseOp ι T) :
    (p.step op).Balanced budget :=
  preserved (R := fun _ _ => True) (Q := fun _ _ => True) (fun _ k cost h _ => h.charge k cost)
    (fun _ k h _ _ => h.settled k)
    (fun _ k h _ => h.forget k) (fun _ now h _ => h.reclaimExpired now) (fun _ k h => h.refuse k)
    (fun _ k now h _ => h.serve k now) (fun _ _ _ _ _ => trivial) p op h
    (fun _ _ => trivial) fun _ _ => trivial

def ReclaimsWithin (bound : ℤ) (p : Pool ι T) (op : LeaseOp ι T) : Prop :=
  p.reclaimed + totalMicros (p.due op) ≤ bound

instance (bound : ℤ) (p : Pool ι T) (op : LeaseOp ι T) : Decidable (p.ReclaimsWithin bound op) :=
  inferInstanceAs (Decidable (p.reclaimed + totalMicros (p.due op) ≤ bound))

omit [Fintype ι] in
theorem reclaimed_within {bound : ℤ} {p : Pool ι T} {ops : List (LeaseOp ι T)}
    (h : p.reclaimed ≤ bound) (hops : Trace.Along step (ReclaimsWithin bound) p ops) :
    Trace.Always step (fun q => q.reclaimed ≤ bound) p ops :=
  Trace.always_of_invariant (fun q op _ hop => (reclaimed_step q op).trans_le hop) h hops

theorem sound_always {budget size : ℤ} (hb : 0 ≤ budget) (hs : 0 ≤ size)
    (ops : List (LeaseOp ι T)) :
    Trace.Always step (fun p => p.Balanced budget ∧ p.Solvent budget)
      (start budget fun _ => size) ops :=
  Trace.always_of_invariant (fun _ op h _ => ⟨h.1.step op, h.2.step op⟩)
    ⟨balanced_start budget _, solvent_start hb fun _ => hs⟩ (Trace.along_trivial _ _)

theorem overshoot_bounded {budget size : ℤ} (hb : 0 ≤ budget) (hs : 0 ≤ size)
    (ops : List (LeaseOp ι T))
    (hops : Trace.Along step (ReclaimsWithin (Fintype.card ι * size))
      (start budget fun _ => size) ops) :
    Trace.Always step (fun p => p.debited ≤ budget + Fintype.card ι * size)
      (start budget fun _ => size) ops := by
  have hnone : (start budget fun _ => size : Pool ι T).reclaimed ≤ Fintype.card ι * size := by
    change (0 : ℤ) ≤ _
    positivity
  intro pre post hsplit
  obtain ⟨hbal, hsol⟩ := sound_always hb hs ops pre post hsplit
  exact debited_le_of_reclaimed hbal hsol (reclaimed_within hnone hops pre post hsplit)

section Example

def spendsExpired : List (LeaseOp Unit ℕ) :=
  [.renew () 0, .renew () 300, .debit () 200, .debit () 100]

theorem overshoot_bounded_expiring :
    totalMicros ((Trace.run step (start 200 fun _ => 100) [.renew () 0]).due
        (.renew () 300 : LeaseOp Unit ℕ)) = 100 ∧
      (Trace.run step (start 200 fun _ => 100) spendsExpired).debited = 300 ∧
      Trace.Always step (fun p => p.debited ≤ 200 + Fintype.card Unit * 100)
        (start 200 fun _ => 100) spendsExpired :=
  ⟨by decide, by decide, overshoot_bounded (by decide) (by decide) spendsExpired (by decide)⟩

def spendsOn : List (LeaseOp Unit ℕ) :=
  [.renew () 0, .renew () 300, .renew () 600, .renew () 900, .debit () 400]

theorem expired_slices_spent_twice :
    (spendsOn.filterMap LeaseOp.now?).Pairwise (· ≤ ·) ∧
      (Trace.run step (start 200 fun _ => 100) spendsOn).debited = 400 ∧
      ¬ Trace.Always step (fun p => p.debited ≤ 200 + Fintype.card Unit * 100)
        (start 200 fun _ => 100) spendsOn := by
  have hspent : (Trace.run step (start 200 fun _ => 100) spendsOn).debited = 400 := by decide
  refine ⟨by decide, hspent, fun h => ?_⟩
  have hover := h spendsOn [] (List.append_nil _).symm
  simp only [hspent, Fintype.card_unit] at hover
  omega

end Example

end Pool

end BudgetLease
