import NocAgent.BudgetLease.Ledger
import Mathlib.Algebra.BigOperators.Group.Finset.Piecewise
import Mathlib.Algebra.Order.BigOperators.Group.Finset
import Mathlib.Data.Fintype.BigOperators
import Mathlib.Tactic.Ring

namespace BudgetLease

structure Lease where
  sizeMicros : ℤ
  remainingMicros : ℤ := 0
  spentMicros : ℤ := 0
  halted : Bool := false
  token : ℤ := 0
deriving DecidableEq, Repr

namespace Lease
variable {T : Type}

def canAfford (c : Lease) (costMicros : ℤ) : Bool := !c.halted && costMicros ≤ c.remainingMicros

def charge (c : Lease) (costMicros : ℤ) : Lease :=
  { c with
    remainingMicros := c.remainingMicros - costMicros
    spentMicros := c.spentMicros + costMicros }

def receive (c : Lease) : Except LedgerFull (Grant T) → Lease
  | .ok g =>
    { c with remainingMicros := c.remainingMicros + g.amountMicros, token := g.token }
  | .error _ => { c with halted := true }

def unused (c : Lease) : ℤ := max 0 c.remainingMicros

def clear (c : Lease) : Lease := { c with remainingMicros := 0, spentMicros := 0 }

def release (c : Lease) (l : Ledger T) : Ledger T × Lease × Bool :=
  let r := l.settle c.token c.spentMicros c.unused
  (r.1, c.clear, r.2)

variable [LE T] [DecidableLE T] [Add T] [OfNat T 300]

def renew (now : T) (c : Lease) (l : Ledger T) : Ledger T × Lease :=
  let r := l.grant c.sizeMicros now 300
  (r.1, c.receive r.2)

def debit [OfNat T 0] (costMicros : ℤ) (c : Lease) (l : Ledger T) : Ledger T × Lease :=
  let c := c.charge costMicros
  if c.remainingMicros ≤ 0 then c.renew 0 l else (l, c)

theorem canAfford_iff {c : Lease} {cost : ℤ} :
    c.canAfford cost = true ↔ c.halted = false ∧ cost ≤ c.remainingMicros := by
  simp [canAfford]

end Lease

inductive LeaseOp (ι T : Type) where
  | renew (k : ι) (now : T)
  | debit (k : ι) (costMicros : ℤ)
  | release (k : ι)
  | reclaimExpired (now : T)
deriving DecidableEq, Repr

-- The ledger and the leases it serves. The other fields are not in the program: debited and
-- reclaimed are running totals, dropped is what releases left in no one's hands, held lists the
-- tokens a holder has received since it last released, left those it then no longer knew.
structure Pool (ι T : Type) where
  ledger : Ledger T
  lease : ι → Lease
  debited : ℤ := 0
  reclaimed : ℤ := 0
  dropped : ℤ := 0
  held : ι → List ℤ := fun _ => []
  left : List ℤ := []

def LeaseOp.now? {ι T : Type} : LeaseOp ι T → Option T
  | .renew _ now | .reclaimExpired now => some now
  | .debit _ _ | .release _ => none

namespace Pool
variable {ι T : Type}

def start (budgetMicros : ℤ) (sizeMicros : ι → ℤ) : Pool ι T :=
  { ledger := { budgetMicros := budgetMicros }
    lease := fun k => { sizeMicros := sizeMicros k } }

-- The amounts of money involved; negative costs are possible, so spent is not bounded by itself.
structure Solvent (budgetMicros : ℤ) (p : Pool ι T) : Prop where
  fenced : p.ledger.Fenced
  budget : p.ledger.budgetMicros = budgetMicros
  within : p.ledger.grantedMicros ≤ budgetMicros
  amounts : ∀ g ∈ p.ledger.outstanding, 0 ≤ g.amountMicros
  sizes : ∀ k, 0 ≤ (p.lease k).sizeMicros
  remaining : ∀ k, 0 ≤ (p.lease k).remainingMicros
  dropped : 0 ≤ p.dropped

theorem solvent_start {budget : ℤ} {size : ι → ℤ} (hb : 0 ≤ budget) (hs : ∀ k, 0 ≤ size k) :
    (start budget size : Pool ι T).Solvent budget where
  fenced := Ledger.fenced_fresh budget
  budget := rfl
  within := hb
  amounts _ h := by cases h
  sizes := hs
  remaining _ := le_rfl
  dropped := le_rfl

section Reclaim
variable [LE T] [DecidableLE T]

def reclaimExpired (p : Pool ι T) (now : T) : Pool ι T :=
  { p with
    ledger := (p.ledger.reclaimExpired now).1
    reclaimed := p.reclaimed + (p.ledger.reclaimExpired now).2 }

theorem Solvent.reclaimExpired {budget : ℤ} {p : Pool ι T}
    (h : p.Solvent budget) (now : T) :
    (p.reclaimExpired now).Solvent budget := by
  have htotal : 0 ≤ totalMicros (p.ledger.expired now) := by
    refine List.sum_nonneg fun x hx => ?_
    obtain ⟨g, hg, rfl⟩ := List.mem_map.mp hx
    exact h.amounts g (List.mem_of_mem_filter hg)
  have hwithin := h.within
  refine ⟨h.fenced.reclaimExpired now, ?_, ?_, ?_, h.sizes, h.remaining, h.dropped⟩
  · simp only [Pool.reclaimExpired, Ledger.reclaimExpired_fst h.fenced]
    exact h.budget
  · simp only [Pool.reclaimExpired, Ledger.reclaimExpired_fst h.fenced]
    omega
  · simp only [Pool.reclaimExpired, Ledger.reclaimExpired_fst h.fenced]
    exact fun g hg => h.amounts g (List.mem_of_mem_filter hg)

variable [OfNat T 0]

-- The grants an operation finds expired; the renewal inside debit asks at time 0.
def due (p : Pool ι T) : LeaseOp ι T → List (Grant T)
  | .renew _ now | .reclaimExpired now => p.ledger.expired now
  | .debit k cost =>
    if (p.lease k).canAfford cost ∧ ((p.lease k).charge cost).remainingMicros ≤ 0 then
      p.ledger.expired 0
    else []
  | .release _ => []

theorem mem_of_mem_due {p : Pool ι T} {op : LeaseOp ι T} {g : Grant T} (hg : g ∈ p.due op) :
    g ∈ p.ledger.outstanding := by
  cases op with
  | renew k now => exact List.mem_of_mem_filter hg
  | debit k cost =>
    rw [due] at hg
    split at hg
    · exact List.mem_of_mem_filter hg
    · cases hg
  | release k => cases hg
  | reclaimExpired now => exact List.mem_of_mem_filter hg

end Reclaim

variable [DecidableEq ι]

def charge (p : Pool ι T) (k : ι) (costMicros : ℤ) : Pool ι T :=
  { p with
    lease := Function.update p.lease k ((p.lease k).charge costMicros)
    debited := p.debited + costMicros }

theorem charge_lease_self (p : Pool ι T) (k : ι) (cost : ℤ) :
    (p.charge k cost).lease k = (p.lease k).charge cost := Function.update_self ..

def release (p : Pool ι T) (k : ι) : Pool ι T :=
  let r := (p.lease k).release p.ledger
  { p with
    ledger := r.1
    lease := Function.update p.lease k r.2.1
    dropped := p.dropped +
      if r.2.2 then (p.lease k).remainingMicros - (p.lease k).unused
      else (p.lease k).remainingMicros
    held := if r.2.2 then Function.update p.held k [] else p.held
    left := if r.2.2 then p.held k ++ p.left else p.left }

section Clock
variable [LE T] [DecidableLE T] [Add T] [OfNat T 300]

def renew (p : Pool ι T) (k : ι) (now : T) : Pool ι T :=
  let r := (p.lease k).renew now p.ledger
  { p.reclaimExpired now with
    ledger := r.1
    lease := Function.update p.lease k r.2
    held :=
      match (p.ledger.grant (p.lease k).sizeMicros now 300).2 with
      | .ok g => Function.update p.held k (g.token :: p.held k)
      | .error _ => p.held }

variable [OfNat T 0]

def debit (p : Pool ι T) (k : ι) (costMicros : ℤ) : Pool ι T :=
  let q := p.charge k costMicros
  if (q.lease k).remainingMicros ≤ 0 then q.renew k 0 else q

def step (p : Pool ι T) : LeaseOp ι T → Pool ι T
  | .renew k now => p.renew k now
  | .debit k cost => if (p.lease k).canAfford cost then p.debit k cost else p
  | .release k => p.release k
  | .reclaimExpired now => p.reclaimExpired now

theorem debit_ledger_lease (p : Pool ι T) (k : ι) (cost : ℤ) :
    ((p.debit k cost).ledger, (p.debit k cost).lease k) = (p.lease k).debit cost p.ledger := by
  rw [debit, Lease.debit, charge_lease_self]
  split
  · rw [renew, charge_lease_self]
    exact Prod.ext rfl (Function.update_self ..)
  · exact Prod.ext rfl (charge_lease_self p k cost)

end Clock

def settled (p : Pool ι T) (k : ι) : Pool ι T :=
  { p with
    ledger :=
      { p.ledger with
        settledMicros := p.ledger.settledMicros + (p.lease k).spentMicros
        grantedMicros := p.ledger.grantedMicros - (p.lease k).unused
        outstanding := p.ledger.outstanding.filter (·.token ≠ (p.lease k).token) }
    lease := Function.update p.lease k (p.lease k).clear
    dropped := p.dropped + ((p.lease k).remainingMicros - (p.lease k).unused)
    held := Function.update p.held k []
    left := p.held k ++ p.left }

def forget (p : Pool ι T) (k : ι) : Pool ι T :=
  { p with
    lease := Function.update p.lease k (p.lease k).clear
    dropped := p.dropped + (p.lease k).remainingMicros }

theorem release_eq (p : Pool ι T) (k : ι) :
    p.release k = if (p.lease k).token ∈ p.ledger.tokens then p.settled k else p.forget k := by
  split
  · rename_i h
    simp only [release, Lease.release, Ledger.settle_of_mem h]
    rfl
  · rename_i h
    simp only [release, Lease.release, Ledger.settle_of_not_mem h]
    rfl

def refuse (p : Pool ι T) (k : ι) : Pool ι T :=
  { p with
    ledger := { p.ledger with halted := true }
    lease := Function.update p.lease k { p.lease k with halted := true } }

def serve [Add T] [OfNat T 300] (p : Pool ι T) (k : ι) (now : T) : Pool ι T :=
  let g := p.ledger.nextGrant (p.lease k).sizeMicros now 300
  { p with
    ledger := p.ledger.issue g
    lease := Function.update p.lease k ((p.lease k).receive (.ok g))
    held := Function.update p.held k (g.token :: p.held k) }

section Step
variable [LE T] [DecidableLE T] [Add T] [OfNat T 300]

theorem renew_eq (p : Pool ι T) (k : ι) (now : T) :
    p.renew k now =
      if (p.reclaimExpired now).ledger.Refuses then (p.reclaimExpired now).refuse k
      else (p.reclaimExpired now).serve k now := by
  split
  · rename_i h
    obtain ⟨e, he⟩ := Ledger.grant_of_refuses p.ledger (p.lease k).sizeMicros now 300 h
    simp only [renew, Lease.renew, he]
    rfl
  · rename_i h
    have hs := Ledger.grant_of_serves p.ledger (p.lease k).sizeMicros now 300 h
    simp only [renew, Lease.renew, hs]
    rfl

variable [OfNat T 0]

theorem step_debit (p : Pool ι T) (k : ι) (cost : ℤ) :
    p.step (.debit k cost) =
      if (p.lease k).canAfford cost then
        if ((p.lease k).charge cost).remainingMicros ≤ 0 then (p.charge k cost).renew k 0
        else p.charge k cost
      else p := by
  rw [step, debit, charge_lease_self]

theorem reclaimed_step (p : Pool ι T) (op : LeaseOp ι T) :
    (p.step op).reclaimed = p.reclaimed + totalMicros (p.due op) := by
  cases op with
  | renew k now => rfl
  | debit k cost =>
    rw [step_debit, due]
    by_cases ha : (p.lease k).canAfford cost = true
    · by_cases hr : ((p.lease k).charge cost).remainingMicros ≤ 0
      · rw [if_pos ha, if_pos hr, if_pos ⟨ha, hr⟩]
        rfl
      · rw [if_pos ha, if_neg hr, if_neg fun h => hr h.2]
        exact (add_zero _).symm
    · rw [if_neg ha, if_neg fun h => ha h.1]
      exact (add_zero _).symm
  | release k => exact (add_zero _).symm
  | reclaimExpired now => rfl

-- An invariant is kept by every step once the six pieces keep it; R is what is known of the
-- expired grants, whatever was charged before they are looked for, and Q of a release.
theorem preserved {I : Pool ι T → Prop} {R : Pool ι T → Grant T → Prop}
    {Q : Pool ι T → ι → Prop}
    (hcharge : ∀ p k cost, I p → (p.lease k).canAfford cost = true → I (p.charge k cost))
    (hsettled : ∀ p k, I p → Q p k → (p.lease k).token ∈ p.ledger.tokens → I (p.settled k))
    (hforget : ∀ p k, I p → (p.lease k).token ∉ p.ledger.tokens → I (p.forget k))
    (hreclaim : ∀ p now, I p → (∀ g ∈ p.ledger.expired now, R p g) → I (p.reclaimExpired now))
    (hrefuse : ∀ p k, I p → I (p.refuse k))
    (hserve : ∀ p k now, I p → ¬ p.ledger.Refuses → I (p.serve k now))
    (hframe : ∀ p k cost g, R p g → R (p.charge k cost) g)
    (p : Pool ι T) (op : LeaseOp ι T) (hI : I p) (hR : ∀ g ∈ p.due op, R p g)
    (hQ : ∀ k, op = .release k → Q p k) : I (p.step op) := by
  have hrenew : ∀ (p : Pool ι T) k now, I p → (∀ g ∈ p.ledger.expired now, R p g) →
      I (p.renew k now) := by
    intro p k now hI hR
    rw [renew_eq]
    split
    · exact hrefuse _ k (hreclaim p now hI hR)
    · rename_i hserved
      exact hserve _ k now (hreclaim p now hI hR) hserved
  cases op with
  | renew k now => exact hrenew p k now hI hR
  | debit k cost =>
    rw [step_debit]
    by_cases ha : (p.lease k).canAfford cost = true
    · rw [if_pos ha]
      by_cases hr : ((p.lease k).charge cost).remainingMicros ≤ 0
      · rw [due, if_pos ⟨ha, hr⟩] at hR
        rw [if_pos hr]
        exact hrenew _ k 0 (hcharge p k cost hI ha) fun g hg => hframe p k cost g (hR g hg)
      · rw [if_neg hr]
        exact hcharge p k cost hI ha
    · rw [if_neg ha]
      exact hI
  | release k =>
    rw [step, release_eq]
    split
    · rename_i ht
      exact hsettled p k hI (hQ k rfl) ht
    · rename_i ht
      exact hforget p k hI ht
  | reclaimExpired now => exact hreclaim p now hI hR

end Step

section Solvent
variable {budget : ℤ} {p : Pool ι T}

theorem nonneg_update (f : Lease → ℤ) {lease : ι → Lease} (h : ∀ j, 0 ≤ f (lease j)) (k : ι)
    {c : Lease} (hc : 0 ≤ f c) (j : ι) : 0 ≤ f (Function.update lease k c j) :=
  (Function.forall_update_iff lease fun _ c => 0 ≤ f c).mpr ⟨hc, fun j _ => h j⟩ j

theorem Solvent.charge (h : p.Solvent budget) (k : ι) {cost : ℤ}
    (ha : (p.lease k).canAfford cost = true) : (p.charge k cost).Solvent budget :=
  { h with
    sizes := nonneg_update Lease.sizeMicros h.sizes k (h.sizes k)
    remaining := nonneg_update Lease.remainingMicros h.remaining k
      (sub_nonneg.mpr (Lease.canAfford_iff.mp ha).2) }

theorem Solvent.settled (h : p.Solvent budget) (k : ι) : (p.settled k).Solvent budget where
  fenced := h.fenced.of_sublist rfl (List.filter_sublist ..)
  budget := h.budget
  within := (sub_le_self _ (le_max_left 0 _)).trans h.within
  amounts g hg := h.amounts g (List.mem_of_mem_filter hg)
  sizes := nonneg_update Lease.sizeMicros h.sizes k (h.sizes k)
  remaining := nonneg_update Lease.remainingMicros h.remaining k le_rfl
  dropped := by
    have hunused : (p.lease k).unused = (p.lease k).remainingMicros := max_eq_right (h.remaining k)
    change 0 ≤ p.dropped + ((p.lease k).remainingMicros - (p.lease k).unused)
    rw [hunused, sub_self, add_zero]
    exact h.dropped

theorem Solvent.forget (h : p.Solvent budget) (k : ι) : (p.forget k).Solvent budget :=
  { h with
    sizes := nonneg_update Lease.sizeMicros h.sizes k (h.sizes k)
    remaining := nonneg_update Lease.remainingMicros h.remaining k le_rfl
    dropped := add_nonneg h.dropped (h.remaining k) }

theorem Solvent.refuse (h : p.Solvent budget) (k : ι) : (p.refuse k).Solvent budget :=
  { h with
    fenced := ⟨h.fenced.below, h.fenced.distinct⟩
    sizes := nonneg_update Lease.sizeMicros h.sizes k (h.sizes k)
    remaining := nonneg_update Lease.remainingMicros h.remaining k (h.remaining k) }

theorem Solvent.serve [Add T] [OfNat T 300] (h : p.Solvent budget) (k : ι) (now : T)
    (hserves : ¬ p.ledger.Refuses) : (p.serve k now).Solvent budget := by
  have hleft : 0 < p.ledger.available := not_le.mp (not_or.mp hserves).2
  have hamount : 0 ≤ min (p.lease k).sizeMicros p.ledger.available :=
    le_min (h.sizes k) hleft.le
  have hk := h.remaining k
  refine ⟨h.fenced.issue _ _ _, h.budget, ?_, ?_, ?_, ?_, h.dropped⟩
  · have hle := min_le_right (p.lease k).sizeMicros p.ledger.available
    have hbudget := h.budget
    change p.ledger.grantedMicros + min (p.lease k).sizeMicros p.ledger.available ≤ budget
    rw [Ledger.available] at hle ⊢
    omega
  · intro g hg
    rcases List.mem_append.mp hg with hg | hg
    · exact h.amounts g hg
    · rw [List.mem_singleton.mp hg]
      exact hamount
  · exact nonneg_update Lease.sizeMicros h.sizes k (h.sizes k)
  · exact nonneg_update Lease.remainingMicros h.remaining k (add_nonneg hk hamount)

variable [LE T] [DecidableLE T] [Add T] [OfNat T 300] [OfNat T 0]

theorem Solvent.step (h : p.Solvent budget) (op : LeaseOp ι T) : (p.step op).Solvent budget :=
  preserved (R := fun _ _ => True) (Q := fun _ _ => True) (fun _ k _ h ha => h.charge k ha)
    (fun _ k h _ _ => h.settled k)
    (fun _ k h _ => h.forget k) (fun _ now h _ => h.reclaimExpired now) (fun _ k h => h.refuse k)
    (fun _ k now h hs => h.serve k now hs) (fun _ _ _ _ _ => trivial) p op h
    (fun _ _ => trivial) fun _ _ => trivial

end Solvent

section Sum
variable [Fintype ι]

def unspent (p : Pool ι T) : ℤ := ∑ k, (p.lease k).remainingMicros

theorem sum_update (f : Lease → ℤ) (lease : ι → Lease) (k : ι) (c : Lease) :
    ∑ j, f (Function.update lease k c j) = ∑ j, f (lease j) + (f c - f (lease k)) := by
  have hpull : (fun j => f (Function.update lease k c j)) =
      Function.update (fun j => f (lease j)) k (f c) := by
    funext j
    by_cases hj : j = k
    · rw [hj, Function.update_self, Function.update_self]
    · rw [Function.update_of_ne hj, Function.update_of_ne hj]
  have hsplit := Finset.add_sum_erase Finset.univ (fun j => f (lease j)) (Finset.mem_univ k)
  rw [hpull, Finset.sum_update_of_mem (Finset.mem_univ k), ← Finset.erase_eq, ← hsplit]
  ring

end Sum

end Pool

end BudgetLease
