import NocAgent.Library.Trace
import Mathlib.Algebra.BigOperators.Group.List.Basic
import Mathlib.Algebra.Order.Group.Int
import Mathlib.Algebra.Ring.Int.Defs
import Mathlib.Data.List.Nodup

namespace BudgetLease

-- T is the type of the clock; nothing is assumed of its order or its sums.
structure Grant (T : Type) where
  amountMicros : ℤ
  token : ℤ
  expiresAt : T
deriving DecidableEq, Repr

inductive LedgerFull where
  | runHalted
  | budgetExhausted
deriving DecidableEq, Repr

structure Ledger (T : Type) where
  budgetMicros : ℤ
  grantedMicros : ℤ := 0
  settledMicros : ℤ := 0
  halted : Bool := false
  nextToken : ℤ := 1
  outstanding : List (Grant T) := []
deriving DecidableEq, Repr

def totalMicros {T : Type} (gs : List (Grant T)) : ℤ := (gs.map Grant.amountMicros).sum

namespace Ledger
variable {T : Type}

def tokens (l : Ledger T) : List ℤ := l.outstanding.map Grant.token

def available (l : Ledger T) : ℤ := l.budgetMicros - l.grantedMicros

def Refuses (l : Ledger T) : Prop := l.halted = true ∨ l.available ≤ 0

instance (l : Ledger T) : Decidable l.Refuses := inferInstanceAs (Decidable (_ ∨ _))

def issue (l : Ledger T) (g : Grant T) : Ledger T :=
  { l with
    grantedMicros := l.grantedMicros + g.amountMicros
    outstanding := l.outstanding ++ [g]
    nextToken := l.nextToken + 1 }

def reclaim (l : Ledger T) (g : Grant T) : Ledger T :=
  { l with
    grantedMicros := l.grantedMicros - g.amountMicros
    outstanding := l.outstanding.filter (·.token ≠ g.token) }

def settle (token spentMicros unusedMicros : ℤ) (l : Ledger T) : Ledger T × Bool :=
  if token ∈ l.tokens then
    ({ l with
       settledMicros := l.settledMicros + spentMicros
       grantedMicros := l.grantedMicros - unusedMicros
       outstanding := l.outstanding.filter (·.token ≠ token) },
     true)
  else (l, false)

section Clock
variable [LE T] [DecidableLE T]

def expired (now : T) (l : Ledger T) : List (Grant T) := l.outstanding.filter (·.expiresAt ≤ now)

def reclaimExpired (now : T) (l : Ledger T) : Ledger T × ℤ :=
  ((l.expired now).foldl reclaim l, totalMicros (l.expired now))

variable [Add T]

def nextGrant (sizeMicros : ℤ) (now ttl : T) (l : Ledger T) : Grant T :=
  ⟨min sizeMicros l.available, l.nextToken, now + ttl⟩

def grant (sizeMicros : ℤ) (now ttl : T) (l : Ledger T) :
    Ledger T × Except LedgerFull (Grant T) :=
  let l := (l.reclaimExpired now).1
  if l.halted then (l, .error .runHalted)
  else if l.available ≤ 0 then ({ l with halted := true }, .error .budgetExhausted)
  else
    let g := l.nextGrant sizeMicros now ttl
    (l.issue g, .ok g)

end Clock

structure Fenced (l : Ledger T) : Prop where
  below : ∀ t ∈ l.tokens, t < l.nextToken
  distinct : l.tokens.Nodup

theorem fenced_fresh (budgetMicros : ℤ) :
    Fenced ({ budgetMicros := budgetMicros } : Ledger T) where
  below _ h := by cases h
  distinct := .nil

@[simp] theorem mem_tokens {l : Ledger T} {t : ℤ} :
    t ∈ l.tokens ↔ ∃ g ∈ l.outstanding, g.token = t := List.mem_map

theorem mem_tokens_issue {l : Ledger T} {g : Grant T} {t : ℤ} :
    t ∈ (l.issue g).tokens ↔ t ∈ l.tokens ∨ t = g.token := by
  simp [tokens, issue]

theorem mem_tokens_filter (l : Ledger T) (token t : ℤ) :
    t ∈ (l.outstanding.filter (·.token ≠ token)).map Grant.token ↔ t ∈ l.tokens ∧ t ≠ token := by
  simp only [List.mem_map, List.mem_filter, decide_eq_true_eq, mem_tokens]
  constructor
  · rintro ⟨g, ⟨hg, hn⟩, rfl⟩
    exact ⟨⟨g, hg, rfl⟩, hn⟩
  · rintro ⟨⟨g, hg, rfl⟩, hn⟩
    exact ⟨g, ⟨hg, hn⟩, rfl⟩

theorem Fenced.of_sublist {l : Ledger T} (h : l.Fenced) {l' : Ledger T}
    (hn : l'.nextToken = l.nextToken) (ho : l'.outstanding.Sublist l.outstanding) : l'.Fenced where
  below t ht := by
    rw [hn]
    exact h.below t ((ho.map Grant.token).subset ht)
  distinct := h.distinct.sublist (ho.map Grant.token)

theorem Fenced.eq_of_token {l : Ledger T} (h : l.Fenced) {g g' : Grant T}
    (hg : g ∈ l.outstanding) (hg' : g' ∈ l.outstanding) (ht : g.token = g'.token) : g = g' :=
  List.inj_on_of_nodup_map h.distinct hg hg' ht

theorem foldl_reclaim (gs : List (Grant T)) (l : Ledger T) :
    gs.foldl reclaim l =
      { l with
        grantedMicros := l.grantedMicros - totalMicros gs
        outstanding := l.outstanding.filter (·.token ∉ gs.map Grant.token) } := by
  induction gs generalizing l with
  | nil => simp [totalMicros]
  | cons g gs ih =>
    rw [List.foldl_cons, ih]
    simp [reclaim, totalMicros, List.filter_filter, sub_sub, Bool.and_comm]

theorem Fenced.issue [Add T] {l : Ledger T} (h : l.Fenced) (size : ℤ) (now ttl : T) :
    (l.issue (l.nextGrant size now ttl)).Fenced := by
  have htokens : (l.issue (l.nextGrant size now ttl)).tokens = l.tokens ++ [l.nextToken] := by
    simp [tokens, Ledger.issue, nextGrant]
  constructor
  · intro t ht
    change t < l.nextToken + 1
    rw [htokens] at ht
    rcases List.mem_append.mp ht with ht | ht
    · have := h.below t ht
      omega
    · rw [List.mem_singleton.mp ht]
      omega
  · rw [htokens, List.nodup_append]
    refine ⟨h.distinct, List.nodup_singleton _, fun a hm b hb he => ?_⟩
    rw [List.mem_singleton.mp hb] at he
    have := h.below a hm
    omega

section Settle
variable {l : Ledger T} {token : ℤ}

theorem settle_of_mem (h : token ∈ l.tokens) (spent unused : ℤ) :
    l.settle token spent unused =
      ({ l with
         settledMicros := l.settledMicros + spent
         grantedMicros := l.grantedMicros - unused
         outstanding := l.outstanding.filter (·.token ≠ token) },
       true) := if_pos h

theorem settle_of_not_mem (h : token ∉ l.tokens) (spent unused : ℤ) :
    l.settle token spent unused = (l, false) := if_neg h

theorem settle_snd_iff (l : Ledger T) (token spent unused : ℤ) :
    (l.settle token spent unused).2 = true ↔ token ∈ l.tokens := by
  by_cases h : token ∈ l.tokens
  · simp only [settle_of_mem h, h]
  · simp [settle_of_not_mem h, h]

theorem settle_fst_of_false {spent unused : ℤ} (h : (l.settle token spent unused).2 = false) :
    (l.settle token spent unused).1 = l := by
  have hnot : token ∉ l.tokens := by
    rw [← settle_snd_iff l token spent unused, h]
    exact Bool.false_ne_true
  rw [settle_of_not_mem hnot]

theorem Fenced.settle (h : l.Fenced) (token spent unused : ℤ) :
    (l.settle token spent unused).1.Fenced := by
  by_cases ht : token ∈ l.tokens
  · rw [settle_of_mem ht]
    exact h.of_sublist rfl (List.filter_sublist ..)
  · rwa [settle_of_not_mem ht]

end Settle

section Reclaim
variable [LE T] [DecidableLE T] {l : Ledger T}

theorem reclaimExpired_fst (h : l.Fenced) (now : T) :
    (l.reclaimExpired now).1 =
      { l with
        grantedMicros := l.grantedMicros - totalMicros (l.expired now)
        outstanding := l.outstanding.filter (¬ ·.expiresAt ≤ now) } := by
  have hkept : l.outstanding.filter (·.token ∉ (l.expired now).map Grant.token) =
      l.outstanding.filter (¬ ·.expiresAt ≤ now) := by
    refine List.filter_congr fun g hg => ?_
    have hiff : g.token ∈ (l.expired now).map Grant.token ↔ g.expiresAt ≤ now := by
      constructor
      · intro hm
        obtain ⟨g', hg', ht⟩ := List.mem_map.mp hm
        obtain ⟨hg', hle⟩ := List.mem_filter.mp hg'
        rw [← h.eq_of_token hg' hg ht]
        simpa using hle
      · exact fun hle => List.mem_map.mpr ⟨g, List.mem_filter.mpr ⟨hg, by simpa using hle⟩, rfl⟩
    simp only [hiff]
  rw [reclaimExpired, foldl_reclaim, hkept]

@[simp] theorem reclaimExpired_halted (l : Ledger T) (now : T) :
    (l.reclaimExpired now).1.halted = l.halted := by
  rw [reclaimExpired, foldl_reclaim]

theorem Fenced.reclaimExpired (h : l.Fenced) (now : T) : (l.reclaimExpired now).1.Fenced := by
  rw [reclaimExpired_fst h]
  exact h.of_sublist rfl (List.filter_sublist ..)

theorem mem_tokens_reclaimExpired (l : Ledger T) (now : T) (t : ℤ) :
    t ∈ (l.reclaimExpired now).1.tokens ↔
      t ∈ l.tokens ∧ t ∉ (l.expired now).map Grant.token := by
  rw [reclaimExpired, foldl_reclaim]
  simp only [mem_tokens, List.mem_filter, decide_eq_true_eq]
  constructor
  · rintro ⟨g, ⟨hg, hn⟩, rfl⟩
    exact ⟨⟨g, hg, rfl⟩, hn⟩
  · rintro ⟨⟨g, hg, rfl⟩, hn⟩
    exact ⟨g, ⟨hg, hn⟩, rfl⟩

variable [Add T]

theorem grant_of_refuses (l : Ledger T) (size : ℤ) (now ttl : T)
    (h : (l.reclaimExpired now).1.Refuses) :
    ∃ e, l.grant size now ttl = ({ (l.reclaimExpired now).1 with halted := true }, .error e) := by
  by_cases hh : (l.reclaimExpired now).1.halted = true
  · refine ⟨.runHalted, ?_⟩
    rw [grant, if_pos hh]
    congr 1
    rw [← hh]
  · refine ⟨.budgetExhausted, ?_⟩
    rw [grant, if_neg hh, if_pos (h.resolve_left hh)]

theorem grant_of_serves (l : Ledger T) (size : ℤ) (now ttl : T)
    (h : ¬ (l.reclaimExpired now).1.Refuses) :
    l.grant size now ttl =
      ((l.reclaimExpired now).1.issue ((l.reclaimExpired now).1.nextGrant size now ttl),
        .ok ((l.reclaimExpired now).1.nextGrant size now ttl)) := by
  obtain ⟨hh, ha⟩ := not_or.mp h
  rw [grant, if_neg hh, if_neg ha]

theorem Fenced.grant (h : l.Fenced) (size : ℤ) (now ttl : T) :
    (l.grant size now ttl).1.Fenced := by
  have hr := h.reclaimExpired now
  by_cases hfull : (l.reclaimExpired now).1.Refuses
  · obtain ⟨e, he⟩ := grant_of_refuses l size now ttl hfull
    rw [he]
    exact ⟨hr.below, hr.distinct⟩
  · rw [grant_of_serves l size now ttl hfull]
    exact hr.issue size now ttl

end Reclaim

end Ledger

end BudgetLease
