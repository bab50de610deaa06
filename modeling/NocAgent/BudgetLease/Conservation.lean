import NocAgent.BudgetLease.Lease

namespace BudgetLease

def Lease.worth (c : Lease) : ℤ := c.spentMicros + c.remainingMicros

namespace Pool
variable {ι T : Type}

-- Which outstanding grants are whose, as long as none expires in its holder's hands.
structure Known (p : Pool ι T) : Prop where
  fenced : p.ledger.Fenced
  covered : ∀ t ∈ p.ledger.tokens, (∃ k, t ∈ p.held k) ∨ t ∈ p.left
  live : ∀ k, ∀ t ∈ p.held k, t ∈ p.ledger.tokens
  newest : ∀ k, p.held k ≠ [] → (p.lease k).token ∈ p.held k
  idle : ∀ k, p.held k = [] → (p.lease k).token ∉ p.ledger.tokens
  apart : ∀ j k, ∀ t ∈ p.held j, t ∈ p.held k → j = k
  below : ∀ k, (p.lease k).token < p.ledger.nextToken
  gone : ∀ t ∈ p.left, t < p.ledger.nextToken

theorem known_start (budget : ℤ) (size : ι → ℤ) : (start budget size : Pool ι T).Known where
  fenced := Ledger.fenced_fresh budget
  covered _ h := by cases h
  live _ _ h := by cases h
  newest _ h := absurd rfl h
  idle _ _ h := by cases h
  apart _ _ _ h := by cases h
  below _ := zero_lt_one
  gone _ h := by cases h

theorem Known.reclaimExpired [LE T] [DecidableLE T] {p : Pool ι T} (h : p.Known) (now : T)
    (hheld : ∀ g ∈ p.ledger.expired now, ∀ k, g.token ∉ p.held k) :
    (p.reclaimExpired now).Known := by
  have hsub : ∀ t ∈ (p.ledger.reclaimExpired now).1.tokens, t ∈ p.ledger.tokens :=
    fun t ht => ((Ledger.mem_tokens_reclaimExpired p.ledger now t).mp ht).1
  have hnext : (p.ledger.reclaimExpired now).1.nextToken = p.ledger.nextToken := by
    rw [Ledger.reclaimExpired_fst h.fenced]
  refine
    { fenced := h.fenced.reclaimExpired now
      covered := fun t ht => h.covered t (hsub t ht)
      live := fun k t ht => ?_
      newest := h.newest
      idle := fun k hk hm => h.idle k hk (hsub _ hm)
      apart := h.apart
      below := fun k => hnext.symm ▸ h.below k
      gone := fun t ht => hnext.symm ▸ h.gone t ht }
  refine (Ledger.mem_tokens_reclaimExpired p.ledger now t).mpr ⟨h.live k t ht, fun hm => ?_⟩
  obtain ⟨g, hg, rfl⟩ := List.mem_map.mp hm
  exact hheld g hg k ht

theorem Known.mem_tokens_iff {p : Pool ι T} (h : p.Known) (k : ι) :
    (p.lease k).token ∈ p.ledger.tokens ↔ p.held k ≠ [] :=
  ⟨fun ht he => h.idle k he ht, fun hk => h.live k _ (h.newest k hk)⟩

section Due
variable [LE T] [DecidableLE T] [OfNat T 0]

def Timely (p : Pool ι T) (op : LeaseOp ι T) : Prop := ∀ g ∈ p.due op, ∀ k, g.token ∉ p.held k

def Disturbs (p : Pool ι T) (op : LeaseOp ι T) : Prop :=
  ∃ g ∈ p.due op, g.token ∈ p.left ∧ g.amountMicros ≠ 0

def Harmless (p : Pool ι T) (op : LeaseOp ι T) : Prop := ∀ g ∈ p.due op, g.amountMicros = 0

theorem Known.left_of_due {p : Pool ι T} (h : p.Known) {op : LeaseOp ι T} (ht : p.Timely op)
    {g : Grant T} (hg : g ∈ p.due op) : g.token ∈ p.left := by
  rcases h.covered g.token (Ledger.mem_tokens.mpr ⟨g, mem_of_mem_due hg, rfl⟩) with ⟨k, hk⟩ | hl
  · exact absurd hk (ht g hg k)
  · exact hl

end Due

section Worth
variable [Fintype ι]

def totalWorth (p : Pool ι T) : ℤ := ∑ k, (p.lease k).worth

structure Conserved (p : Pool ι T) : Prop where
  granted : p.ledger.grantedMicros = p.ledger.settledMicros + p.totalWorth
  worth : ∀ k, 0 ≤ (p.lease k).worth
  empty : ∀ k, p.held k = [] → (p.lease k).worth = 0

theorem conserved_start (budget : ℤ) (size : ι → ℤ) :
    (start budget size : Pool ι T).Conserved where
  granted := by simp [start, totalWorth, Lease.worth]
  worth _ := le_rfl
  empty _ _ := rfl

theorem Conserved.settled_le {p : Pool ι T} (h : p.Conserved) :
    p.ledger.settledMicros ≤ p.ledger.grantedMicros := by
  have hworth : 0 ≤ p.totalWorth := Finset.sum_nonneg fun k _ => h.worth k
  have hgranted := h.granted
  omega

theorem Conserved.reclaimExpired [LE T] [DecidableLE T] {p : Pool ι T}
    (h : p.Conserved) {now : T}
    (hr : ∀ g ∈ p.ledger.expired now, g.amountMicros = 0) : (p.reclaimExpired now).Conserved := by
  have hnone : totalMicros (p.ledger.expired now) = 0 := by
    refine List.sum_eq_zero fun x hx => ?_
    obtain ⟨g, hg, rfl⟩ := List.mem_map.mp hx
    exact hr g hg
  refine ⟨?_, h.worth, h.empty⟩
  simp only [Pool.reclaimExpired, Ledger.reclaimExpired, Ledger.foldl_reclaim, hnone, sub_zero]
  exact h.granted

end Worth

variable [DecidableEq ι]

theorem read_update {β : Type} (f : Lease → β) {lease : ι → Lease} {k : ι} {c : Lease}
    (hc : f c = f (lease k)) (j : ι) : f (Function.update lease k c j) = f (lease j) := by
  by_cases hj : j = k
  · rw [hj, Function.update_self, hc]
  · rw [Function.update_of_ne hj]

section Known
variable {p : Pool ι T}

theorem Known.frame (h : p.Known) {k : ι} {c : Lease} (hc : c.token = (p.lease k).token)
    {l : Ledger T} (hn : l.nextToken = p.ledger.nextToken)
    (ho : l.outstanding = p.ledger.outstanding) (debited dropped : ℤ) :
    Known
      { p with
        ledger := l
        lease := Function.update p.lease k c
        debited := debited
        dropped := dropped } := by
  have htoken : ∀ j, (Function.update p.lease k c j).token = (p.lease j).token :=
    read_update Lease.token hc
  have htokens : l.tokens = p.ledger.tokens := congrArg (List.map Grant.token) ho
  exact
    { fenced := h.fenced.of_sublist hn (ho ▸ List.Sublist.refl _)
      covered := fun t ht => h.covered t (htokens ▸ ht)
      live := fun j t ht => htokens.symm ▸ h.live j t ht
      newest := fun j hj => (htoken j).symm ▸ h.newest j hj
      idle := fun j hj => by
        change (Function.update p.lease k c j).token ∉ l.tokens
        rw [htoken, htokens]
        exact h.idle j hj
      apart := h.apart
      below := fun j => by
        change (Function.update p.lease k c j).token < l.nextToken
        rw [htoken, hn]
        exact h.below j
      gone := fun t ht => by
        change t < l.nextToken
        rw [hn]
        exact h.gone t ht }

theorem Known.charge (h : p.Known) (k : ι) (cost : ℤ) : (p.charge k cost).Known :=
  h.frame (k := k) (c := (p.lease k).charge cost) rfl rfl rfl (p.debited + cost) p.dropped

theorem Known.forget (h : p.Known) (k : ι) : (p.forget k).Known :=
  h.frame (k := k) (c := (p.lease k).clear) rfl rfl rfl p.debited
    (p.dropped + (p.lease k).remainingMicros)

theorem Known.refuse (h : p.Known) (k : ι) : (p.refuse k).Known :=
  h.frame (k := k) (c := { p.lease k with halted := true })
    (l := { p.ledger with halted := true }) rfl rfl rfl p.debited p.dropped

theorem mem_tokens_settled (p : Pool ι T) (k : ι) (t : ℤ) :
    t ∈ (p.settled k).ledger.tokens ↔ t ∈ p.ledger.tokens ∧ t ≠ (p.lease k).token :=
  Ledger.mem_tokens_filter p.ledger _ t

theorem token_settled (p : Pool ι T) (k j : ι) :
    ((p.settled k).lease j).token = (p.lease j).token := by
  have hclear : (p.lease k).clear.token = (p.lease k).token := rfl
  exact read_update Lease.token hclear j

theorem held_settled_self (p : Pool ι T) (k : ι) : (p.settled k).held k = [] :=
  Function.update_self ..

theorem held_settled_of_ne (p : Pool ι T) {j k : ι} (hj : j ≠ k) :
    (p.settled k).held j = p.held j := Function.update_of_ne hj ..

theorem mem_held_settled {j k : ι} {t : ℤ} :
    t ∈ (p.settled k).held j ↔ j ≠ k ∧ t ∈ p.held j := by
  by_cases hj : j = k
  · rw [hj, held_settled_self]
    exact ⟨fun h => absurd h List.not_mem_nil, fun h => absurd rfl h.1⟩
  · rw [held_settled_of_ne p hj]
    exact ⟨fun h => ⟨hj, h⟩, And.right⟩

theorem Known.settled (h : p.Known) (k : ι) (ht : (p.lease k).token ∈ p.ledger.tokens) :
    (p.settled k).Known := by
  have hmine : (p.lease k).token ∈ p.held k := h.newest k ((h.mem_tokens_iff k).mp ht)
  refine
    { fenced := h.fenced.of_sublist rfl (List.filter_sublist ..)
      covered := fun t hm => ?_
      live := fun j t hm => ?_
      newest := fun j hj => ?_
      idle := fun j hj hm => ?_
      apart := fun i j t hi hj =>
        h.apart i j t (mem_held_settled.mp hi).2 (mem_held_settled.mp hj).2
      below := fun j => (token_settled p k j).symm ▸ h.below j
      gone := fun t hm => ?_ }
  · rcases h.covered t ((mem_tokens_settled p k t).mp hm).1 with ⟨j, hj⟩ | hl
    · by_cases hjk : j = k
      · exact .inr (List.mem_append_left _ (hjk ▸ hj))
      · exact .inl ⟨j, mem_held_settled.mpr ⟨hjk, hj⟩⟩
    · exact .inr (List.mem_append_right _ hl)
  · obtain ⟨hj, hold⟩ := mem_held_settled.mp hm
    refine (mem_tokens_settled p k t).mpr ⟨h.live j t hold, ?_⟩
    rintro rfl
    exact hj (h.apart j k _ hold hmine)
  · have hjk : j ≠ k := by
      rintro rfl
      exact hj (held_settled_self p j)
    rw [held_settled_of_ne p hjk] at hj ⊢
    rw [token_settled]
    exact h.newest j hj
  · obtain ⟨hold, hne⟩ := (mem_tokens_settled p k _).mp hm
    rw [token_settled] at hold hne
    have hjk : j ≠ k := by
      rintro rfl
      exact hne rfl
    exact h.idle j (held_settled_of_ne p hjk ▸ hj) hold
  · rcases List.mem_append.mp hm with hm | hm
    · exact h.fenced.below t (h.live k t hm)
    · exact h.gone t hm

section Serve
variable [Add T] [OfNat T 300]

theorem mem_tokens_serve {k : ι} {now : T} {t : ℤ} :
    t ∈ (p.serve k now).ledger.tokens ↔ t ∈ p.ledger.tokens ∨ t = p.ledger.nextToken :=
  Ledger.mem_tokens_issue

theorem token_serve_self (p : Pool ι T) (k : ι) (now : T) :
    ((p.serve k now).lease k).token = p.ledger.nextToken := by
  simp only [Pool.serve, Function.update_self]
  rfl

theorem token_serve_of_ne (p : Pool ι T) {j k : ι} (hj : j ≠ k) (now : T) :
    ((p.serve k now).lease j).token = (p.lease j).token :=
  congrArg Lease.token (Function.update_of_ne hj ..)

theorem held_serve_self (p : Pool ι T) (k : ι) (now : T) :
    (p.serve k now).held k = p.ledger.nextToken :: p.held k := Function.update_self ..

theorem held_serve_of_ne (p : Pool ι T) {j k : ι} (hj : j ≠ k) (now : T) :
    (p.serve k now).held j = p.held j := Function.update_of_ne hj ..

theorem mem_held_serve {j k : ι} {now : T} {t : ℤ} :
    t ∈ (p.serve k now).held j ↔ t ∈ p.held j ∨ j = k ∧ t = p.ledger.nextToken := by
  by_cases hj : j = k
  · rw [hj, held_serve_self, List.mem_cons, eq_self_iff_true, true_and, or_comm]
  · rw [held_serve_of_ne p hj]
    exact ⟨.inl, fun h => h.resolve_right fun hk => hj hk.1⟩

theorem Known.serve (h : p.Known) (k : ι) (now : T) : (p.serve k now).Known := by
  have hnew : ∀ j, p.ledger.nextToken ∉ p.held j :=
    fun j hm => lt_irrefl _ (h.fenced.below _ (h.live j _ hm))
  refine
    { fenced := h.fenced.issue _ _ _
      covered := fun t ht => ?_
      live := fun j t ht => ?_
      newest := fun j hj => ?_
      idle := fun j hj hm => ?_
      apart := fun i j t hi hj => ?_
      below := fun j => ?_
      gone := fun t ht => (h.gone t ht).trans (Int.lt_succ _) }
  · rcases mem_tokens_serve.mp ht with ht | rfl
    · rcases h.covered t ht with ⟨j, hj⟩ | hl
      · exact .inl ⟨j, mem_held_serve.mpr (.inl hj)⟩
      · exact .inr hl
    · exact .inl ⟨k, mem_held_serve.mpr (.inr ⟨rfl, rfl⟩)⟩
  · rcases mem_held_serve.mp ht with ht | ⟨-, rfl⟩
    · exact mem_tokens_serve.mpr (.inl (h.live j t ht))
    · exact mem_tokens_serve.mpr (.inr rfl)
  · by_cases hjk : j = k
    · rw [hjk, token_serve_self, held_serve_self]
      exact List.mem_cons_self
    · rw [held_serve_of_ne p hjk] at hj ⊢
      rw [token_serve_of_ne p hjk]
      exact h.newest j hj
  · by_cases hjk : j = k
    · rw [hjk, held_serve_self] at hj
      cases hj
    · rw [held_serve_of_ne p hjk] at hj
      rw [token_serve_of_ne p hjk] at hm
      rcases mem_tokens_serve.mp hm with hm | he
      · exact h.idle j hj hm
      · exact (h.below j).ne he
  · rcases mem_held_serve.mp hi with hi | ⟨rfl, rfl⟩
    · rcases mem_held_serve.mp hj with hj | ⟨-, rfl⟩
      · exact h.apart i j t hi hj
      · exact absurd hi (hnew i)
    · rcases mem_held_serve.mp hj with hj | ⟨rfl, -⟩
      · exact absurd hj (hnew j)
      · rfl
  · change ((p.serve k now).lease j).token < p.ledger.nextToken + 1
    by_cases hjk : j = k
    · rw [hjk, token_serve_self]
      exact Int.lt_succ _
    · rw [token_serve_of_ne p hjk]
      exact (h.below j).trans (Int.lt_succ _)

end Serve

end Known

section Conserved
variable [Fintype ι] {p : Pool ι T}

theorem Conserved.frame (h : p.Conserved) {k : ι} {c : Lease} (hc : c.worth = (p.lease k).worth)
    {l : Ledger T} (hg : l.grantedMicros = p.ledger.grantedMicros)
    (hs : l.settledMicros = p.ledger.settledMicros) (debited dropped : ℤ) :
    Conserved
      { p with
        ledger := l
        lease := Function.update p.lease k c
        debited := debited
        dropped := dropped } := by
  have hworth : ∀ j, (Function.update p.lease k c j).worth = (p.lease j).worth :=
    read_update Lease.worth hc
  refine ⟨?_, fun j => (hworth j).symm ▸ h.worth j, fun j hj => (hworth j).trans (h.empty j hj)⟩
  change l.grantedMicros = l.settledMicros + ∑ j, (Function.update p.lease k c j).worth
  rw [hg, hs, h.granted, Finset.sum_congr rfl fun j _ => hworth j]
  rfl

theorem Conserved.charge (h : p.Conserved) (k : ι) (cost : ℤ) : (p.charge k cost).Conserved := by
  have hworth : ((p.lease k).charge cost).worth = (p.lease k).worth := by
    simp only [Lease.worth, Lease.charge]
    ring
  exact h.frame hworth rfl rfl (p.debited + cost) p.dropped

theorem Conserved.forget (h : p.Conserved) {k : ι} (hidle : p.held k = []) :
    (p.forget k).Conserved := by
  have hworth : (p.lease k).clear.worth = (p.lease k).worth := (h.empty k hidle).symm
  exact h.frame hworth rfl rfl p.debited (p.dropped + (p.lease k).remainingMicros)

theorem Conserved.refuse (h : p.Conserved) (k : ι) : (p.refuse k).Conserved :=
  h.frame (k := k) (c := { p.lease k with halted := true })
    (l := { p.ledger with halted := true }) rfl rfl rfl p.debited p.dropped

theorem Conserved.settled (h : p.Conserved) {k : ι} (hr : 0 ≤ (p.lease k).remainingMicros) :
    (p.settled k).Conserved := by
  have hunused : (p.lease k).unused = (p.lease k).remainingMicros := max_eq_right hr
  have hsum : (p.settled k).totalWorth = p.totalWorth - (p.lease k).worth := by
    refine (sum_update Lease.worth p.lease k _).trans ?_
    rw [Lease.worth, Lease.clear, add_zero, zero_sub, sub_eq_add_neg]
    rfl
  have hgranted := h.granted
  refine ⟨?_, ?_, fun j hj => ?_⟩
  · rw [hsum, Lease.worth]
    simp only [Pool.settled, hunused]
    omega
  · exact nonneg_update Lease.worth h.worth k le_rfl
  · change (Function.update p.lease k (p.lease k).clear j).worth = 0
    by_cases hjk : j = k
    · rw [hjk, Function.update_self]
      rfl
    · rw [Function.update_of_ne hjk]
      exact h.empty j ((Function.update_of_ne hjk _ _).symm.trans hj)

theorem Conserved.serve [Add T] [OfNat T 300] (h : p.Conserved) {k : ι} (now : T)
    (ha : 0 ≤ min (p.lease k).sizeMicros p.ledger.available) : (p.serve k now).Conserved := by
  have hsum : (p.serve k now).totalWorth =
      p.totalWorth + min (p.lease k).sizeMicros p.ledger.available := by
    refine (sum_update Lease.worth p.lease k _).trans ?_
    simp only [Lease.worth, Lease.receive, Ledger.nextGrant, totalWorth]
    ring
  have hgranted := h.granted
  have hk := h.worth k
  refine ⟨?_, ?_, fun j hj => ?_⟩
  · rw [hsum]
    simp only [Pool.serve, Ledger.issue, Ledger.nextGrant]
    omega
  · refine nonneg_update Lease.worth h.worth k ?_
    rw [Lease.worth] at hk
    simp only [Lease.worth, Lease.receive, Ledger.nextGrant]
    omega
  · have hjk : j ≠ k := by
      rintro rfl
      have hself : (p.serve j now).held j = p.ledger.nextToken :: p.held j :=
        Function.update_self ..
      rw [hself] at hj
      cases hj
    change (Function.update p.lease k _ j).worth = 0
    rw [Function.update_of_ne hjk]
    exact h.empty j ((Function.update_of_ne hjk _ _).symm.trans hj)

end Conserved

def Dry (p : Pool ι T) : Prop := ∀ g ∈ p.ledger.outstanding, g.token ∈ p.left → g.amountMicros = 0

section Step
variable [LE T] [DecidableLE T] [Add T] [OfNat T 300] [OfNat T 0]

-- Who releases holds nothing but the grant its token names.
def Clears (p : Pool ι T) : LeaseOp ι T → Prop
  | .release k => ∀ g ∈ p.ledger.outstanding, g.token ∈ p.held k →
      g.token = (p.lease k).token ∨ g.amountMicros = 0
  | _ => True

def Conserves (p : Pool ι T) (ops : List (LeaseOp ι T)) : Prop :=
  Trace.Always step
      (fun p => p.ledger.settledMicros ≤ p.ledger.grantedMicros ∧
        p.ledger.grantedMicros ≤ p.ledger.budgetMicros) p ops ∧
    Trace.Along step (fun p op => ¬ p.Disturbs op) p ops

theorem Known.step {p : Pool ι T} (h : p.Known) {op : LeaseOp ι T} (ht : p.Timely op) :
    (p.step op).Known :=
  preserved (R := fun p g => ∀ k, g.token ∉ p.held k) (Q := fun _ _ => True)
    (fun _ k cost h _ => h.charge k cost) (fun _ k h _ ht => h.settled k ht)
    (fun _ k h _ => h.forget k) (fun _ now h hr => h.reclaimExpired now hr)
    (fun _ k h => h.refuse k) (fun _ k now h _ => h.serve k now) (fun _ _ _ _ hr => hr) p op h ht
    fun _ _ => trivial

theorem Dry.step {p : Pool ι T} (hd : p.Dry) (hk : p.Known) {op : LeaseOp ι T}
    (ht : p.Timely op) (hc : p.Clears op) : (p.step op).Known ∧ (p.step op).Dry := by
  refine preserved (I := fun p : Pool ι T => p.Known ∧ p.Dry)
    (R := fun p g => ∀ k, g.token ∉ p.held k)
    (Q := fun p k => ∀ g ∈ p.ledger.outstanding, g.token ∈ p.held k →
      g.token = (p.lease k).token ∨ g.amountMicros = 0) ?_ ?_ ?_ ?_ ?_ ?_
    (fun _ _ _ _ hr => hr) p op ⟨hk, hd⟩ ht ?_
  · exact fun p k cost h _ => ⟨h.1.charge k cost, h.2⟩
  · refine fun p k h hq ht => ⟨h.1.settled k ht, fun g hg hl => ?_⟩
    obtain ⟨hg, hne⟩ := List.mem_filter.mp hg
    rcases List.mem_append.mp hl with hl | hl
    · exact (hq g hg hl).resolve_left (by simpa using hne)
    · exact h.2 g hg hl
  · exact fun p k h _ => ⟨h.1.forget k, h.2⟩
  · refine fun p now h hr => ⟨h.1.reclaimExpired now hr, fun g hg hl => ?_⟩
    simp only [reclaimExpired, Ledger.reclaimExpired_fst h.1.fenced] at hg
    exact h.2 g (List.mem_of_mem_filter hg) hl
  · exact fun p k h => ⟨h.1.refuse k, h.2⟩
  · refine fun p k now h _ => ⟨h.1.serve k now, fun g hg hl => ?_⟩
    rcases List.mem_append.mp hg with hg | hg
    · exact h.2 g hg hl
    · rw [List.mem_singleton.mp hg] at hl
      exact absurd (h.1.gone _ hl) (lt_irrefl _)
  · rintro k rfl
    exact hc

theorem harmless_of_clears {budget : ℤ} {size : ι → ℤ} {ops : List (LeaseOp ι T)}
    (ht : Trace.Along step Timely (start budget size) ops)
    (hc : Trace.Along step Clears (start budget size) ops) :
    Trace.Along step Harmless (start budget size) ops := by
  have hdry : Trace.Always step (fun p : Pool ι T => p.Known ∧ p.Dry) (start budget size) ops :=
    Trace.always_of_invariant (I := fun p : Pool ι T => p.Known ∧ p.Dry)
      (P := fun p op => p.Timely op ∧ p.Clears op) (fun _ _ h hop => h.2.step h.1 hop.1 hop.2)
      ⟨known_start budget size, fun _ hg => by cases hg⟩ (ht.and hc)
  rw [Trace.along_iff] at ht ⊢
  intro pre op post hops g hg
  obtain ⟨hknown, hd⟩ := hdry pre (op :: post) hops
  exact hd g (mem_of_mem_due hg) (hknown.left_of_due (ht pre op post hops) hg)

variable [Fintype ι]

instance (p : Pool ι T) (op : LeaseOp ι T) : Decidable (p.Timely op) :=
  inferInstanceAs (Decidable (∀ g ∈ p.due op, ∀ k, g.token ∉ p.held k))

instance (p : Pool ι T) : (op : LeaseOp ι T) → Decidable (p.Clears op)
  | .release k => inferInstanceAs (Decidable (∀ g ∈ p.ledger.outstanding, g.token ∈ p.held k →
      g.token = (p.lease k).token ∨ g.amountMicros = 0))
  | .renew _ _ | .debit _ _ | .reclaimExpired _ => isTrue trivial

structure Sound (budgetMicros : ℤ) (p : Pool ι T) : Prop where
  known : p.Known
  solvent : p.Solvent budgetMicros
  conserved : p.Conserved

theorem Sound.step {budget : ℤ} {p : Pool ι T} (h : p.Sound budget) {op : LeaseOp ι T}
    (ht : p.Timely op) (hh : p.Harmless op) : (p.step op).Sound budget := by
  refine preserved (I := Sound budget)
    (R := fun p g => (∀ k, g.token ∉ p.held k) ∧ g.amountMicros = 0) (Q := fun _ _ => True)
    ?_ ?_ ?_ ?_ ?_ ?_ (fun _ _ _ _ hr => hr) p op h (fun g hg => ⟨ht g hg, hh g hg⟩)
    fun _ _ => trivial
  · exact fun p k cost h ha =>
      ⟨h.known.charge k cost, h.solvent.charge k ha, h.conserved.charge k cost⟩
  · exact fun p k h _ ht =>
      ⟨h.known.settled k ht, h.solvent.settled k, h.conserved.settled (h.solvent.remaining k)⟩
  · intro p k h ht
    have hidle : p.held k = [] := by
      by_contra hne
      exact ht ((h.known.mem_tokens_iff k).mpr hne)
    exact ⟨h.known.forget k, h.solvent.forget k, h.conserved.forget hidle⟩
  · exact fun p now h hr => ⟨h.known.reclaimExpired now fun g hg => (hr g hg).1,
      h.solvent.reclaimExpired now, h.conserved.reclaimExpired fun g hg => (hr g hg).2⟩
  · exact fun p k h => ⟨h.known.refuse k, h.solvent.refuse k, h.conserved.refuse k⟩
  · intro p k now h hs
    have hleft : 0 < p.ledger.available := not_le.mp (not_or.mp hs).2
    exact ⟨h.known.serve k now, h.solvent.serve k now hs,
      h.conserved.serve now (le_min (h.solvent.sizes k) hleft.le)⟩

theorem conserves_iff_harmless {budget : ℤ} {size : ι → ℤ} {ops : List (LeaseOp ι T)}
    (hb : 0 ≤ budget) (hs : ∀ k, 0 ≤ size k)
    (ht : Trace.Along step Timely (start budget size) ops) :
    Conserves (start budget size) ops ↔ Trace.Along step Harmless (start budget size) ops := by
  constructor
  · rintro ⟨-, hquiet⟩
    have hknown : Trace.Always step (fun p : Pool ι T => p.Known) (start budget size) ops :=
      Trace.always_of_invariant (fun _ _ h hop => h.step hop) (known_start budget size) ht
    rw [Trace.along_iff] at ht hquiet ⊢
    intro pre op post hops g hg
    by_contra hne
    exact hquiet pre op post hops
      ⟨g, hg, (hknown pre (op :: post) hops).left_of_due (ht pre op post hops) hg, hne⟩
  · intro hh
    have hsound : Trace.Always step (Sound budget) (start budget size : Pool ι T) ops :=
      Trace.always_of_invariant (fun _ _ h hop => h.step hop.1 hop.2)
        ⟨known_start budget size, solvent_start hb hs, conserved_start budget size⟩ (ht.and hh)
    refine ⟨fun pre post hops => ?_, hh.mono ?_⟩
    · have h := hsound pre post hops
      exact ⟨h.conserved.settled_le, h.solvent.budget.symm ▸ h.solvent.within⟩
    · rintro p op hop ⟨g, hg, -, hne⟩
      exact hne (hop g hg)

theorem ledger_conserved_if_cleared {budget : ℤ} {size : ι → ℤ} {ops : List (LeaseOp ι T)}
    (hb : 0 ≤ budget) (hs : ∀ k, 0 ≤ size k)
    (ht : Trace.Along step Timely (start budget size) ops) :
    (Trace.Along step Clears (start budget size) ops → Conserves (start budget size) ops) ∧
      (Conserves (start budget size) ops ↔
        Trace.Along step Harmless (start budget size) ops) :=
  ⟨fun hc => (conserves_iff_harmless hb hs ht).mpr (harmless_of_clears ht hc),
    conserves_iff_harmless hb hs ht⟩

end Step

section Example

def oneSliceEach : List (LeaseOp (Fin 2) ℕ) :=
  [.renew 0 0, .renew 1 10, .debit 0 60, .release 0, .debit 1 30, .release 1, .reclaimExpired 400]

theorem ledger_conserved_one_slice_each : Conserves (start 1000 fun _ => 100) oneSliceEach :=
  (ledger_conserved_if_cleared (by decide) (by decide) (by decide)).1 (by decide)

def spentSlice : List (LeaseOp Unit ℕ) :=
  [.renew () 0, .debit () 100, .release (), .reclaimExpired 400]

theorem settled_slice_reclaimed :
    (spentSlice.filterMap LeaseOp.now?).Pairwise (· ≤ ·) ∧
      Trace.Along step Timely (start 1000 fun _ => 100) spentSlice ∧
      (Trace.run step (start 1000 fun _ => 100) spentSlice).ledger.settledMicros = 100 ∧
      (Trace.run step (start 1000 fun _ => 100) spentSlice).ledger.grantedMicros = 0 ∧
      ¬ Conserves (start 1000 fun _ => 100) spentSlice := by
  have hsettled : (Trace.run step (start 1000 fun _ => 100) spentSlice).ledger.settledMicros =
      100 := by decide
  have hgranted : (Trace.run step (start 1000 fun _ => 100) spentSlice).ledger.grantedMicros =
      0 := by decide
  refine ⟨by decide, by decide, hsettled, hgranted, fun h => ?_⟩
  have hle := (h.1 spentSlice [] (List.append_nil _).symm).1
  rw [hsettled, hgranted] at hle
  omega

end Example

end Pool

end BudgetLease
