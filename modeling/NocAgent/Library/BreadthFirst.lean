import Mathlib.Algebra.BigOperators.Group.Finset.Basic
import Mathlib.Data.Finset.Union
import Mathlib.Data.Fintype.Card
import Mathlib.Logic.Relation

namespace BreadthFirst
variable {α β : Type} [DecidableEq α] (next : α → List α) (found : α → Option β)

-- The queue loop: a node seen before is skipped, and the first one that is found ends it.
def search [Fintype α] : List α → Finset α → Option β
  | [], _ => none
  | x :: queue, seen =>
    if x ∈ seen then search queue seen
    else
      match found x with
      | some b => some b
      | none => search (queue ++ next x) (insert x seen)
termination_by queue seen => (seenᶜ.card, queue.length)
decreasing_by
  · exact .right _ (Nat.lt_succ_self _)
  · refine .left _ _ (Finset.card_lt_card ?_)
    rw [Finset.compl_ssubset_compl]
    exact Finset.ssubset_insert ‹_›

-- The same loop for fewer than the given number of rounds, with the nodes that it looks at.
def loop : ℕ → List α → Finset α → Option (List α × Option β)
  | 0, _, _ => none
  | _ + 1, [], _ => some ([], none)
  | rounds + 1, x :: queue, seen =>
    if x ∈ seen then loop rounds queue seen
    else
      match found x with
      | some b => some ([x], some b)
      | none => (loop rounds (queue ++ next x) (insert x seen)).map fun r => (x :: r.1, r.2)

def generation (root : α) : ℕ → List α
  | 0 => [root]
  | n + 1 => (generation root n).flatMap next

def fresh : List α → Finset α → List α
  | [], _ => []
  | x :: xs, seen => if x ∈ seen then fresh xs seen else x :: fresh xs (insert x seen)

def Reachable (root x : α) : Prop := Relation.ReflTransGen (fun x y => y ∈ next x) root x

variable {next found} {root x : α} {xs ys queue : List α} {seen : Finset α} {n : ℕ}

omit [DecidableEq α] in
theorem reachable_iff : Reachable next root x ↔ ∃ n, x ∈ generation next root n := by
  constructor
  · intro h
    induction h with
    | refl => exact ⟨0, List.mem_singleton_self root⟩
    | tail _ hstep ih =>
      obtain ⟨n, hn⟩ := ih
      exact ⟨n + 1, List.mem_flatMap.mpr ⟨_, hn, hstep⟩⟩
  · rintro ⟨n, hn⟩
    induction n generalizing x with
    | zero =>
      rw [generation, List.mem_singleton] at hn
      exact hn ▸ .refl
    | succ n ih =>
      obtain ⟨y, hy, hstep⟩ := List.mem_flatMap.mp hn
      exact (ih hy).tail hstep

theorem mem_fresh : x ∈ fresh xs seen ↔ x ∈ xs ∧ x ∉ seen := by
  induction xs generalizing seen with
  | nil => simp [fresh]
  | cons y ys ih =>
    rw [fresh]
    split_ifs with hy
    · rw [ih, List.mem_cons]
      exact ⟨fun h => ⟨.inr h.1, h.2⟩,
        fun h => ⟨h.1.resolve_left fun hxy => h.2 (hxy ▸ hy), h.2⟩⟩
    · rw [List.mem_cons, ih, List.mem_cons, Finset.mem_insert, not_or]
      by_cases hxy : x = y
      · simp [hxy, hy]
      · simp [hxy]

theorem fresh_append (xs ys : List α) (seen : Finset α) :
    fresh (xs ++ ys) seen = fresh xs seen ++ fresh ys (seen ∪ xs.toFinset) := by
  induction xs generalizing seen with
  | nil => simp [fresh]
  | cons x xs ih =>
    rw [List.cons_append, fresh, fresh, List.toFinset_cons]
    split_ifs with hx
    · rw [ih, Finset.union_insert, Finset.insert_eq_of_mem (Finset.mem_union_left _ hx)]
    · rw [ih, Finset.insert_union, Finset.union_insert, List.cons_append]

theorem fresh_eq_nil_iff : fresh xs seen = [] ↔ ∀ x ∈ xs, x ∈ seen := by
  rw [List.eq_nil_iff_forall_not_mem]
  simp only [mem_fresh, not_and, not_not]

theorem findSome?_fresh (h : ∀ x ∈ seen, found x = none) (xs : List α) :
    (fresh xs seen).findSome? found = xs.findSome? found := by
  induction xs generalizing seen with
  | nil => rfl
  | cons x xs ih =>
    rw [fresh, List.findSome?_cons]
    split_ifs with hx
    · rw [h x hx, ih h]
    · rw [List.findSome?_cons]
      cases hfound : found x with
      | some b => rfl
      | none =>
        refine ih fun y hy => ?_
        rcases Finset.mem_insert.mp hy with rfl | hy
        · exact hfound
        · exact h y hy

theorem fresh_flatMap {seen' : Finset α} (h : ∀ x ∈ seen, ∀ y ∈ next x, y ∈ seen') :
    fresh ((fresh xs seen).flatMap next) seen' = fresh (xs.flatMap next) seen' := by
  induction xs generalizing seen seen' with
  | nil => rfl
  | cons x xs ih =>
    rw [fresh, List.flatMap_cons, fresh_append]
    split_ifs with hx
    · have hnil : fresh (next x) seen' = [] := fresh_eq_nil_iff.mpr (h x hx)
      have hsub : seen' ∪ (next x).toFinset = seen' :=
        Finset.union_eq_left.mpr fun y hy => h x hx y (List.mem_toFinset.mp hy)
      rw [hnil, hsub, List.nil_append, ih h]
    · rw [List.flatMap_cons, fresh_append, ih]
      intro y hy z hz
      rcases Finset.mem_insert.mp hy with rfl | hy
      · exact Finset.mem_union_right _ (List.mem_toFinset.mpr hz)
      · exact Finset.mem_union_left _ (h y hy z hz)

section Finite
variable [Fintype α]

theorem search_append (next : α → List α) (found : α → Option β) (xs ys : List α)
    (seen : Finset α) :
    search next found (xs ++ ys) seen =
      ((fresh xs seen).findSome? found).or
        (search next found (ys ++ (fresh xs seen).flatMap next) (seen ∪ xs.toFinset)) := by
  induction xs generalizing ys seen with
  | nil => simp [fresh]
  | cons x xs ih =>
    rw [List.cons_append, search, fresh, List.toFinset_cons, Finset.union_insert]
    split_ifs with hx
    · rw [ih, Finset.insert_eq_of_mem (Finset.mem_union_left _ hx)]
    · rw [List.findSome?_cons]
      cases found x with
      | some b => rfl
      | none =>
        simp only
        rw [List.append_assoc, ih, List.flatMap_cons, List.append_assoc, Finset.insert_union]

theorem search_eq (queue : List α) (seen : Finset α) :
    search next found queue seen =
      ((fresh queue seen).findSome? found).or
        (search next found ((fresh queue seen).flatMap next) (seen ∪ queue.toFinset)) := by
  have h := search_append next found queue [] seen
  rwa [List.append_nil, List.nil_append] at h

-- How a queue and what was seen stand for the generation that is looked at next.
structure Round (next : α → List α) (found : α → Option β) (root : α) (n : ℕ) (queue : List α)
    (seen : Finset α) : Prop where
  brings : fresh queue seen = fresh (generation next root n) seen
  closed : ∀ x ∈ seen, ∀ y ∈ next x, y ∈ seen ∪ (generation next root n).toFinset
  clear : ∀ x ∈ seen, found x = none

omit [Fintype α] in
theorem Round.seen_union (h : Round next found root n queue seen) :
    seen ∪ queue.toFinset = seen ∪ (generation next root n).toFinset := by
  ext x
  have hmem : x ∈ fresh queue seen ↔ x ∈ fresh (generation next root n) seen := by rw [h.brings]
  rw [mem_fresh, mem_fresh] at hmem
  rw [Finset.mem_union, Finset.mem_union, List.mem_toFinset, List.mem_toFinset]
  by_cases hx : x ∈ seen
  · exact iff_of_true (.inl hx) (.inl hx)
  · simpa [hx] using hmem

omit [Fintype α] in
theorem Round.findSome? (h : Round next found root n queue seen) :
    (fresh queue seen).findSome? found = (generation next root n).findSome? found := by
  rw [h.brings, findSome?_fresh h.clear]

omit [Fintype α] in
theorem Round.succ (h : Round next found root n queue seen)
    (hnone : (generation next root n).findSome? found = none) :
    Round next found root (n + 1) ((fresh queue seen).flatMap next) (seen ∪ queue.toFinset) := by
  rw [h.seen_union, h.brings]
  refine ⟨fresh_flatMap h.closed, fun x hx y hy => ?_, fun x hx => ?_⟩
  · rcases Finset.mem_union.mp hx with hx | hx
    · exact Finset.mem_union_left _ (h.closed x hx y hy)
    · exact Finset.mem_union_right _ (List.mem_toFinset.mpr
        (List.mem_flatMap.mpr ⟨x, List.mem_toFinset.mp hx, hy⟩))
  · rcases Finset.mem_union.mp hx with hx | hx
    · exact h.clear x hx
    · exact List.findSome?_eq_none_iff.mp hnone x (List.mem_toFinset.mp hx)

omit [Fintype α] in
theorem Round.generation_seen (h : Round next found root n queue seen)
    (hnil : fresh queue seen = []) {k : ℕ} (hk : n ≤ k) :
    ∀ x ∈ generation next root k, x ∈ seen := by
  have hfirst : ∀ x ∈ generation next root n, x ∈ seen :=
    fresh_eq_nil_iff.mp (h.brings ▸ hnil)
  induction k, hk using Nat.le_induction with
  | base => exact hfirst
  | succ k _ ih =>
    intro x hx
    obtain ⟨y, hy, hxy⟩ := List.mem_flatMap.mp hx
    rcases Finset.mem_union.mp (h.closed y (ih y hy) x hxy) with hx | hx
    · exact hx
    · exact hfirst x (List.mem_toFinset.mp hx)

def First (next : α → List α) (found : α → Option β) (root : α) (n : ℕ) (b : β) : Prop :=
  ∃ k, n ≤ k ∧ (∀ i, n ≤ i → i < k → ∀ x ∈ generation next root i, found x = none) ∧
    (generation next root k).findSome? found = some b

omit [DecidableEq α] [Fintype α] in
theorem first_of_found {b c : β} (h : (generation next root n).findSome? found = some c) :
    First next found root n b ↔ c = b := by
  constructor
  · rintro ⟨k, hk, hbefore, hfound⟩
    rcases Nat.eq_or_lt_of_le hk with rfl | hlt
    · rw [h] at hfound
      exact Option.some.inj hfound
    · rw [List.findSome?_eq_none_iff.mpr (hbefore n le_rfl hlt)] at h
      cases h
  · rintro rfl
    exact ⟨n, le_rfl, fun i hi hlt => absurd hi (Nat.not_le_of_lt hlt), h⟩

omit [DecidableEq α] [Fintype α] in
theorem first_succ {b : β} (h : (generation next root n).findSome? found = none) :
    First next found root n b ↔ First next found root (n + 1) b := by
  constructor
  · rintro ⟨k, hk, hbefore, hfound⟩
    have hne : n ≠ k := by
      rintro rfl
      rw [h] at hfound
      cases hfound
    exact ⟨k, by omega, fun i hi hlt => hbefore i (by omega) hlt, hfound⟩
  · rintro ⟨k, hk, hbefore, hfound⟩
    refine ⟨k, by omega, fun i hi hlt => ?_, hfound⟩
    rcases Nat.eq_or_lt_of_le hi with rfl | hlow
    · exact List.findSome?_eq_none_iff.mp h
    · exact hbefore i hlow hlt

theorem Round.search_iff (h : Round next found root n queue seen) {b : β} :
    search next found queue seen = some b ↔ First next found root n b := by
  induction hcard : seenᶜ.card using Nat.strong_induction_on generalizing n queue seen with
  | _ card ih =>
    rw [search_eq, h.findSome?]
    cases hfirst : (generation next root n).findSome? found with
    | some c => rw [Option.some_or, first_of_found hfirst, Option.some.injEq]
    | none =>
      rw [Option.none_or, first_succ hfirst]
      by_cases hnil : fresh queue seen = []
      · rw [hnil, List.flatMap_nil, search]
        refine iff_of_false (fun h => by cases h) ?_
        rintro ⟨k, hk, -, hfound⟩
        obtain ⟨x, hx, hb⟩ := List.exists_of_findSome?_eq_some hfound
        rw [h.clear x (h.generation_seen hnil (by omega) x hx)] at hb
        cases hb
      · refine ih _ ?_ (h.succ hfirst) rfl
        obtain ⟨x, hx⟩ := List.exists_mem_of_ne_nil _ hnil
        rw [mem_fresh] at hx
        rw [← hcard]
        refine Finset.card_lt_card ?_
        rw [Finset.compl_ssubset_compl]
        exact Finset.ssubset_iff_of_subset Finset.subset_union_left |>.mpr
          ⟨x, Finset.mem_union_right _ (List.mem_toFinset.mpr hx.1), hx.2⟩

theorem search_eq_some_iff {b : β} :
    search next found [root] ∅ = some b ↔ First next found root 0 b := by
  have hround : Round next found root 0 [root] ∅ :=
    ⟨rfl, fun x hx => absurd hx (Finset.notMem_empty x),
      fun x hx => absurd hx (Finset.notMem_empty x)⟩
  exact hround.search_iff

theorem search_eq_none_iff :
    search next found [root] ∅ = none ↔ ∀ x, Reachable next root x → found x = none := by
  constructor
  · intro h x hx
    by_contra hfound
    obtain ⟨n, hn⟩ := reachable_iff.mp hx
    have hsome : ∃ k, (generation next root k).findSome? found ≠ none :=
      ⟨n, fun hnone => hfound (List.findSome?_eq_none_iff.mp hnone x hn)⟩
    classical
    obtain ⟨b, hb⟩ := Option.ne_none_iff_exists'.mp (Nat.find_spec hsome)
    have hfirst : First next found root 0 b := by
      refine ⟨Nat.find hsome, Nat.zero_le _, fun i _ hlt => ?_, hb⟩
      exact List.findSome?_eq_none_iff.mp (not_not.mp (Nat.find_min hsome hlt))
    rw [search_eq_some_iff.mpr hfirst] at h
    cases h
  · intro h
    by_contra hsome
    obtain ⟨b, hb⟩ := Option.ne_none_iff_exists'.mp hsome
    obtain ⟨k, -, -, hfound⟩ := search_eq_some_iff.mp hb
    obtain ⟨x, hx, hxb⟩ := List.exists_of_findSome?_eq_some hfound
    rw [h x (reachable_iff.mpr ⟨k, hx⟩)] at hxb
    cases hxb

-- What is in the queue, and what the nodes not seen yet will bring.
def outstanding (next : α → List α) (queue : List α) (seen : Finset α) : ℕ :=
  queue.length + ∑ x ∈ seenᶜ, (next x).length

theorem outstanding_expand (hx : x ∉ seen) (queue : List α) :
    outstanding next (queue ++ next x) (insert x seen) = outstanding next queue seen := by
  have hsum := Finset.add_sum_erase seenᶜ (fun y => (next y).length) (Finset.mem_compl.mpr hx)
  rw [outstanding, outstanding, List.length_append, Finset.compl_insert, ← hsum]
  omega

theorem loop_ends {rounds : ℕ} (hrounds : outstanding next queue seen < rounds)
    (hqueue : ∀ x ∈ queue, Reachable next root x) :
    ∃ visited, loop next found rounds queue seen =
        some (visited, search next found queue seen) ∧
      visited.Nodup ∧ ∀ x ∈ visited, x ∉ seen ∧ Reachable next root x := by
  induction rounds generalizing queue seen with
  | zero => exact absurd hrounds (Nat.not_lt_zero _)
  | succ rounds ih =>
    cases queue with
    | nil => exact ⟨[], by rw [loop, search], List.nodup_nil, fun x hx => by cases hx⟩
    | cons x queue =>
      have hrest : ∀ y ∈ queue, Reachable next root y :=
        fun y hy => hqueue y (List.mem_cons_of_mem x hy)
      have hless : outstanding next queue seen < rounds := by
        rw [outstanding, List.length_cons] at hrounds
        rw [outstanding]
        omega
      rw [loop, search]
      split_ifs with hx
      · exact ih hless hrest
      · cases hfound : found x with
        | some b =>
          refine ⟨[x], rfl, List.nodup_singleton x, fun y hy => ?_⟩
          rw [List.mem_singleton] at hy
          exact hy ▸ ⟨hx, hqueue x List.mem_cons_self⟩
        | none =>
          have hexpand : outstanding next (queue ++ next x) (insert x seen) < rounds := by
            rwa [outstanding_expand hx]
          have hjoined : ∀ y ∈ queue ++ next x, Reachable next root y := fun y hy => by
            rcases List.mem_append.mp hy with hy | hy
            · exact hrest y hy
            · exact (hqueue x List.mem_cons_self).tail hy
          obtain ⟨visited, hloop, hnodup, hvisited⟩ := ih hexpand hjoined
          refine ⟨x :: visited, by simp only [hloop, Option.map_some], ?_, fun y hy => ?_⟩
          · refine List.nodup_cons.mpr ⟨fun hmem => ?_, hnodup⟩
            exact (hvisited x hmem).1 (Finset.mem_insert_self x seen)
          · rcases List.mem_cons.mp hy with rfl | hy
            · exact ⟨hx, hqueue y List.mem_cons_self⟩
            · obtain ⟨hnew, hreach⟩ := hvisited y hy
              exact ⟨fun hseen => hnew (Finset.mem_insert_of_mem hseen), hreach⟩

theorem loop_root (found : α → Option β) {rounds : ℕ}
    (hrounds : 1 + ∑ x, (next x).length < rounds) (root : α) :
    ∃ visited, loop next found rounds [root] ∅ = some (visited, search next found [root] ∅) ∧
      visited.Nodup ∧ ∀ x ∈ visited, Reachable next root x := by
  have hqueue : ∀ x ∈ [root], Reachable next root x := fun x hx => by
    rw [List.mem_singleton] at hx
    exact hx ▸ .refl
  have hbound : outstanding next [root] ∅ < rounds := by
    rwa [outstanding, Finset.compl_empty, List.length_singleton]
  obtain ⟨visited, hloop, hnodup, hvisited⟩ := loop_ends hbound hqueue
  exact ⟨visited, hloop, hnodup, fun x hx => (hvisited x hx).2⟩

end Finite

end BreadthFirst
