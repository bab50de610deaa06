import Mathlib.Data.List.Induction
import Mathlib.Logic.Basic

namespace Trace
variable {S L : Type} (step : S → L → S)

def run (s : S) (ls : List L) : S := ls.foldl step s

def Along (P : S → L → Prop) : S → List L → Prop
  | _, [] => True
  | s, l :: ls => P s l ∧ Along P (step s l) ls

def Always (Q : S → Prop) (s : S) (ls : List L) : Prop :=
  ∀ pre post, ls = pre ++ post → Q (run step s pre)

def tally (P : S → L → Prop) [∀ s l, Decidable (P s l)] : S → List L → ℕ
  | _, [] => 0
  | s, l :: ls => (if P s l then 1 else 0) + tally P (step s l) ls

variable {step}

instance decidableAlong {P : S → L → Prop} [∀ s l, Decidable (P s l)] :
    (s : S) → (ls : List L) → Decidable (Along step P s ls)
  | _, [] => isTrue trivial
  | s, l :: ls =>
    @instDecidableAnd (P s l) (Along step P (step s l) ls) _ (decidableAlong (step s l) ls)

@[simp] theorem run_nil (s : S) : run step s [] = s := rfl

@[simp] theorem run_cons (s : S) (l : L) (ls : List L) :
    run step s (l :: ls) = run step (step s l) ls := rfl

theorem run_append (s : S) (xs ys : List L) :
    run step s (xs ++ ys) = run step (run step s xs) ys := by
  simp [run, List.foldl_append]

theorem along_append {P : S → L → Prop} (s : S) (xs ys : List L) :
    Along step P s (xs ++ ys) ↔ Along step P s xs ∧ Along step P (run step s xs) ys := by
  induction xs generalizing s with
  | nil => simp [Along]
  | cons l ls ih => simp [Along, ih, and_assoc]

theorem along_iff {P : S → L → Prop} (s : S) (ls : List L) :
    Along step P s ls ↔ ∀ pre l post, ls = pre ++ l :: post → P (run step s pre) l := by
  constructor
  · rintro h pre l post rfl
    exact ((along_append s pre (l :: post)).mp h).2.1
  · intro h
    induction ls generalizing s with
    | nil => trivial
    | cons l ls ih =>
      refine ⟨h [] l ls rfl, ih (step s l) fun pre k post hk => ?_⟩
      exact h (l :: pre) k post (by rw [hk, List.cons_append])

theorem along_of_forall {P : S → L → Prop} {s : S} {ls : List L} (h : ∀ l ∈ ls, ∀ s, P s l) :
    Along step P s ls := by
  induction ls generalizing s with
  | nil => trivial
  | cons l ls ih =>
    exact ⟨h l List.mem_cons_self s, ih fun k hk => h k (List.mem_cons_of_mem l hk)⟩

theorem along_trivial (s : S) (ls : List L) : Along step (fun _ _ => True) s ls :=
  along_of_forall fun _ _ _ => trivial

theorem Along.mono {P P' : S → L → Prop} (hPP' : ∀ s l, P s l → P' s l) {s : S} {ls : List L}
    (h : Along step P s ls) : Along step P' s ls := by
  induction ls generalizing s with
  | nil => trivial
  | cons l ls ih => exact ⟨hPP' s l h.1, ih h.2⟩

theorem Along.and {P P' : S → L → Prop} {s : S} {ls : List L} (h : Along step P s ls)
    (h' : Along step P' s ls) : Along step (fun s l => P s l ∧ P' s l) s ls := by
  induction ls generalizing s with
  | nil => trivial
  | cons l ls ih => exact ⟨⟨h.1, h'.1⟩, ih h.2 h'.2⟩

theorem along_congr {I : S → Prop} {P P' : S → L → Prop} (hstep : ∀ s l, I s → I (step s l))
    (hPP' : ∀ s l, I s → (P s l ↔ P' s l)) {s : S} (hs : I s) (ls : List L) :
    Along step P s ls ↔ Along step P' s ls := by
  induction ls generalizing s with
  | nil => exact Iff.rfl
  | cons l ls ih => exact and_congr (hPP' s l hs) (ih (hstep s l hs))

theorem invariant {I : S → Prop} {P : S → L → Prop}
    (hstep : ∀ s l, I s → P s l → I (step s l)) {s : S} {ls : List L}
    (hs : I s) (hP : Along step P s ls) : I (run step s ls) := by
  induction ls generalizing s with
  | nil => exact hs
  | cons l ls ih => exact ih (hstep s l hs hP.1) hP.2

theorem always_of_invariant {I : S → Prop} {P : S → L → Prop}
    (hstep : ∀ s l, I s → P s l → I (step s l)) {s : S} {ls : List L}
    (hs : I s) (hP : Along step P s ls) : Always step I s ls := by
  rintro pre post rfl
  exact invariant hstep hs ((along_append s pre post).mp hP).1

theorem always_cons {Q : S → Prop} (s : S) (l : L) (ls : List L) :
    Always step Q s (l :: ls) ↔ Q s ∧ Always step Q (step s l) ls := by
  constructor
  · intro h
    refine ⟨h [] (l :: ls) rfl, fun pre post hp => ?_⟩
    exact h (l :: pre) post (by rw [hp, List.cons_append])
  · rintro ⟨hs, h⟩ pre post hp
    cases pre with
    | nil => exact hs
    | cons k pre =>
      obtain ⟨rfl, rfl⟩ : l = k ∧ ls = pre ++ post := by simpa using hp
      exact h pre post rfl

theorem always_iff_along {I J : S → Prop} {C D : S → L → Prop}
    (hJ : ∀ s l, J s → D s l → J (step s l))
    (hI : ∀ s l, J s → I s → D s l → (I (step s l) ↔ C s l)) {s : S} {ls : List L}
    (hj : J s) (hi : I s) (hD : Along step D s ls) : Always step I s ls ↔ Along step C s ls := by
  induction ls generalizing s with
  | nil =>
    refine ⟨fun _ => trivial, fun _ pre post hp => ?_⟩
    obtain ⟨rfl, -⟩ := List.append_eq_nil_iff.mp hp.symm
    exact hi
  | cons l ls ih =>
    rw [always_cons]
    constructor
    · rintro ⟨-, h⟩
      have hi' : I (step s l) := h [] ls rfl
      exact ⟨(hI s l hj hi hD.1).mp hi', (ih (hJ s l hj hD.1) hi' hD.2).mp h⟩
    · rintro ⟨hc, h⟩
      have hi' : I (step s l) := (hI s l hj hi hD.1).mpr hc
      exact ⟨hi, (ih (hJ s l hj hD.1) hi' hD.2).mpr h⟩

theorem along_and_always_iff {I : S → Prop} {A C D : S → L → Prop}
    (hAC : ∀ s l, I s → D s l → (A s l ↔ C s l))
    (hI : ∀ s l, I s → D s l → A s l → I (step s l)) {s : S} {ls : List L} (hi : I s)
    (hD : Along step D s ls) :
    Along step A s ls ∧ Always step I s ls ↔ Along step C s ls := by
  constructor
  · rintro ⟨hA, hQ⟩
    rw [along_iff] at hA hD ⊢
    intro pre l post hls
    exact (hAC _ l (hQ pre (l :: post) hls) (hD pre l post hls)).mp (hA pre l post hls)
  · intro hC
    have hCD := hC.and hD
    have hQ : Always step I s ls :=
      always_of_invariant (fun s l hi h => hI s l hi h.2 ((hAC s l hi h.2).mpr h.1)) hi hCD
    refine ⟨?_, hQ⟩
    rw [along_iff] at hCD ⊢
    intro pre l post hls
    exact (hAC _ l (hQ pre (l :: post) hls) (hCD pre l post hls).2).mpr (hCD pre l post hls).1

-- A step that needs the flag down raises it, and nothing takes it down again.
theorem tally_le_one {P C : S → L → Prop} [∀ s l, Decidable (P s l)] {A : S → Prop}
    (hkeep : ∀ s l, C s l → A s → A (step s l)) (hP : ∀ s l, C s l → P s l → ¬ A s ∧ A (step s l))
    {s : S} {ls : List L} (hC : Along step C s ls) :
    tally step P s ls ≤ 1 ∧ (A s → tally step P s ls = 0) := by
  induction ls generalizing s with
  | nil => exact ⟨Nat.zero_le 1, fun _ => rfl⟩
  | cons l ls ih =>
    obtain ⟨hle, hzero⟩ := ih hC.2
    rw [tally]
    by_cases hl : P s l
    · obtain ⟨hdown, hup⟩ := hP s l hC.1 hl
      rw [if_pos hl, hzero hup]
      exact ⟨Nat.le_refl _, fun hA => absurd hA hdown⟩
    · rw [if_neg hl, Nat.zero_add]
      exact ⟨hle, fun hA => hzero (hkeep s l hC.1 hA)⟩

end Trace
