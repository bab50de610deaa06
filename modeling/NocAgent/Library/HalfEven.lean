import Mathlib.Algebra.Order.Floor.Ring
import Mathlib.Data.Rat.Floor
import Mathlib.Tactic.Linarith

namespace HalfEven

def round (q : ℚ) : ℤ :=
  if q - ⌊q⌋ < 1 / 2 then ⌊q⌋
  else if 1 / 2 < q - ⌊q⌋ then ⌊q⌋ + 1
  else if ⌊q⌋ % 2 = 0 then ⌊q⌋
  else ⌊q⌋ + 1

theorem round_eq_floor_or (q : ℚ) : round q = ⌊q⌋ ∨ (round q = ⌊q⌋ + 1 ∧ (⌊q⌋ : ℚ) < q) := by
  unfold round
  split_ifs with h₁ h₂ h₃
  · exact .inl rfl
  · exact .inr ⟨rfl, by linarith⟩
  · exact .inl rfl
  · exact .inr ⟨rfl, by linarith⟩

theorem round_le_of_le {q : ℚ} {n : ℤ} (h : q ≤ n) : round q ≤ n := by
  rcases round_eq_floor_or q with hr | ⟨hr, hlt⟩
  · rw [hr]
    exact Int.floor_le_iff.mpr (by linarith)
  · have hn : (⌊q⌋ : ℚ) < n := hlt.trans_le h
    rw [hr]
    exact Int.add_one_le_of_lt (by exact_mod_cast hn)

theorem le_round_of_le {q : ℚ} {n : ℤ} (h : (n : ℚ) ≤ q) : n ≤ round q := by
  have hf : n ≤ ⌊q⌋ := Int.le_floor.mpr h
  rcases round_eq_floor_or q with hr | ⟨hr, -⟩ <;> omega

-- The numbers that round to n or more: a tie below n goes up to an even n, and down from an odd one.
def RoundsTo (n : ℤ) (q : ℚ) : Prop := if n % 2 = 0 then n - 1 / 2 ≤ q else n - 1 / 2 < q

instance (n : ℤ) (q : ℚ) : Decidable (RoundsTo n q) :=
  inferInstanceAs (Decidable (ite _ _ _))

theorem roundsTo_of_lt {n : ℤ} {q : ℚ} (h : n - 1 / 2 < q) : RoundsTo n q := by
  rw [RoundsTo]
  split_ifs
  · exact h.le
  · exact h

theorem not_roundsTo_of_lt {n : ℤ} {q : ℚ} (h : q < n - 1 / 2) : ¬ RoundsTo n q := by
  rw [RoundsTo]
  split_ifs
  · exact h.not_ge
  · exact h.not_gt

-- Only between n - 1 and n does the rounding have a choice.
theorem le_round_iff (n : ℤ) (q : ℚ) : n ≤ round q ↔ RoundsTo n q := by
  have hlow : (⌊q⌋ : ℚ) ≤ q := Int.floor_le q
  have hhigh : q < ⌊q⌋ + 1 := Int.lt_floor_add_one q
  rcases lt_trichotomy ⌊q⌋ (n - 1) with hlt | heq | hgt
  · have hle : round q ≤ ⌊q⌋ + 1 := by rcases round_eq_floor_or q with hr | ⟨hr, -⟩ <;> omega
    have hfloor : (⌊q⌋ : ℚ) + 2 ≤ n := by exact_mod_cast (by omega : ⌊q⌋ + 2 ≤ n)
    exact iff_of_false (by omega) (not_roundsTo_of_lt (by linarith))
  · have hfloor : (⌊q⌋ : ℚ) = n - 1 := by exact_mod_cast heq
    rcases lt_trichotomy (q - ⌊q⌋) (1 / 2) with hdown | htie | hup
    · rw [round, if_pos hdown]
      exact iff_of_false (by omega) (not_roundsTo_of_lt (by linarith))
    · rw [round, if_neg htie.not_lt, if_neg htie.not_gt, RoundsTo]
      split_ifs with heven hn hn
      · omega
      · exact iff_of_false (by omega) (by linarith)
      · exact iff_of_true (by omega) (by linarith)
      · omega
    · rw [round, if_neg hup.not_gt, if_pos hup]
      exact iff_of_true (by omega) (roundsTo_of_lt (by linarith))
  · have hle : n ≤ ⌊q⌋ := by omega
    have hnq : (n : ℚ) ≤ q := (Int.cast_le.mpr hle).trans hlow
    exact iff_of_true (le_round_of_le hnq) (roundsTo_of_lt (by linarith))

theorem le_round_iff_of_even {n : ℤ} (hn : n % 2 = 0) (q : ℚ) : n ≤ round q ↔ n - 1 / 2 ≤ q := by
  rw [le_round_iff, RoundsTo, if_pos hn]

theorem abs_round_sub_le (q : ℚ) : |round q - q| ≤ 1 / 2 := by
  have hlow : (⌊q⌋ : ℚ) ≤ q := Int.floor_le q
  have hhigh : q < ⌊q⌋ + 1 := Int.lt_floor_add_one q
  unfold round
  rw [abs_le]
  split_ifs with hdown hup heven
  · constructor <;> linarith
  · push_cast
    constructor <;> linarith
  · constructor <;> linarith
  · push_cast
    constructor <;> linarith

theorem abs_round_le {q : ℚ} {n : ℤ} (h : |q| ≤ n) : |round q| ≤ n := by
  obtain ⟨hlow, hhigh⟩ := abs_le.mp h
  refine abs_le.mpr ⟨le_round_of_le ?_, round_le_of_le hhigh⟩
  push_cast
  exact hlow

theorem abs_round_lt {q : ℚ} {n : ℤ} (h : |q| < n - 1 / 2) : |round q| < n := by
  obtain ⟨hlow, hhigh⟩ := abs_lt.mp h
  have hbelow : round q < n := by
    rw [← not_le, le_round_iff]
    exact not_roundsTo_of_lt hhigh
  have habove : -n + 1 ≤ round q := by
    refine (le_round_iff _ _).mpr (roundsTo_of_lt ?_)
    push_cast
    linarith
  exact abs_lt.mpr ⟨by omega, hbelow⟩

theorem round_nonneg {q : ℚ} (h : 0 ≤ q) : 0 ≤ round q :=
  le_round_of_le (by simpa using h)

def roundTo (digits : ℕ) (q : ℚ) : ℚ := round (q * 10 ^ digits) / 10 ^ digits

theorem round_intCast (n : ℤ) : round n = n :=
  le_antisymm (round_le_of_le le_rfl) (le_round_of_le le_rfl)

theorem roundTo_idem (digits : ℕ) (q : ℚ) :
    roundTo digits (roundTo digits q) = roundTo digits q := by
  have hten : (10 : ℚ) ^ digits ≠ 0 := pow_ne_zero _ (by norm_num)
  rw [roundTo, roundTo, div_mul_cancel₀ _ hten, round_intCast]

theorem le_roundTo_iff (digits : ℕ) (x q : ℚ) :
    x ≤ roundTo digits q ↔ RoundsTo ⌈x * 10 ^ digits⌉ (q * 10 ^ digits) := by
  have hten : (0 : ℚ) < 10 ^ digits := pow_pos (by norm_num) _
  rw [roundTo, le_div_iff₀ hten, ← Int.ceil_le, le_round_iff]

theorem le_roundTo_iff_of_even (digits : ℕ) {n : ℤ} (hn : n % 2 = 0) (q : ℚ) :
    n / 10 ^ digits ≤ roundTo digits q ↔ (n - 1 / 2) / 10 ^ digits ≤ q := by
  have hten : (0 : ℚ) < 10 ^ digits := pow_pos (by norm_num) _
  rw [roundTo, div_le_div_iff_of_pos_right hten, Int.cast_le, le_round_iff_of_even hn,
    div_le_iff₀ hten]

theorem abs_roundTo_sub_le (digits : ℕ) (q : ℚ) :
    |roundTo digits q - q| ≤ 1 / 2 / 10 ^ digits := by
  have hten : (0 : ℚ) < 10 ^ digits := pow_pos (by norm_num) _
  have hscaled : roundTo digits q - q = (round (q * 10 ^ digits) - q * 10 ^ digits) / 10 ^ digits := by
    rw [roundTo, sub_div, mul_div_cancel_right₀ _ hten.ne']
  rw [hscaled, abs_div, abs_of_pos hten]
  exact div_le_div_of_nonneg_right (abs_round_sub_le _) hten.le

theorem abs_sum_roundTo_sub_le (digits : ℕ) (qs : List ℚ) :
    |(qs.map (roundTo digits)).sum - qs.sum| ≤ qs.length * (1 / 2 / 10 ^ digits) := by
  induction qs with
  | nil => simp
  | cons q qs ih =>
    have hfirst := abs_roundTo_sub_le digits q
    rw [abs_le] at hfirst ih ⊢
    rw [List.map_cons, List.sum_cons, List.sum_cons, List.length_cons, Nat.cast_succ, add_mul,
      one_mul]
    constructor <;> linarith [hfirst.1, hfirst.2, ih.1, ih.2]

theorem roundTo_nonpos (digits : ℕ) {q : ℚ} (h : q ≤ 0) : roundTo digits q ≤ 0 := by
  have hten : (0 : ℚ) < 10 ^ digits := pow_pos (by norm_num) _
  have hround : round (q * 10 ^ digits) ≤ 0 :=
    round_le_of_le (by simpa using mul_nonpos_of_nonpos_of_nonneg h hten.le)
  exact div_nonpos_of_nonpos_of_nonneg (by exact_mod_cast hround) hten.le

end HalfEven
