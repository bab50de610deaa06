import NocAgent.Library.PyFloat
import Mathlib.Data.Int.Log
import Mathlib.Tactic.NormNum
import Mathlib.Tactic.Positivity

-- The format of a double: 53 binary places, ties to even.
namespace PyFloat

-- The weight of the last place, which below the normal numbers is that of the least of them.
def lastPlace (q : ℚ) : ℤ := max (Int.log 2 |q| - 52) (-1074)

def nearest (q : ℚ) : ℚ := HalfEven.round (q / 2 ^ lastPlace q) * 2 ^ lastPlace q

-- Half a place above the greatest number: from here on the nearest one is out of range.
def range : ℚ := 2 ^ 1024 - 2 ^ 970

def roundDouble (q : ℚ) : Option ℚ := if |q| < range then some (nearest q) else none

theorem two_zpow_pos (e : ℤ) : (0 : ℚ) < 2 ^ e := zpow_pos (by norm_num) e

theorem two_zpow_add (e e' : ℤ) : (2 : ℚ) ^ (e + e') = 2 ^ e * 2 ^ e' :=
  zpow_add₀ (by norm_num) e e'

theorem abs_lt_two_zpow (q : ℚ) : |q| < 2 ^ (Int.log 2 |q| + 1) :=
  Int.lt_zpow_succ_log_self (by norm_num) |q|

theorem abs_scaled_le (q : ℚ) : |q / 2 ^ lastPlace q| ≤ ((2 ^ 53 : ℤ) : ℚ) := by
  have hplace : Int.log 2 |q| + 1 ≤ 53 + lastPlace q := by
    have hmax : Int.log 2 |q| - 52 ≤ lastPlace q := le_max_left _ _
    omega
  rw [abs_div, abs_of_pos (two_zpow_pos _), div_le_iff₀ (two_zpow_pos _)]
  calc |q| ≤ 2 ^ (Int.log 2 |q| + 1) := (abs_lt_two_zpow q).le
    _ ≤ 2 ^ (53 + lastPlace q) := zpow_le_zpow_right₀ (by norm_num) hplace
    _ = ((2 ^ 53 : ℤ) : ℚ) * 2 ^ lastPlace q := by rw [two_zpow_add]; norm_num

theorem abs_significand_le (q : ℚ) : |HalfEven.round (q / 2 ^ lastPlace q)| ≤ 2 ^ 53 :=
  HalfEven.abs_round_le (abs_scaled_le q)

theorem two_zpow_split {e e' : ℤ} (h : e' ≤ e) :
    (2 : ℚ) ^ e = ((2 ^ (e - e').toNat : ℤ) : ℚ) * 2 ^ e' := by
  have hsum : e = ((e - e').toNat : ℤ) + e' := by omega
  conv_lhs => rw [hsum, two_zpow_add, zpow_natCast]
  push_cast
  rfl

-- A product of a significand and a power of two has its own last place at the power or below,
-- but for the significand that carries over into the next power.
theorem lastPlace_le {m e : ℤ} (hm : |m| ≤ 2 ^ 53) (hne : m ≠ 0) (he : -1074 ≤ e) :
    lastPlace (m * 2 ^ e) ≤ e ∨ lastPlace (m * 2 ^ e) = e + 1 ∧ |m| = 2 ^ 53 := by
  have habs : |(m * 2 ^ e : ℚ)| = |(m : ℚ)| * 2 ^ e := by
    rw [abs_mul, abs_of_pos (two_zpow_pos e)]
  have hpos : (0 : ℚ) < |(m : ℚ)| * 2 ^ e := by
    have hm' : (0 : ℚ) < |(m : ℚ)| := abs_pos.mpr (by exact_mod_cast hne)
    exact mul_pos hm' (two_zpow_pos e)
  have hlog : (2 : ℚ) ^ Int.log 2 (|(m : ℚ)| * 2 ^ e) ≤ |(m : ℚ)| * 2 ^ e := by
    exact_mod_cast Int.zpow_log_le_self (b := 2) (by norm_num) hpos
  have hcarry : |(m : ℚ)| * 2 ^ e ≤ 2 ^ (53 + e) := by
    rw [two_zpow_add]
    refine mul_le_mul_of_nonneg_right ?_ (two_zpow_pos e).le
    exact_mod_cast hm
  rw [lastPlace, habs]
  generalize Int.log 2 (|(m : ℚ)| * 2 ^ e) = k at hlog
  have hk : k ≤ 53 + e := by
    have hle := hlog.trans hcarry
    rwa [zpow_le_zpow_iff_right₀ (by norm_num)] at hle
  rcases hk.lt_or_eq with hlt | rfl
  · exact .inl (max_le (by omega) he)
  · refine .inr ⟨by omega, ?_⟩
    rw [two_zpow_add, mul_le_mul_iff_left₀ (two_zpow_pos e)] at hlog
    refine le_antisymm hm ?_
    exact_mod_cast hlog

theorem nearest_eq_places (q : ℚ) : ∃ n : ℤ, nearest q = n * 2 ^ lastPlace (nearest q) := by
  have hbound := abs_significand_le q
  have hlow : -1074 ≤ lastPlace q := le_max_right _ _
  rw [nearest]
  generalize HalfEven.round (q / 2 ^ lastPlace q) = m at hbound ⊢
  generalize lastPlace q = e at hlow ⊢
  rcases eq_or_ne m 0 with rfl | hne
  · exact ⟨0, by rw [Int.cast_zero, zero_mul, zero_mul]⟩
  · rcases lastPlace_le hbound hne hlow with hle | ⟨hnext, hcarry⟩
    · refine ⟨m * 2 ^ (e - lastPlace (m * 2 ^ e)).toNat, ?_⟩
      conv_lhs => rw [two_zpow_split hle]
      push_cast
      ring
    · obtain ⟨n, rfl⟩ : ∃ n, m = n * 2 := by
        rcases eq_or_eq_neg_of_abs_eq hcarry with rfl | rfl
        · exact ⟨2 ^ 52, by norm_num⟩
        · exact ⟨-2 ^ 52, by norm_num⟩
      refine ⟨n, ?_⟩
      rw [hnext, two_zpow_add]
      push_cast
      ring

theorem nearest_nearest (q : ℚ) : nearest (nearest q) = nearest q := by
  obtain ⟨n, hn⟩ := nearest_eq_places q
  have hscaled : nearest q / 2 ^ lastPlace (nearest q) = n := by
    rw [div_eq_iff (two_zpow_pos _).ne']
    exact hn
  calc nearest (nearest q)
      = HalfEven.round (nearest q / 2 ^ lastPlace (nearest q)) * 2 ^ lastPlace (nearest q) := rfl
    _ = n * 2 ^ lastPlace (nearest q) := by rw [hscaled, HalfEven.round_intCast]
    _ = nearest q := hn.symm

theorem abs_nearest (q : ℚ) :
    |nearest q| = |(HalfEven.round (q / 2 ^ lastPlace q) : ℚ)| * 2 ^ lastPlace q := by
  rw [nearest, abs_mul, abs_of_pos (two_zpow_pos _)]

theorem range_eq : range = (2 ^ 54 - 1) * 2 ^ (970 : ℤ) := by
  have hpow : (2 : ℚ) ^ 1024 = 2 ^ 54 * 2 ^ 970 := by rw [← pow_add]
  rw [range, hpow, sub_mul, one_mul]
  rfl

theorem two_zpow_971 : (2 : ℚ) ^ (971 : ℤ) = 2 * 2 ^ (970 : ℤ) := two_zpow_add 1 970

theorem range_lt : range < 2 ^ (1024 : ℤ) := by
  rw [range, sub_lt_iff_lt_add]
  exact lt_add_of_pos_right _ (two_zpow_pos 970)

theorem log_lt {q : ℚ} (h : |q| < range) : Int.log 2 |q| < 1024 := by
  rcases (abs_nonneg q).eq_or_lt with hzero | hpos
  · rw [← hzero, Int.log_zero_right]
    norm_num
  · refine (Int.lt_zpow_iff_log_lt (b := 2) (by norm_num) hpos).mp ?_
    exact_mod_cast h.trans range_lt

theorem lastPlace_le_of_log {q : ℚ} (h : Int.log 2 |q| ≤ 1022) : lastPlace q ≤ 970 :=
  max_le (by omega) (by norm_num)

theorem lastPlace_of_log {q : ℚ} (h : Int.log 2 |q| = 1023) : lastPlace q = 971 := by
  rw [lastPlace, h]
  rfl

-- Below the range no significand carries over.
theorem abs_nearest_lt {q : ℚ} (h : |q| < range) : |nearest q| < range := by
  rw [abs_nearest]
  rcases le_or_gt (Int.log 2 |q|) 1022 with hlow | hhigh
  · have hplace : (2 : ℚ) ^ lastPlace q ≤ 2 ^ (970 : ℤ) :=
      zpow_le_zpow_right₀ (by norm_num) (lastPlace_le_of_log hlow)
    have hsignificand : |(HalfEven.round (q / 2 ^ lastPlace q) : ℚ)| ≤ 2 ^ 53 := by
      exact_mod_cast abs_significand_le q
    calc |(HalfEven.round (q / 2 ^ lastPlace q) : ℚ)| * 2 ^ lastPlace q
        ≤ 2 ^ 53 * 2 ^ (970 : ℤ) :=
          mul_le_mul hsignificand hplace (two_zpow_pos _).le (by positivity)
      _ < range := by
          rw [range_eq, mul_lt_mul_iff_left₀ (two_zpow_pos 970)]
          norm_num
  · have hlog : Int.log 2 |q| = 1023 := by
      have hlt := log_lt h
      omega
    rw [lastPlace_of_log hlog]
    have hscaled : |q / 2 ^ (971 : ℤ)| < ((2 ^ 53 : ℤ) : ℚ) - 1 / 2 := by
      rw [abs_div, abs_of_pos (two_zpow_pos _), div_lt_iff₀ (two_zpow_pos _)]
      refine h.trans_le ?_
      rw [range_eq, two_zpow_971, ← mul_assoc, mul_le_mul_iff_left₀ (two_zpow_pos 970)]
      norm_num
    have hsignificand : |(HalfEven.round (q / 2 ^ (971 : ℤ)) : ℚ)| ≤ 2 ^ 53 - 1 := by
      exact_mod_cast Int.le_sub_one_of_lt (HalfEven.abs_round_lt hscaled)
    calc |(HalfEven.round (q / 2 ^ (971 : ℤ)) : ℚ)| * 2 ^ (971 : ℤ)
        ≤ (2 ^ 53 - 1) * 2 ^ (971 : ℤ) :=
          mul_le_mul_of_nonneg_right hsignificand (two_zpow_pos _).le
      _ < range := by
          rw [range_eq, two_zpow_971, ← mul_assoc, mul_lt_mul_iff_left₀ (two_zpow_pos 970)]
          norm_num

theorem roundDouble_eq_some_iff {q r : ℚ} :
    roundDouble q = some r ↔ |q| < range ∧ nearest q = r := by
  rw [roundDouble]
  split_ifs with h
  · rw [Option.some.injEq, and_iff_right h]
  · exact iff_of_false nofun fun hr => h hr.1

theorem roundDouble_roundDouble {q r : ℚ} (h : roundDouble q = some r) :
    roundDouble r = some r := by
  rw [roundDouble_eq_some_iff] at h ⊢
  obtain ⟨hrange, rfl⟩ := h
  exact ⟨abs_nearest_lt hrange, nearest_nearest q⟩

theorem roundDouble_between {q q' : ℚ} (h0 : 0 ≤ q) (hle : q ≤ q') (h : roundDouble q' ≠ none) :
    roundDouble q ≠ none := by
  unfold roundDouble at h ⊢
  split_ifs at h with hrange
  · rw [abs_of_nonneg (h0.trans hle)] at hrange
    rw [abs_of_nonneg h0, if_pos (hle.trans_lt hrange)]
    nofun
  · exact absurd rfl h

def Format.double : Format where
  round := roundDouble
  round_round := roundDouble_roundDouble
  round_between := roundDouble_between

end PyFloat
