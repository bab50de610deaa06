import NocAgent.Library.HalfEven

-- A Python float. The two zeros are one here: no operation below tells them apart.
inductive PyFloat where
  | finite (value : ℚ)
  | inf (negative : Bool)
  | nan
deriving DecidableEq, Repr

namespace PyFloat

inductive Error where
  | overflowError
  | valueError
  | zeroDivisionError
deriving DecidableEq, Repr

-- The finite numbers of a format, by the one that a rational rounds to; none is an overflow.
structure Format where
  round : ℚ → Option ℚ
  round_round : ∀ {q r}, round q = some r → round r = some r
  round_between : ∀ {q q'}, 0 ≤ q → q ≤ q' → round q' ≠ none → round q ≠ none

def Format.exact : Format where
  round := some
  round_round _ := rfl
  round_between _ _ _ := nofun

def isNegative : PyFloat → Bool
  | finite q => q < 0
  | inf negative => negative
  | nan => false

def neg : PyFloat → PyFloat
  | finite q => finite (-q)
  | inf negative => inf !negative
  | nan => nan

def truncate (q : ℚ) : ℤ := if 0 ≤ q then ⌊q⌋ else ⌈q⌉

-- round(x) with no digits, int(x) and floor(x).
def roundInt : PyFloat → Except Error ℤ
  | finite q => .ok (HalfEven.round q)
  | inf _ => .error .overflowError
  | nan => .error .valueError

def toInt : PyFloat → Except Error ℤ
  | finite q => .ok (truncate q)
  | inf _ => .error .overflowError
  | nan => .error .valueError

def floor : PyFloat → PyFloat
  | finite q => finite ⌊q⌋
  | x => x

-- Comparisons with an integer are exact, and false of nan.
def le : PyFloat → ℤ → Bool
  | finite q, n => q ≤ n
  | inf negative, _ => negative
  | nan, _ => false

def fmod : PyFloat → PyFloat → PyFloat
  | finite a, finite b => finite (a - b * truncate (a / b))
  | finite a, inf _ => finite a
  | _, _ => nan

namespace Format
variable (f : Format)

def fit (q : ℚ) : PyFloat :=
  match f.round q with
  | some r => finite r
  | none => inf (q < 0)

def ofInt (n : ℤ) : Except Error PyFloat :=
  match f.round n with
  | some r => .ok (finite r)
  | none => .error .overflowError

def mul : PyFloat → PyFloat → PyFloat
  | finite a, finite b => f.fit (a * b)
  | nan, _ | _, nan => nan
  | inf s, inf t => inf (s != t)
  | inf s, finite b | finite b, inf s => if b = 0 then nan else inf (s != decide (b < 0))

def add : PyFloat → PyFloat → PyFloat
  | finite a, finite b => f.fit (a + b)
  | nan, _ | _, nan => nan
  | inf s, inf t => if s = t then inf s else nan
  | inf s, finite _ | finite _, inf s => inf s

def sub (x y : PyFloat) : PyFloat := f.add x y.neg

-- The divisor is not zero where this is used.
def div : PyFloat → PyFloat → PyFloat
  | finite a, finite b => f.fit (a / b)
  | nan, _ | _, nan => nan
  | finite _, inf _ => finite 0
  | inf _, inf _ => nan
  | inf s, finite b => inf (s != decide (b < 0))

-- x // y, with the correction by a step and the snap to the nearest whole number.
def floorDiv (x y : PyFloat) : Except Error PyFloat :=
  if y = finite 0 then .error .zeroDivisionError
  else
    let mod := fmod x y
    let quotient := f.div (f.sub x mod) y
    let quotient :=
      if mod ≠ finite 0 ∧ y.isNegative ≠ mod.isNegative then f.sub quotient (finite 1)
      else quotient
    if quotient = finite 0 then .ok (finite 0)
    else
      match f.sub quotient quotient.floor with
      | finite rest =>
        .ok (if 1 / 2 < rest then f.add quotient.floor (finite 1) else quotient.floor)
      | _ => .ok quotient.floor

end Format

section Laws
variable {f : Format} {q r : ℚ}

theorem fit_of_round (h : f.round q = some r) : f.fit q = finite r := by
  rw [Format.fit, h]

theorem fit_eq_finite_iff : f.fit q = finite r ↔ f.round q = some r := by
  rw [Format.fit]
  cases f.round q with
  | none => exact iff_of_false nofun nofun
  | some r' => rw [finite.injEq, Option.some.injEq]

theorem ofInt_eq_ok_iff {n : ℤ} {x : PyFloat} :
    f.ofInt n = .ok x ↔ ∃ r, f.round n = some r ∧ x = finite r := by
  rw [Format.ofInt]
  cases f.round n with
  | none => exact iff_of_false nofun nofun
  | some r =>
    simp only [Except.ok.injEq, Option.some.injEq, exists_eq_left']
    exact eq_comm

theorem mul_eq_finite_iff {x y : PyFloat} :
    f.mul x y = finite r ↔ ∃ a b, x = finite a ∧ y = finite b ∧ f.round (a * b) = some r := by
  cases x with
  | finite a =>
    cases y with
    | finite b =>
      rw [Format.mul, fit_eq_finite_iff]
      simp
    | inf s =>
      refine iff_of_false ?_ nofun
      rw [Format.mul]
      split_ifs <;> nofun
    | nan => exact iff_of_false nofun nofun
  | inf s =>
    refine iff_of_false ?_ nofun
    cases y with
    | finite b =>
      rw [Format.mul]
      split_ifs <;> nofun
    | inf t => nofun
    | nan => nofun
  | nan => exact iff_of_false (by cases y <;> nofun) nofun

theorem add_eq_finite_iff {x y : PyFloat} :
    f.add x y = finite r ↔ ∃ a b, x = finite a ∧ y = finite b ∧ f.round (a + b) = some r := by
  cases x with
  | finite a =>
    cases y with
    | finite b =>
      rw [Format.add, fit_eq_finite_iff]
      simp
    | inf s => exact iff_of_false nofun nofun
    | nan => exact iff_of_false nofun nofun
  | inf s =>
    refine iff_of_false ?_ nofun
    cases y with
    | finite b => nofun
    | inf t =>
      rw [Format.add]
      split_ifs <;> nofun
    | nan => nofun
  | nan => exact iff_of_false (by cases y <;> nofun) nofun

theorem roundInt_eq_ok_iff {x : PyFloat} {n : ℤ} :
    x.roundInt = .ok n ↔ ∃ q, x = finite q ∧ HalfEven.round q = n := by
  cases x with
  | finite q =>
    rw [roundInt, Except.ok.injEq]
    simp
  | inf s => exact iff_of_false nofun nofun
  | nan => exact iff_of_false nofun nofun

theorem toInt_eq_ok_iff {x : PyFloat} {n : ℤ} :
    x.toInt = .ok n ↔ ∃ q, x = finite q ∧ truncate q = n := by
  cases x with
  | finite q =>
    rw [toInt, Except.ok.injEq]
    simp
  | inf s => exact iff_of_false nofun nofun
  | nan => exact iff_of_false nofun nofun

theorem truncate_eq (q : ℚ) :
    truncate q = ⌊q⌋ ∨ q < 0 ∧ (⌊q⌋ : ℚ) < q ∧ truncate q = ⌊q⌋ + 1 := by
  rw [truncate]
  split_ifs with hq
  · exact .inl rfl
  · have hlow : (⌊q⌋ : ℚ) ≤ q := Int.floor_le q
    rcases hlow.eq_or_lt with hwhole | hlt
    · refine .inl ?_
      rw [← hwhole, Int.ceil_intCast, Int.floor_intCast]
    · refine .inr ⟨not_le.mp hq, hlt, ?_⟩
      rw [Int.ceil_eq_iff]
      push_cast
      exact ⟨by linarith, by linarith [Int.lt_floor_add_one q]⟩

theorem floor_of_truncate (a : ℚ) {b : ℚ} (hb : b ≠ 0) :
    (if finite (a - b * truncate (a / b)) ≠ finite 0 ∧
        decide (b < 0) ≠ decide (a - b * truncate (a / b) < 0) then
      (truncate (a / b) : ℚ) - 1 else truncate (a / b)) = ⌊a / b⌋ := by
  have hrest : a - b * truncate (a / b) = b * (a / b - truncate (a / b)) := by
    rw [mul_sub, mul_div_cancel₀ a hb]
  rw [hrest]
  rcases truncate_eq (a / b) with hdown | ⟨-, hlt, hup⟩
  · rw [hdown]
    refine if_neg ?_
    rintro ⟨hne, hsign⟩
    have hpos : 0 < a / b - ⌊a / b⌋ := by
      refine lt_of_le_of_ne (sub_nonneg.mpr (Int.floor_le _)) fun h => hne ?_
      rw [← h, mul_zero]
    have hsame : b * (a / b - ⌊a / b⌋) < 0 ↔ b < 0 := by
      rw [mul_neg_iff]
      exact ⟨fun h => (h.resolve_left fun h => h.2.not_gt hpos).1, fun h => .inr ⟨h, hpos⟩⟩
    exact hsign (decide_eq_decide.mpr hsame.symm)
  · have hneg : a / b - (⌊a / b⌋ + 1) < 0 := by linarith [Int.lt_floor_add_one (a / b)]
    rw [hup]
    push_cast
    rw [if_pos, add_sub_cancel_right]
    refine ⟨fun h => ?_, fun h => ?_⟩
    · exact mul_ne_zero hb hneg.ne (finite.inj h)
    · have hsign := decide_eq_decide.mp h
      rcases lt_or_gt_of_ne hb with hb' | hb'
      · exact (mul_pos_of_neg_of_neg hb' hneg).not_gt (hsign.mp hb')
      · exact hb'.not_gt (hsign.mpr (mul_neg_of_pos_of_neg hb' hneg))

theorem floorDiv_exact (a : ℚ) {b : ℚ} (hb : b ≠ 0) :
    Format.exact.floorDiv (finite a) (finite b) = .ok (finite ⌊a / b⌋) := by
  have hquotient : (a + -(a - b * truncate (a / b))) / b = truncate (a / b) := by
    rw [← sub_eq_add_neg, sub_sub_cancel, mul_div_cancel_left₀ _ hb]
  have hstep : (if finite (a - b * truncate (a / b)) ≠ finite 0 ∧
        decide (b < 0) ≠ decide (a - b * truncate (a / b) < 0) then
      finite ((truncate (a / b) : ℚ) + -1) else finite (truncate (a / b))) = finite ⌊a / b⌋ := by
    rw [← floor_of_truncate a hb, apply_ite finite, sub_eq_add_neg (truncate (a / b) : ℚ)]
  have hdivisor : finite b ≠ finite 0 := fun h => hb (finite.inj h)
  rw [Format.floorDiv, if_neg hdivisor]
  simp only [fmod, Format.sub, neg, Format.add, Format.fit, Format.exact, Format.div, hquotient,
    isNegative, hstep, floor, Int.floor_intCast]
  rw [add_neg_cancel]
  split_ifs with hzero hhalf
  · rw [hzero]
  · norm_num at hhalf
  · rfl

end Laws

end PyFloat
