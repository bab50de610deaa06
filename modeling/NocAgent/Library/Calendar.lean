import Mathlib.Data.List.Basic
import Mathlib.Order.Lattice
import Mathlib.Tactic.IntervalCases
import Mathlib.Tactic.Linarith
import Mathlib.Tactic.SplitIfs
import Mathlib.Tactic.Tauto

namespace Calendar

def isLeap (year : ℕ) : Bool := year % 4 = 0 && (year % 100 ≠ 0 || year % 400 = 0)

def yearLength (leap : Bool) : ℕ := if leap = true then 366 else 365

def daysInMonth (leap : Bool) (month : ℕ) : ℕ :=
  if month = 2 ∧ leap = true then 29
  else [31, 28, 31, 30, 31, 30, 31, 31, 30, 31, 30, 31].getD (month - 1) 0

def daysBeforeMonth (leap : Bool) (month : ℕ) : ℕ :=
  [0, 31, 59, 90, 120, 151, 181, 212, 243, 273, 304, 334].getD (month - 1) 0 +
    if 2 < month ∧ leap = true then 1 else 0

def daysBeforeYear (year : ℕ) : ℕ :=
  (year - 1) * 365 + (year - 1) / 4 - (year - 1) / 100 + (year - 1) / 400

def Valid (year month day : ℕ) : Prop :=
  (1 ≤ year ∧ year ≤ 9999) ∧ (1 ≤ month ∧ month ≤ 12) ∧
    (1 ≤ day ∧ day ≤ daysInMonth (isLeap year) month)

instance (year month day : ℕ) : Decidable (Valid year month day) :=
  inferInstanceAs (Decidable (_ ∧ _))

structure Date where
  year : ℕ
  month : ℕ
  day : ℕ
  valid : Valid year month day
deriving DecidableEq

def date? (year month day : ℕ) : Option Date :=
  if h : Valid year month day then some ⟨year, month, day, h⟩ else none

def maxOrdinal : ℕ := 3652059

namespace Date

def dayOfYear (d : Date) : ℕ := daysBeforeMonth (isLeap d.year) d.month + d.day

def toordinal (d : Date) : ℕ := daysBeforeYear d.year + d.dayOfYear

end Date

-- The month and the day of a year's day, counted from 0: the month is estimated, then set right.
def monthDay (leap : Bool) (n : ℕ) : ℕ × ℕ :=
  let month := (n + 50) / 32
  if n < daysBeforeMonth leap month then (month - 1, n - daysBeforeMonth leap (month - 1) + 1)
  else (month, n - daysBeforeMonth leap month + 1)

def ord2ymd (ordinal : ℕ) : ℕ × ℕ × ℕ :=
  let n := ordinal - 1
  let n400 := n / 146097
  let n100 := n % 146097 / 36524
  let n4 := n % 146097 % 36524 / 1461
  let n1 := n % 146097 % 36524 % 1461 / 365
  let year := n400 * 400 + n100 * 100 + n4 * 4 + n1 + 1
  if n1 = 4 ∨ n100 = 4 then (year - 1, 12, 31)
  else (year, monthDay (n1 = 3 ∧ (n4 ≠ 24 ∨ n100 = 3)) (n % 146097 % 36524 % 1461 % 365))

def fromordinal (ordinal : ℕ) : Option Date :=
  if 1 ≤ ordinal ∧ ordinal ≤ maxOrdinal then
    date? (ord2ymd ordinal).1 (ord2ymd ordinal).2.1 (ord2ymd ordinal).2.2
  else none

theorem daysBeforeMonth_add_le (leap : Bool) :
    ∀ m < 13, ∀ m' < 13, 1 ≤ m → m < m' →
      daysBeforeMonth leap m + daysInMonth leap m ≤ daysBeforeMonth leap m' := by
  cases leap <;> decide

theorem daysBeforeMonth_add_le_yearLength (leap : Bool) :
    ∀ m < 13, 1 ≤ m → daysBeforeMonth leap m + daysInMonth leap m ≤ yearLength leap := by
  cases leap <;> decide

theorem monthDay_spec (leap : Bool) : ∀ n < 366, n < yearLength leap →
    (1 ≤ (monthDay leap n).1 ∧ (monthDay leap n).1 ≤ 12) ∧
      (1 ≤ (monthDay leap n).2 ∧ (monthDay leap n).2 ≤ daysInMonth leap (monthDay leap n).1) ∧
      daysBeforeMonth leap (monthDay leap n).1 + (monthDay leap n).2 = n + 1 := by
  cases leap <;> decide +kernel

theorem isLeap_iff (year : ℕ) :
    isLeap year = true ↔ year % 4 = 0 ∧ (year % 100 ≠ 0 ∨ year % 400 = 0) := by
  simp [isLeap]

theorem yearLength_le (leap : Bool) : yearLength leap ≤ 366 := by
  cases leap <;> decide

theorem daysBeforeYear_succ {year : ℕ} (h : 1 ≤ year) :
    daysBeforeYear (year + 1) = daysBeforeYear year + yearLength (isLeap year) := by
  obtain ⟨y, rfl⟩ := Nat.exists_eq_add_of_le' h
  have hfour : (y + 1) / 4 = y / 4 + if (y + 1) % 4 = 0 then 1 else 0 := by split <;> omega
  have hhundred : (y + 1) / 100 = y / 100 + if (y + 1) % 100 = 0 then 1 else 0 := by
    split <;> omega
  have hfourHundred : (y + 1) / 400 = y / 400 + if (y + 1) % 400 = 0 then 1 else 0 := by
    split <;> omega
  have hless : y / 100 ≤ y / 4 := by omega
  have hnested : (y + 1) % 100 = 0 → (y + 1) % 4 = 0 := by omega
  have hnested' : (y + 1) % 400 = 0 → (y + 1) % 100 = 0 := by omega
  simp only [daysBeforeYear, yearLength, isLeap_iff, Nat.add_sub_cancel, hfour, hhundred,
    hfourHundred]
  generalize (y + 1) % 4 = a, (y + 1) % 100 = b, (y + 1) % 400 = c at *
  split_ifs <;> grind

theorem daysBeforeYear_add_le {year year' : ℕ} (h : 1 ≤ year) (hlt : year < year') :
    daysBeforeYear year + yearLength (isLeap year) ≤ daysBeforeYear year' := by
  rw [← daysBeforeYear_succ h]
  induction year', hlt using Nat.le_induction with
  | base => exact le_rfl
  | succ year' hle ih =>
    rw [daysBeforeYear_succ (h.trans (Nat.le_of_succ_le hle))]
    omega

namespace Date
variable (d e : Date)

theorem day_bounds : 1 ≤ d.dayOfYear ∧ d.dayOfYear ≤ yearLength (isLeap d.year) := by
  obtain ⟨-, ⟨hmonth, hmonth'⟩, hday, hday'⟩ := d.valid
  have hlast := daysBeforeMonth_add_le_yearLength (isLeap d.year) d.month
    (Nat.lt_succ_of_le hmonth') hmonth
  rw [dayOfYear]
  omega

theorem toordinal_bounds : 1 ≤ d.toordinal ∧ d.toordinal ≤ maxOrdinal := by
  obtain ⟨⟨hyear, hyear'⟩, -, -⟩ := d.valid
  have hday := d.day_bounds
  have hlast : daysBeforeYear d.year + yearLength (isLeap d.year) ≤ daysBeforeYear 10000 :=
    daysBeforeYear_add_le hyear (Nat.lt_succ_of_le hyear')
  have hmax : daysBeforeYear 10000 = maxOrdinal := rfl
  rw [toordinal]
  omega

theorem toordinal_lt_of_year_lt {d e : Date} (h : d.year < e.year) :
    d.toordinal < e.toordinal := by
  have hyear := daysBeforeYear_add_le d.valid.1.1 h
  have hday := d.day_bounds
  have hday' := e.day_bounds
  rw [toordinal, toordinal]
  omega

theorem toordinal_lt_of_month_lt {d e : Date} (hyear : d.year = e.year) (h : d.month < e.month) :
    d.toordinal < e.toordinal := by
  obtain ⟨-, ⟨hmonth, hmonth'⟩, -, hday⟩ := d.valid
  obtain ⟨-, ⟨-, hlast⟩, hday', -⟩ := e.valid
  have hblock := daysBeforeMonth_add_le (isLeap d.year) d.month (by omega) e.month (by omega)
    hmonth h
  rw [toordinal, toordinal, dayOfYear, dayOfYear, ← hyear]
  omega

theorem toordinal_lt_iff : d.toordinal < e.toordinal ↔
    d.year < e.year ∨ d.year = e.year ∧
      (d.month < e.month ∨ d.month = e.month ∧ d.day < e.day) := by
  rcases lt_trichotomy d.year e.year with hlt | heq | hgt
  · have hord := toordinal_lt_of_year_lt hlt
    tauto
  · rcases lt_trichotomy d.month e.month with hlt' | heq' | hgt'
    · have hord := toordinal_lt_of_month_lt heq hlt'
      tauto
    · rw [toordinal, toordinal, dayOfYear, dayOfYear, heq, heq']
      omega
    · have hord := toordinal_lt_of_month_lt heq.symm hgt'
      omega
  · have hord := toordinal_lt_of_year_lt hgt
    omega

theorem toordinal_injective : Function.Injective toordinal := by
  intro d e h
  have hlt := toordinal_lt_iff d e
  have hgt := toordinal_lt_iff e d
  rw [h] at hlt hgt
  obtain ⟨year, month, day, hvalid⟩ := d
  obtain ⟨year', month', day', hvalid'⟩ := e
  simp only [lt_irrefl, false_iff] at hlt hgt
  obtain rfl : year = year' := by omega
  obtain rfl : month = month' := by omega
  obtain rfl : day = day' := by omega
  rfl

end Date

section Quotients
variable {q a b c r : ℕ}

theorem daysBeforeYear_quotients (ha : a ≤ 3) (hb : b ≤ 24) (hc : c ≤ 3) :
    daysBeforeYear (q * 400 + a * 100 + b * 4 + c + 1) =
      q * 146097 + a * 36524 + b * 1461 + c * 365 := by
  have hfour : (q * 400 + a * 100 + b * 4 + c) / 4 = q * 100 + a * 25 + b := by omega
  have hhundred : (q * 400 + a * 100 + b * 4 + c) / 100 = q * 4 + a := by omega
  have hfourHundred : (q * 400 + a * 100 + b * 4 + c) / 400 = q := by omega
  rw [daysBeforeYear, Nat.add_sub_cancel, hfour, hhundred, hfourHundred]
  omega

theorem isLeap_quotients (ha : a ≤ 3) (hb : b ≤ 24) (hc : c ≤ 3) :
    isLeap (q * 400 + a * 100 + b * 4 + c + 1) = decide (c = 3 ∧ (b ≠ 24 ∨ a = 3)) := by
  rw [Bool.eq_iff_iff, isLeap_iff, decide_eq_true_eq]
  omega

theorem isLeap_last (ha : a ≤ 3) (hb : b ≤ 24) (h : b ≠ 24 ∨ a = 3) :
    isLeap (q * 400 + a * 100 + b * 4 + 3 + 1) = true := by
  rw [isLeap_quotients ha hb le_rfl]
  exact decide_eq_true ⟨rfl, h⟩

-- The ordinal is that of a year's day, counted from 0.
structure YearDay (ordinal year n : ℕ) : Prop where
  pos : 1 ≤ year
  inYear : n < yearLength (isLeap year)
  sum : daysBeforeYear year + n + 1 = ordinal

theorem yearDay_quotients (ha : a ≤ 3) (hb : b ≤ 24) (hc : c ≤ 3) (hr : r < 365) :
    YearDay (q * 146097 + a * 36524 + b * 1461 + c * 365 + r + 1)
      (q * 400 + a * 100 + b * 4 + c + 1) r where
  pos := Nat.succ_pos _
  inYear := by
    rw [yearLength]
    split <;> omega
  sum := by rw [daysBeforeYear_quotients ha hb hc]

theorem yearDay_last (ha : a ≤ 3) (hb : b ≤ 24) (h : b ≠ 24 ∨ a = 3) :
    YearDay (q * 146097 + a * 36524 + b * 1461 + 1460 + 1)
      (q * 400 + a * 100 + b * 4 + 3 + 1) 365 where
  pos := Nat.succ_pos _
  inYear := by
    rw [isLeap_last ha hb h]
    exact Nat.lt_succ_self 365
  sum := by rw [daysBeforeYear_quotients ha hb le_rfl]

end Quotients

section FromOrdinal
variable {ordinal : ℕ}

theorem ord2ymd_year (h : 1 ≤ ordinal) :
    ∃ year n, YearDay ordinal year n ∧ ord2ymd ordinal = (year, monthDay (isLeap year) n) := by
  obtain ⟨n, rfl⟩ := Nat.exists_eq_add_of_le' h
  obtain ⟨q, hq⟩ : ∃ q, n / 146097 = q := ⟨_, rfl⟩
  obtain ⟨a, ha⟩ : ∃ a, n % 146097 / 36524 = a := ⟨_, rfl⟩
  obtain ⟨b, hb⟩ : ∃ b, n % 146097 % 36524 / 1461 = b := ⟨_, rfl⟩
  obtain ⟨c, hc⟩ : ∃ c, n % 146097 % 36524 % 1461 / 365 = c := ⟨_, rfl⟩
  obtain ⟨r, hr⟩ : ∃ r, n % 146097 % 36524 % 1461 % 365 = r := ⟨_, rfl⟩
  have hsum : n = q * 146097 + a * 36524 + b * 1461 + c * 365 + r := by omega
  have hb24 : b ≤ 24 := by omega
  simp only [ord2ymd, Nat.add_sub_cancel, hq, ha, hb, hc, hr]
  by_cases hlast : c = 4 ∨ a = 4
  · obtain ⟨a', b', hn, ha', hb', hleap, hyear⟩ : ∃ a' b',
        n = q * 146097 + a' * 36524 + b' * 1461 + 1460 ∧ a' ≤ 3 ∧ b' ≤ 24 ∧
          (b' ≠ 24 ∨ a' = 3) ∧
          q * 400 + a * 100 + b * 4 + c = q * 400 + a' * 100 + b' * 4 + 3 + 1 := by
      rcases hlast with hc4 | ha4
      · obtain ⟨ha3, hb23, hr0⟩ : a ≤ 3 ∧ b ≠ 24 ∧ r = 0 := by omega
        exact ⟨a, b, by linarith, ha3, hb24, .inl hb23, by rw [hc4]⟩
      · have hzero : b = 0 ∧ c = 0 ∧ r = 0 := by omega
        exact ⟨3, 24, by linarith, le_rfl, le_rfl, .inr rfl, by linarith⟩
    have hmonthDay : monthDay true 365 = (12, 31) := by decide +kernel
    refine ⟨q * 400 + a' * 100 + b' * 4 + 3 + 1, 365, ?_, ?_⟩
    · rw [hn]
      exact yearDay_last ha' hb' hleap
    · rw [if_pos hlast, hyear, isLeap_last ha' hb' hleap, hmonthDay]
  · obtain ⟨ha3, hc3, hr365⟩ : a ≤ 3 ∧ c ≤ 3 ∧ r < 365 := by omega
    refine ⟨q * 400 + a * 100 + b * 4 + c + 1, r, ?_, ?_⟩
    · rw [hsum]
      exact yearDay_quotients ha3 hb24 hc3 hr365
    · rw [if_neg hlast, isLeap_quotients ha3 hb24 hc3]

theorem fromordinal_spec (h : 1 ≤ ordinal) (hmax : ordinal ≤ maxOrdinal) :
    ∃ d, fromordinal ordinal = some d ∧ d.toordinal = ordinal := by
  obtain ⟨year, n, ⟨hyear, hn, hordinal⟩, hymd⟩ := ord2ymd_year h
  obtain ⟨hmonth, hday, hsum⟩ :=
    monthDay_spec (isLeap year) n (hn.trans_le (yearLength_le _)) hn
  have hlast : year ≤ 9999 := by
    by_contra hgt
    have hle : daysBeforeYear 9999 + yearLength (isLeap 9999) ≤ daysBeforeYear year :=
      daysBeforeYear_add_le (by decide) (Nat.lt_of_not_le hgt)
    have hmax' : daysBeforeYear 9999 + yearLength (isLeap 9999) = maxOrdinal := rfl
    rw [hmax'] at hle
    omega
  have hvalid : Valid year (monthDay (isLeap year) n).1 (monthDay (isLeap year) n).2 :=
    ⟨⟨hyear, hlast⟩, hmonth, hday⟩
  refine ⟨⟨_, _, _, hvalid⟩, ?_, ?_⟩
  · rw [fromordinal, if_pos ⟨h, hmax⟩, hymd, date?, dif_pos hvalid]
  · change daysBeforeYear year + (daysBeforeMonth (isLeap year) (monthDay (isLeap year) n).1 +
      (monthDay (isLeap year) n).2) = ordinal
    omega

theorem fromordinal_toordinal (d : Date) : fromordinal d.toordinal = some d := by
  obtain ⟨hpos, hmax⟩ := d.toordinal_bounds
  obtain ⟨e, he, hsame⟩ := fromordinal_spec hpos hmax
  rw [he, Date.toordinal_injective hsame]

theorem fromordinal_eq_some {d : Date} (h : fromordinal ordinal = some d) :
    d.toordinal = ordinal := by
  rw [fromordinal] at h
  split at h
  · rename_i hbounds
    obtain ⟨e, he, hsame⟩ := fromordinal_spec hbounds.1 hbounds.2
    rw [fromordinal, if_pos hbounds] at he
    rw [h] at he
    cases he
    exact hsame
  · cases h

end FromOrdinal
end Calendar
