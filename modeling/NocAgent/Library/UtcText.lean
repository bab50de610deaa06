import NocAgent.Library.DateTime
import Mathlib.Algebra.Order.Field.Rat
import Mathlib.Data.String.Basic
import Mathlib.Tactic.FieldSimp
import Mathlib.Tactic.Linarith
import Mathlib.Tactic.NormNum

namespace Calendar
open Digits

-- What the digits after a decimal mark add to a whole second.
def fractionOf (digits : List Char) : ℚ := value digits / 10 ^ digits.length

inductive UtcSuffix
  | zulu
  | offset
deriving DecidableEq

def UtcSuffix.text : UtcSuffix → List Char
  | .zulu => ['Z']
  | .offset => Calendar.zeroOffset

-- An ISO string in UTC: a whole second, the digits of its fraction, if it has one, and the suffix.
structure UtcText where
  second : DateTime
  digits : List Char
  suffix : UtcSuffix
  whole : second.time.microsecond = 0
  allDigits : AllDigits digits

namespace UtcText

def fractionText (u : UtcText) : List Char :=
  match u.digits with
  | [] => []
  | c :: cs => '.' :: c :: cs

def toText (u : UtcText) : String :=
  .ofList (u.second.text ++ (u.fractionText ++ u.suffix.text))

def instant (u : UtcText) : ℚ := u.second.seconds + fractionOf u.digits

-- Two instants of one second, the earlier of which says Z where the other has digits left.
def Misread (u v : UtcText) : Prop :=
  u.second.seconds = v.second.seconds ∧ u.suffix = .zulu ∧ u.digits <+: v.digits ∧
    u.instant < v.instant

end UtcText

section Fraction
variable {c d : Char} {cs ds es : List Char}

theorem fractionOf_nil : fractionOf [] = 0 := by
  simp [fractionOf, value]

theorem fractionOf_cons (c : Char) (cs : List Char) :
    fractionOf (c :: cs) = (digitValue c + fractionOf cs) / 10 := by
  rw [fractionOf, fractionOf, value_cons, List.length_cons, pow_succ]
  push_cast
  field_simp

theorem fractionOf_nonneg (cs : List Char) : 0 ≤ fractionOf cs := by
  rw [fractionOf]
  positivity

theorem fractionOf_lt_one (h : AllDigits cs) : fractionOf cs < 1 := by
  rw [fractionOf, div_lt_one (by positivity)]
  exact_mod_cast value_lt h

theorem digit_bounds (h : c.isDigit = true) : '+' < c ∧ c < 'Z' := by
  have hbounds := toNat_of_isDigit h
  rw [Char.lt_def, Char.lt_def, UInt32.lt_iff_toNat_lt, UInt32.lt_iff_toNat_lt]
  change 43 < c.toNat ∧ c.toNat < 90
  omega

theorem suffix_lt_cons (h : '+' < c ∧ c < 'Z') (s : UtcSuffix) :
    s.text < c :: cs ↔ s ≠ .zulu := by
  cases s with
  | zulu =>
    change 'Z' :: [] < c :: cs ↔ _
    rw [List.cons_lt_cons_iff]
    simp [h.2.not_gt, h.2.ne']
  | offset =>
    change '+' :: _ < c :: cs ↔ _
    rw [List.cons_lt_cons_iff]
    simp [h.1]

theorem digits_lt_iff (hds : AllDigits ds) (hes : AllDigits es) (s t : UtcSuffix)
    (h : fractionOf ds < fractionOf es) :
    ds ++ s.text < es ++ t.text ↔ ¬ (s = .zulu ∧ ds <+: es) := by
  induction ds generalizing es with
  | nil =>
    cases es with
    | nil => exact absurd h (lt_irrefl _)
    | cons e es =>
      rw [List.nil_append, List.cons_append,
        suffix_lt_cons (digit_bounds (hes e List.mem_cons_self))]
      simp
  | cons d ds ih =>
    cases es with
    | nil => exact absurd h (not_lt_of_ge (fractionOf_nil ▸ fractionOf_nonneg _))
    | cons e es =>
      obtain ⟨hd, hds'⟩ := List.forall_mem_cons.mp hds
      obtain ⟨he, hes'⟩ := List.forall_mem_cons.mp hes
      have hnonneg := fractionOf_nonneg ds
      have hless := fractionOf_lt_one hes'
      rw [fractionOf_cons, fractionOf_cons, div_lt_div_iff_of_pos_right (by norm_num)] at h
      rw [List.cons_append, List.cons_append, List.cons_lt_cons_iff, List.cons_prefix_cons]
      rcases lt_trichotomy d e with hlt | rfl | hgt
      · simp [hlt, hlt.ne]
      · have hrest : fractionOf ds < fractionOf es := by linarith
        simp [ih hds' hes' hrest]
      · have hvalue : (digitValue e + 1 : ℚ) ≤ digitValue d := by
          exact_mod_cast (digitValue_lt_iff he hd).mpr hgt
        linarith

end Fraction

namespace UtcText
variable {u v : UtcText}

theorem toList_toText (u : UtcText) :
    u.toText.toList = u.second.text ++ (u.fractionText ++ u.suffix.text) := String.toList_ofList

theorem fractionText_of_nil (h : u.digits = []) : u.fractionText = [] := by
  rw [fractionText, h]

theorem fractionText_of_ne_nil (h : u.digits ≠ []) : u.fractionText = '.' :: u.digits := by
  rw [fractionText]
  cases hdigits : u.digits with
  | nil => exact absurd hdigits h
  | cons c cs => rfl

theorem tail_lt_iff (h : fractionOf u.digits < fractionOf v.digits) :
    u.fractionText ++ u.suffix.text < v.fractionText ++ v.suffix.text ↔
      ¬ (u.suffix = .zulu ∧ u.digits <+: v.digits) := by
  have hv : v.digits ≠ [] := by
    intro hnil
    rw [hnil, fractionOf_nil] at h
    exact absurd h (not_lt_of_ge (fractionOf_nonneg _))
  rw [fractionText_of_ne_nil hv]
  by_cases hu : u.digits = []
  · rw [fractionText_of_nil hu, hu, List.nil_append, List.cons_append,
      suffix_lt_cons (by decide)]
    simp
  · rw [fractionText_of_ne_nil hu, List.cons_append, List.cons_append, List.cons_lt_cons_iff,
      digits_lt_iff u.allDigits v.allDigits _ _ h]
    simp

theorem instant_bounds (u : UtcText) :
    (u.second.seconds : ℚ) ≤ u.instant ∧ u.instant < u.second.seconds + 1 := by
  have hnonneg := fractionOf_nonneg u.digits
  have hless := fractionOf_lt_one u.allDigits
  rw [instant]
  constructor <;> linarith

theorem toText_lt_iff (h : u.instant < v.instant) : u.toText < v.toText ↔ ¬ Misread u v := by
  rw [String.lt_iff_toList_lt, toList_toText, toList_toText, append_lt_append_iff (by simp),
    DateTime.text_lt_iff, DateTime.text_inj]
  have hu := instant_bounds u
  have hv := instant_bounds v
  rcases lt_trichotomy u.second.seconds v.second.seconds with hlt | heq | hgt
  · simp [Misread, hlt, hlt.ne]
  · have hfraction : fractionOf u.digits < fractionOf v.digits := by
      rw [instant, instant, heq] at h
      linarith
    rw [tail_lt_iff hfraction]
    simp [Misread, heq, h]
  · have hstep : (v.second.seconds + 1 : ℚ) ≤ u.second.seconds := by exact_mod_cast hgt
    linarith

theorem toText_ne_empty (u : UtcText) : u.toText ≠ "" := by
  intro h
  have hlength := congrArg (fun text : String => text.toList.length) h
  rw [toList_toText, List.length_append, DateTime.length_text] at hlength
  cases Nat.succ_add _ _ ▸ hlength

theorem length_fractionText (u : UtcText) :
    u.fractionText.length = if u.digits.length = 0 then 0 else u.digits.length + 1 := by
  split_ifs with h
  · rw [fractionText_of_nil (List.length_eq_zero_iff.mp h), List.length_nil]
  · rw [fractionText_of_ne_nil fun hnil => h (List.length_eq_zero_iff.mpr hnil), List.length_cons]

theorem suffix_length_pos (s : UtcSuffix) : 1 ≤ s.text.length := by
  cases s <;> decide

theorem Misread.toText_ne (h : Misread u v) : u.toText ≠ v.toText := by
  obtain ⟨hseconds, hsuffix, hbegins, hlater⟩ := h
  intro heq
  have hlength := congrArg (fun text : String => text.toList.length) heq
  simp only [toList_toText, List.length_append, DateTime.length_text, length_fractionText,
    hsuffix] at hlength
  have hpos := suffix_length_pos v.suffix
  have hone : UtcSuffix.zulu.text.length = 1 := rfl
  have hle := hbegins.length_le
  have hdigits : u.digits = v.digits := by
    refine hbegins.eq_of_length_le ?_
    split_ifs at hlength <;> omega
  rw [instant, instant, hseconds, hdigits] at hlater
  exact absurd hlater (lt_irrefl _)

theorem Misread.toText_lt (h : Misread u v) : v.toText < u.toText :=
  lt_of_le_of_ne (not_lt.mp fun hlt => (toText_lt_iff h.2.2.2).mp hlt h) h.toText_ne.symm

theorem take_toText (u : UtcText) : u.toText.toList.take 19 = u.second.text := by
  rw [toList_toText, List.take_left' u.second.length_text]

theorem Misread.take_eq (h : Misread u v) :
    u.toText.toList.take 19 = v.toText.toList.take 19 := by
  rw [take_toText, take_toText, DateTime.text_inj, h.1]

end UtcText
end Calendar
