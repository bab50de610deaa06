import NocAgent.Library.DateTime
import NocAgent.Library.Text
import Mathlib.Tactic.NormNum

namespace Calendar
open Digits

structure Offset where
  micros : ℤ
  bounded : -(microsPerDay : ℤ) < micros ∧ micros < microsPerDay
deriving DecidableEq

def Offset.utc : Offset := ⟨0, by decide⟩

def offset? (micros : ℤ) : Option Offset :=
  if h : -(microsPerDay : ℤ) < micros ∧ micros < microsPerDay then some ⟨micros, h⟩ else none

def expect (c : Char) : List Char → Option (List Char)
  | [] => none
  | d :: cs => if d = c then some cs else none

def readDate (cs : List Char) : Option (Date × List Char) := do
  let (year, cs) ← readDigits 4 0 cs
  let cs ← expect '-' cs
  let (month, cs) ← readDigits 2 0 cs
  let cs ← expect '-' cs
  let (day, cs) ← readDigits 2 0 cs
  let date ← date? year month day
  some (date, cs)

-- Digits beyond the sixth are dropped.
def fraction? (digits : List Char) : Option ℕ :=
  if digits ≠ [] ∧ AllDigits digits then
    some (value (digits.take 6) * 10 ^ (6 - digits.length))
  else none

-- HH[:MM[:SS[.ffffff]]], of a clock or of an offset.
def readTime (cs : List Char) : Option (ℕ × ℕ × ℕ × ℕ) := do
  let (hour, cs) ← readDigits 2 0 cs
  if cs = [] then some (hour, 0, 0, 0)
  else do
    let cs ← expect ':' cs
    let (minute, cs) ← readDigits 2 0 cs
    if cs = [] then some (hour, minute, 0, 0)
    else do
      let cs ← expect ':' cs
      let (second, cs) ← readDigits 2 0 cs
      match cs with
      | [] => some (hour, minute, second, 0)
      | point :: digits =>
        if point = '.' ∨ point = ',' then
          (fraction? digits).map fun microsecond => (hour, minute, second, microsecond)
        else none

def isZone (c : Char) : Bool := c = '+' || c = '-' || c = 'Z'

def readZone : List Char → Option (Option Offset)
  | [] => some none
  | sign :: cs =>
    if sign = 'Z' then if cs = [] then some (some .utc) else none
    else do
      let (hour, minute, second, microsecond) ← readTime cs
      let micros : ℤ := (secondsOf hour minute second * 1000000 + microsecond : ℕ)
      (offset? (if sign = '-' then -micros else micros)).map some

-- The extended form only: no week dates, no basic form without separators.
def fromisoformat (cs : List Char) : Option (DateTime × Option Offset) := do
  let (date, rest) ← readDate cs
  match rest with
  | [] | [_] => some (⟨date, .midnight⟩, none)
  | _ :: cs => do
    let (hour, minute, second, microsecond) ← readTime (cs.takeWhile (!isZone ·))
    let time ← clock? hour minute second microsecond
    let offset ← readZone (cs.dropWhile (!isZone ·))
    some (⟨date, time⟩, offset)

-- isoformat(timespec="microseconds") of a datetime in UTC.
def isoformat (d : DateTime) : List Char :=
  d.text ++ '.' :: (pad 6 d.time.microsecond ++ zeroOffset)

def Fraction (digits : List Char) (microsecond : ℕ) : Prop :=
  digits ≠ [] ∧ AllDigits digits ∧ value digits * 1000000 = microsecond * 10 ^ digits.length

inductive Clock.Written (c : Clock) : List Char → Prop
  | hour (hminute : c.minute = 0) (hsecond : c.second = 0) (hmicro : c.microsecond = 0) :
      Written c (pad 2 c.hour)
  | minute (hsecond : c.second = 0) (hmicro : c.microsecond = 0) :
      Written c (pad 2 c.hour ++ ':' :: pad 2 c.minute)
  | second (hmicro : c.microsecond = 0) : Written c c.text
  | fraction {point : Char} {digits : List Char} (hpoint : point = '.' ∨ point = ',')
      (h : Fraction digits c.microsecond) : Written c (c.text ++ point :: digits)

inductive Offset.Written (o : Offset) : List Char → Prop
  | zulu (h : o.micros = 0) : Written o ['Z']
  | plus {c : Clock} {cs : List Char} (h : o.micros = c.micros) (hc : c.Written cs) :
      Written o ('+' :: cs)
  | minus {c : Clock} {cs : List Char} (h : o.micros = -(c.micros : ℤ)) (hc : c.Written cs) :
      Written o ('-' :: cs)

structure Written (d : DateTime) (o : Offset) (cs : List Char) : Prop where
  split : ∃ separator clock zone, cs = d.date.text ++ separator :: (clock ++ zone) ∧
    separator ≠ 'Z' ∧ d.time.Written clock ∧ o.Written zone

section Read
variable {c : Clock} {cs rest : List Char} {n : ℕ}

theorem fraction_eq (h : Fraction cs n) : fraction? cs = some n := by
  obtain ⟨hne, hdigits, hvalue⟩ := h
  rw [fraction?, if_pos ⟨hne, hdigits⟩, Option.some.injEq]
  rcases le_total cs.length 6 with hle | hge
  · have hpow : 10 ^ cs.length * 10 ^ (6 - cs.length) = 1000000 := by
      rw [← pow_add, Nat.add_sub_cancel' hle]
      rfl
    rw [List.take_of_length_le hle]
    have hpos : 0 < 10 ^ cs.length := by positivity
    apply Nat.eq_of_mul_eq_mul_right hpos
    rw [← hvalue, ← hpow]
    ring
  · have hpow : 10 ^ cs.length = 1000000 * 10 ^ (cs.length - 6) := by
      rw [show 1000000 = 10 ^ 6 from rfl, ← pow_add, Nat.add_sub_cancel' hge]
    have hdropped : AllDigits (cs.drop 6) := fun c hc => hdigits c (List.mem_of_mem_drop hc)
    have htail := value_lt hdropped
    have hsplit := value_append (cs.take 6) (cs.drop 6)
    rw [List.length_drop] at htail hsplit
    rw [List.take_append_drop] at hsplit
    have hsame : value (cs.take 6) * 10 ^ (cs.length - 6) + value (cs.drop 6) =
        n * 10 ^ (cs.length - 6) + 0 := by
      rw [← hsplit]
      apply Nat.eq_of_mul_eq_mul_right (show 0 < 1000000 by decide)
      rw [hvalue, hpow]
      ring
    have hpos : 0 < 10 ^ (cs.length - 6) := by positivity
    rw [((radix_inj htail hpos).mp hsame).1, Nat.sub_eq_zero_of_le hge, pow_zero, mul_one]

theorem readDate_text (d : Date) (rest : List Char) :
    readDate (d.text ++ rest) = some (d, rest) := by
  have hdate : date? d.year d.month d.day = some d := dif_pos d.valid
  simp only [readDate, Date.text, List.append_assoc, List.cons_append, readDigits_pad d.year_lt,
    readDigits_pad d.month_lt, readDigits_pad d.day_lt, expect, hdate, Option.bind_eq_bind,
    Option.bind_some, if_true]

theorem readTime_hour (c : Clock) : readTime (pad 2 c.hour) = some (c.hour, 0, 0, 0) := by
  have hhour := readDigits_pad c.hour_lt []
  rw [List.append_nil] at hhour
  simp only [readTime, hhour, Option.bind_eq_bind, Option.bind_some, if_true]

theorem readTime_minute (c : Clock) :
    readTime (pad 2 c.hour ++ ':' :: pad 2 c.minute) = some (c.hour, c.minute, 0, 0) := by
  have hminute := readDigits_pad c.minute_lt []
  rw [List.append_nil] at hminute
  simp [readTime, readDigits_pad c.hour_lt, hminute, expect]

theorem readTime_text (c : Clock) (rest : List Char) :
    readTime (c.text ++ rest) = match rest with
      | [] => some (c.hour, c.minute, c.second, 0)
      | point :: digits =>
        if point = '.' ∨ point = ',' then
          (fraction? digits).map fun microsecond => (c.hour, c.minute, c.second, microsecond)
        else none := by
  simp [readTime, Clock.text, readDigits_pad c.hour_lt, readDigits_pad c.minute_lt,
    readDigits_pad c.second_lt, expect]

theorem readTime_written (h : c.Written cs) :
    readTime cs = some (c.hour, c.minute, c.second, c.microsecond) := by
  cases h with
  | hour hminute hsecond hmicro => rw [readTime_hour, hminute, hsecond, hmicro]
  | minute hsecond hmicro => rw [readTime_minute, hsecond, hmicro]
  | second hmicro =>
    have htext := readTime_text c []
    rwa [List.append_nil, ← hmicro] at htext
  | fraction hpoint hfraction =>
    rw [readTime_text]
    simp only [if_pos hpoint, fraction_eq hfraction, Option.map_some]

theorem not_mem_pad {a : Char} (h : a.isDigit = false) (w n : ℕ) : a ∉ pad w n := fun ha =>
  Bool.false_ne_true (h.symm.trans (allDigits_pad w n a ha))

theorem not_mem_date {a : Char} (h : a.isDigit = false) (hdash : a ≠ '-') (d : Date) :
    a ∉ d.text := by
  simp only [Date.text, List.mem_append, List.mem_cons, not_or]
  exact ⟨not_mem_pad h _ _, hdash, not_mem_pad h _ _, hdash, not_mem_pad h _ _⟩

theorem isZone_of_isDigit {a : Char} (h : a.isDigit = true) : isZone a = false := by
  by_contra hzone
  simp only [isZone, Bool.not_eq_false, Bool.or_eq_true, decide_eq_true_eq] at hzone
  rcases hzone with (rfl | rfl) | rfl <;> cases h

theorem isZone_pad (w n : ℕ) : ∀ a ∈ pad w n, isZone a = false := fun a ha =>
  isZone_of_isDigit (allDigits_pad w n a ha)

theorem isZone_text (c : Clock) : ∀ a ∈ c.text, isZone a = false := by
  intro a ha
  simp only [Clock.text, List.mem_append, List.mem_cons] at ha
  rcases ha with ha | rfl | ha | rfl | ha
  · exact isZone_pad _ _ a ha
  · rfl
  · exact isZone_pad _ _ a ha
  · rfl
  · exact isZone_pad _ _ a ha

theorem isZone_written (h : c.Written cs) : ∀ a ∈ cs, isZone a = false := by
  cases h with
  | hour => exact isZone_pad _ _
  | minute =>
    intro a ha
    rcases List.mem_append.mp ha with ha | ha
    · exact isZone_pad _ _ a ha
    · rcases List.mem_cons.mp ha with rfl | ha
      · rfl
      · exact isZone_pad _ _ a ha
  | second => exact isZone_text c
  | fraction hpoint hfraction =>
    intro a ha
    rcases List.mem_append.mp ha with ha | ha
    · exact isZone_text c a ha
    · rcases List.mem_cons.mp ha with rfl | ha
      · rcases hpoint with rfl | rfl <;> rfl
      · exact isZone_of_isDigit (hfraction.2.1 a ha)

theorem micros_parts (c : Clock) :
    secondsOf c.hour c.minute c.second * 1000000 + c.microsecond = c.micros := rfl

theorem readZone_signed {o : Offset} {sign : Char} (hsign : sign ≠ 'Z') (hc : c.Written cs)
    (h : o.micros = if sign = '-' then -(c.micros : ℤ) else c.micros) :
    readZone (sign :: cs) = some (some o) := by
  have hoffset : offset? o.micros = some o := dif_pos o.bounded
  rw [readZone, if_neg hsign, readTime_written hc]
  simp only [Option.bind_eq_bind, Option.bind_some, micros_parts]
  rw [← h, hoffset, Option.map_some]

def withoutZulu (cs : List Char) : List Char := Text.replace ['Z'] zeroOffset cs

theorem not_mem_of_not_zone (h : ∀ a ∈ cs, isZone a = false) : 'Z' ∉ cs := fun hmem =>
  Bool.true_eq_false.mp (h 'Z' hmem)

theorem withoutZulu_signed {sign : Char} (hsign : sign ≠ 'Z') (hc : c.Written cs) :
    withoutZulu (sign :: cs) = sign :: cs := by
  apply Text.replace_of_not_mem
  rw [List.mem_cons, not_or]
  exact ⟨hsign.symm, not_mem_of_not_zone (isZone_written hc)⟩

theorem withoutZulu_offset {o : Offset} (h : o.Written cs) :
    ∃ sign clock, withoutZulu cs = sign :: clock ∧ isZone sign = true ∧
      readZone (sign :: clock) = some (some o) := by
  cases h with
  | zulu hzero =>
    have hmidnight : Clock.midnight.Written ['0', '0', ':', '0', '0'] := .minute rfl rfl
    refine ⟨'+', _, rfl, rfl, readZone_signed (by decide) hmidnight ?_⟩
    rw [hzero, if_neg (by decide), Clock.micros_midnight, Nat.cast_zero]
  | plus hplus hc =>
    refine ⟨'+', _, withoutZulu_signed (by decide) hc, rfl, readZone_signed (by decide) hc ?_⟩
    rw [hplus, if_neg (by decide)]
  | minus hminus hc =>
    refine ⟨'-', _, withoutZulu_signed (by decide) hc, rfl, readZone_signed (by decide) hc ?_⟩
    rw [hminus, if_pos rfl]

theorem written_ne_nil (h : c.Written cs) : cs ≠ [] := by
  rintro rfl
  have hread := readTime_written h
  cases hread

theorem fromisoformat_written {d : DateTime} {o : Offset} (h : Written d o cs) :
    fromisoformat (withoutZulu cs) = some (d, some o) := by
  obtain ⟨separator, clock, zone, rfl, hseparator, hclock, hzone⟩ := h.split
  obtain ⟨sign, offset, hoffset, hsign, hread⟩ := withoutZulu_offset hzone
  have hZ : 'Z' ∉ d.date.text ++ separator :: clock := by
    rw [List.mem_append, List.mem_cons, not_or, not_or]
    exact ⟨not_mem_date rfl (by decide) d.date, hseparator.symm,
      not_mem_of_not_zone (isZone_written hclock)⟩
  have hsplit : withoutZulu (d.date.text ++ separator :: (clock ++ zone)) =
      d.date.text ++ separator :: (clock ++ sign :: offset) := by
    have happend : withoutZulu (d.date.text ++ separator :: clock ++ zone) =
        d.date.text ++ separator :: clock ++ withoutZulu zone := Text.replace_append hZ zone
    rw [hoffset] at happend
    simpa only [List.append_assoc, List.cons_append] using happend
  have htime : clock? d.time.hour d.time.minute d.time.second d.time.microsecond = some d.time :=
    dif_pos d.time.valid
  have htake : (clock ++ sign :: offset).takeWhile (!isZone ·) = clock := by
    rw [List.takeWhile_append_of_pos (by simpa using isZone_written hclock),
      List.takeWhile_cons_of_neg (by simp [hsign]), List.append_nil]
  have hdrop : (clock ++ sign :: offset).dropWhile (!isZone ·) = sign :: offset := by
    rw [List.dropWhile_append_of_pos (by simpa using isZone_written hclock),
      List.dropWhile_cons_of_neg (by simp [hsign])]
  obtain ⟨x, xs, hx⟩ := List.exists_cons_of_ne_nil (List.append_ne_nil_of_left_ne_nil
    (written_ne_nil hclock) (sign :: offset))
  rw [hsplit, fromisoformat, readDate_text]
  simp only [Option.bind_eq_bind, Option.bind_some]
  rw [hx] at htake hdrop ⊢
  simp only [htake, hdrop, readTime_written hclock, Option.bind_some, htime, hread]

end Read

-- The text that stands for an instant here: a Z in the place of the offset.
def zuluText (d : DateTime) : List Char := Text.replace zeroOffset ['Z'] (isoformat d)

section Zulu
variable (d e : DateTime)

theorem zuluText_eq : zuluText d = d.text ++ '.' :: (pad 6 d.time.microsecond ++ ['Z']) := by
  have hplus : '+' ∉ d.text ++ '.' :: pad 6 d.time.microsecond := by
    simp only [DateTime.text, Clock.text, List.mem_append, List.mem_cons, not_or]
    have hdate := not_mem_date (a := '+') rfl (by decide) d.date
    have hpad := not_mem_pad (a := '+') rfl
    exact ⟨⟨hdate, by decide, hpad _ _, by decide, hpad _ _, by decide, hpad _ _⟩, by decide,
      hpad _ _⟩
  have happend : Text.replace zeroOffset ['Z']
      (d.text ++ '.' :: pad 6 d.time.microsecond ++ zeroOffset) =
        d.text ++ '.' :: pad 6 d.time.microsecond ++ Text.replace zeroOffset ['Z'] zeroOffset :=
    Text.replace_append hplus _
  have hsuffix : Text.replace zeroOffset ['Z'] zeroOffset = ['Z'] := Text.replace_old []
  rw [hsuffix] at happend
  simpa only [zuluText, isoformat, List.append_assoc, List.cons_append] using happend

theorem fraction_pad : Fraction (pad 6 d.time.microsecond) d.time.microsecond := by
  refine ⟨?_, allDigits_pad _ _, ?_⟩
  · rw [pad]
    exact List.cons_ne_nil _ _
  · rw [value_pad d.time.microsecond_lt, length_pad]
    norm_num

theorem written_zuluText : Written d .utc (zuluText d) := by
  refine ⟨'T', d.time.text ++ '.' :: pad 6 d.time.microsecond, ['Z'], ?_, by decide,
    .fraction (.inl rfl) (fraction_pad d), .zulu rfl⟩
  rw [zuluText_eq, DateTime.text]
  simp

theorem zuluText_lt_iff : zuluText d < zuluText e ↔ d.micros < e.micros := by
  rw [DateTime.micros_eq, DateTime.micros_eq,
    radix_lt_iff d.time.valid.2.2.2 e.time.valid.2.2.2, zuluText_eq, zuluText_eq,
    append_lt_append_iff (by simp), List.cons_lt_cons_iff, append_lt_append_iff (by simp),
    DateTime.text_lt_iff, DateTime.text_inj,
    pad_lt_pad_iff d.time.microsecond_lt e.time.microsecond_lt]
  simp

theorem zuluText_inj : zuluText d = zuluText e ↔ d = e := by
  constructor
  · intro h
    exact DateTime.micros_injective (key_eq_of_text_eq zuluText_lt_iff h)
  · intro h
    rw [h]

end Zulu
end Calendar
