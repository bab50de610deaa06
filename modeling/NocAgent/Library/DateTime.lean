import NocAgent.Library.Calendar
import NocAgent.Library.Digits

namespace Calendar
open Digits

def ValidTime (hour minute second microsecond : ℕ) : Prop :=
  hour < 24 ∧ minute < 60 ∧ second < 60 ∧ microsecond < 1000000

instance (hour minute second microsecond : ℕ) :
    Decidable (ValidTime hour minute second microsecond) :=
  inferInstanceAs (Decidable (_ ∧ _))

structure Clock where
  hour : ℕ
  minute : ℕ
  second : ℕ
  microsecond : ℕ
  valid : ValidTime hour minute second microsecond
deriving DecidableEq

def clock? (hour minute second microsecond : ℕ) : Option Clock :=
  if h : ValidTime hour minute second microsecond then
    some ⟨hour, minute, second, microsecond, h⟩
  else none

def secondsOf (hour minute second : ℕ) : ℕ := (hour * 60 + minute) * 60 + second

def microsPerDay : ℕ := 86400000000

-- "+00:00"
def zeroOffset : List Char := ['+', '0', '0', ':', '0', '0']

namespace Clock

def seconds (c : Clock) : ℕ := secondsOf c.hour c.minute c.second

def micros (c : Clock) : ℕ := c.seconds * 1000000 + c.microsecond

def midnight : Clock := ⟨0, 0, 0, 0, by decide⟩

theorem micros_midnight : midnight.micros = 0 := by decide

def ofMicros (n : ℕ) (h : n < microsPerDay) : Clock where
  hour := n / 3600000000
  minute := n / 60000000 % 60
  second := n / 1000000 % 60
  microsecond := n % 1000000
  valid := by
    rw [microsPerDay] at h
    exact ⟨by omega, by omega, by omega, by omega⟩

def text (c : Clock) : List Char :=
  pad 2 c.hour ++ ':' :: (pad 2 c.minute ++ ':' :: pad 2 c.second)

variable (c e : Clock)

theorem seconds_lt : c.seconds < 86400 := by
  obtain ⟨hhour, hminute, hsecond, -⟩ := c.valid
  rw [seconds, secondsOf]
  omega

theorem micros_lt : c.micros < microsPerDay := by
  have hseconds := c.seconds_lt
  have hmicro := c.valid.2.2.2
  rw [micros, microsPerDay]
  omega

theorem micros_ofMicros {n : ℕ} (h : n < microsPerDay) : (ofMicros n h).micros = n := by
  change ((n / 3600000000 * 60 + n / 60000000 % 60) * 60 + n / 1000000 % 60) * 1000000 +
    n % 1000000 = n
  omega

theorem seconds_lt_iff : c.seconds < e.seconds ↔
    c.hour < e.hour ∨ c.hour = e.hour ∧
      (c.minute < e.minute ∨ c.minute = e.minute ∧ c.second < e.second) := by
  obtain ⟨-, hminute, hsecond, -⟩ := c.valid
  obtain ⟨-, hminute', hsecond', -⟩ := e.valid
  rw [seconds, seconds, secondsOf, secondsOf, radix_lt_iff hsecond hsecond',
    radix_lt_iff hminute hminute', radix_inj hminute hminute']
  tauto

theorem seconds_inj : c.seconds = e.seconds ↔
    c.hour = e.hour ∧ c.minute = e.minute ∧ c.second = e.second := by
  obtain ⟨-, hminute, hsecond, -⟩ := c.valid
  obtain ⟨-, hminute', hsecond', -⟩ := e.valid
  rw [seconds, seconds, secondsOf, secondsOf, radix_inj hsecond hsecond',
    radix_inj hminute hminute', and_assoc]

theorem micros_injective : Function.Injective micros := by
  intro c e h
  have hparts := (radix_inj c.valid.2.2.2 e.valid.2.2.2).mp h
  obtain ⟨hhour, hminute, hsecond⟩ := (seconds_inj c e).mp hparts.1
  have hmicro := hparts.2
  cases c
  cases e
  simp_all

theorem hour_lt : c.hour < 10 ^ 2 := c.valid.1.trans (by decide)

theorem minute_lt : c.minute < 10 ^ 2 := c.valid.2.1.trans (by decide)

theorem second_lt : c.second < 10 ^ 2 := c.valid.2.2.1.trans (by decide)

theorem microsecond_lt : c.microsecond < 10 ^ 6 := c.valid.2.2.2

theorem text_lt_iff : c.text < e.text ↔ c.seconds < e.seconds := by
  rw [seconds_lt_iff, text, text, append_lt_append_iff (by simp), List.cons_lt_cons_iff,
    append_lt_append_iff (by simp), List.cons_lt_cons_iff, pad_lt_pad_iff c.hour_lt e.hour_lt,
    pad_lt_pad_iff c.minute_lt e.minute_lt, pad_lt_pad_iff c.second_lt e.second_lt,
    pad_inj c.hour_lt e.hour_lt, pad_inj c.minute_lt e.minute_lt]
  simp

theorem text_inj : c.text = e.text ↔ c.seconds = e.seconds := by
  constructor
  · exact key_eq_of_text_eq text_lt_iff
  · intro h
    obtain ⟨hhour, hminute, hsecond⟩ := (seconds_inj c e).mp h
    rw [text, text, hhour, hminute, hsecond]

@[simp]
theorem length_text : c.text.length = 8 := by
  simp [text]

end Clock
namespace Date
variable (d e : Date)

def text : List Char := pad 4 d.year ++ '-' :: (pad 2 d.month ++ '-' :: pad 2 d.day)

theorem year_lt : d.year < 10 ^ 4 := Nat.lt_succ_of_le d.valid.1.2

theorem month_lt : d.month < 10 ^ 2 := d.valid.2.1.2.trans_lt (by decide)

theorem day_lt : d.day < 10 ^ 2 := by
  have hlength : ∀ leap, ∀ month < 13, daysInMonth leap month < 10 ^ 2 := by decide
  exact d.valid.2.2.2.trans_lt (hlength _ _ (Nat.lt_succ_of_le d.valid.2.1.2))

theorem text_lt_iff : d.text < e.text ↔ d.toordinal < e.toordinal := by
  rw [toordinal_lt_iff, text, text, append_lt_append_iff (by simp), List.cons_lt_cons_iff,
    append_lt_append_iff (by simp), List.cons_lt_cons_iff, pad_lt_pad_iff d.year_lt e.year_lt,
    pad_lt_pad_iff d.month_lt e.month_lt, pad_lt_pad_iff d.day_lt e.day_lt,
    pad_inj d.year_lt e.year_lt, pad_inj d.month_lt e.month_lt]
  simp

theorem text_inj : d.text = e.text ↔ d.toordinal = e.toordinal := by
  constructor
  · exact key_eq_of_text_eq text_lt_iff
  · intro h
    rw [toordinal_injective h]

@[simp]
theorem length_text : d.text.length = 10 := by
  simp [text]

end Date

structure DateTime where
  date : Date
  time : Clock
deriving DecidableEq

namespace DateTime
variable (d e : DateTime)

def seconds : ℕ := d.date.toordinal * 86400 + d.time.seconds

def micros : ℕ := d.date.toordinal * microsPerDay + d.time.micros

def text : List Char := d.date.text ++ 'T' :: d.time.text

theorem micros_eq : d.micros = d.seconds * 1000000 + d.time.microsecond := by
  rw [micros, seconds, Clock.micros, microsPerDay]
  ring

theorem micros_mk (date : Date) (time : Clock) :
    micros ⟨date, time⟩ = date.toordinal * microsPerDay + time.micros := rfl

theorem micros_injective : Function.Injective micros := by
  intro d e h
  obtain ⟨hdate, htime⟩ := (radix_inj d.time.micros_lt e.time.micros_lt).mp h
  have hdate' := Date.toordinal_injective hdate
  have htime' := Clock.micros_injective htime
  cases d
  cases e
  simp_all

theorem text_lt_iff : d.text < e.text ↔ d.seconds < e.seconds := by
  rw [seconds, seconds, radix_lt_iff d.time.seconds_lt e.time.seconds_lt, text, text,
    append_lt_append_iff (by simp), List.cons_lt_cons_iff, Date.text_lt_iff, Date.text_inj,
    Clock.text_lt_iff]
  simp

theorem text_inj : d.text = e.text ↔ d.seconds = e.seconds := by
  constructor
  · exact key_eq_of_text_eq text_lt_iff
  · intro h
    obtain ⟨hdate, htime⟩ := (radix_inj d.time.seconds_lt e.time.seconds_lt).mp h
    rw [text, text, (Date.text_inj _ _).mpr hdate, (Clock.text_inj _ _).mpr htime]

@[simp]
theorem length_text : d.text.length = 19 := by
  simp [text]

def ofMicros (t : ℤ) : Option DateTime :=
  (fromordinal (t / microsPerDay).toNat).map fun date =>
    ⟨date, .ofMicros (t % microsPerDay).toNat (by rw [microsPerDay]; omega)⟩

theorem ofMicros_micros : ofMicros d.micros = some d := by
  have htime := d.time.micros_lt
  have hday : ((d.micros : ℤ) / microsPerDay).toNat = d.date.toordinal := by
    rw [micros, microsPerDay] at *
    omega
  have hrest : ((d.micros : ℤ) % microsPerDay).toNat = d.time.micros := by
    rw [micros, microsPerDay] at *
    omega
  rw [ofMicros, hday, fromordinal_toordinal, Option.map_some, Option.some.injEq]
  apply micros_injective
  rw [micros_mk, Clock.micros_ofMicros, hrest]
  rfl

theorem ofMicros_eq_some_iff {t : ℤ} {d : DateTime} : ofMicros t = some d ↔ (d.micros : ℤ) = t := by
  constructor
  · intro h
    obtain ⟨date, hdate, rfl⟩ := Option.map_eq_some_iff.mp h
    have hordinal := fromordinal_eq_some hdate
    have hpos := date.toordinal_bounds.1
    rw [micros_mk, Clock.micros_ofMicros, hordinal, microsPerDay] at *
    omega
  · rintro rfl
    exact ofMicros_micros d

end DateTime
end Calendar
