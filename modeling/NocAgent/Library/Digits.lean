import Mathlib.Data.List.Basic
import Mathlib.Tactic.IntervalCases
import Mathlib.Tactic.Linarith
import Mathlib.Tactic.Positivity
import Mathlib.Tactic.Ring
import Mathlib.Tactic.Tauto

namespace Digits

def digit (n : ℕ) : Char := Char.ofNat ('0'.toNat + n)

def digitValue (c : Char) : ℕ := c.toNat - '0'.toNat

-- The last `w` digits of a number, which for a number that has no more is its zero padded text.
def pad : ℕ → ℕ → List Char
  | 0, _ => []
  | w + 1, n => digit (n / 10 ^ w % 10) :: pad w (n % 10 ^ w)

def value (cs : List Char) : ℕ := cs.foldl (fun n c => n * 10 + digitValue c) 0

-- The number that the first `w` characters spell, if they are digits, and the text after them.
def readDigits : ℕ → ℕ → List Char → Option (ℕ × List Char)
  | 0, acc, cs => some (acc, cs)
  | _ + 1, _, [] => none
  | w + 1, acc, c :: cs =>
    if c.isDigit = true then readDigits w (acc * 10 + digitValue c) cs else none

def AllDigits (cs : List Char) : Prop := ∀ c ∈ cs, c.isDigit = true

instance (cs : List Char) : Decidable (AllDigits cs) :=
  List.decidableBAll (Char.isDigit · = true) cs

section Digit
variable {a b : ℕ}

theorem isDigit_digit (h : a < 10) : (digit a).isDigit = true := by
  interval_cases a <;> rfl

theorem digitValue_digit (h : a < 10) : digitValue (digit a) = a := by
  interval_cases a <;> rfl

theorem digit_lt_digit_iff (ha : a < 10) (hb : b < 10) : digit a < digit b ↔ a < b := by
  interval_cases a <;> interval_cases b <;> decide

theorem digit_inj (ha : a < 10) (hb : b < 10) : digit a = digit b ↔ a = b := by
  constructor
  · intro h
    rw [← digitValue_digit ha, ← digitValue_digit hb, h]
  · intro h
    rw [h]

end Digit

theorem radix_lt_iff {base q q' r r' : ℕ} (hr : r < base) (hr' : r' < base) :
    q * base + r < q' * base + r' ↔ q < q' ∨ q = q' ∧ r < r' := by
  rcases lt_trichotomy q q' with hlt | heq | hgt
  · have hstep : (q + 1) * base ≤ q' * base := Nat.mul_le_mul_right base hlt
    rw [Nat.succ_mul] at hstep
    constructor
    · intro _
      exact .inl hlt
    · intro _
      omega
  · subst heq
    simp
  · have hstep : (q' + 1) * base ≤ q * base := Nat.mul_le_mul_right base hgt
    rw [Nat.succ_mul] at hstep
    constructor
    · intro h
      omega
    · intro h
      omega

theorem radix_inj {base q q' r r' : ℕ} (hr : r < base) (hr' : r' < base) :
    q * base + r = q' * base + r' ↔ q = q' ∧ r = r' := by
  have hlt : q * base + r < q' * base + r' ↔ q < q' ∨ q = q' ∧ r < r' := radix_lt_iff hr hr'
  have hgt : q' * base + r' < q * base + r ↔ q' < q ∨ q' = q ∧ r' < r := radix_lt_iff hr' hr
  constructor
  · intro h
    rw [h] at hlt hgt
    simp only [lt_irrefl, false_iff, not_or, not_and] at hlt hgt
    have hq : q = q' := by omega
    subst hq
    have hnot := hlt.2 rfl
    have hnot' := hgt.2 rfl
    omega
  · rintro ⟨rfl, rfl⟩
    rfl

theorem append_lt_append_iff {α : Type} [LT α] {xs ys rs ss : List α}
    (h : xs.length = ys.length) : xs ++ rs < ys ++ ss ↔ xs < ys ∨ xs = ys ∧ rs < ss := by
  induction xs generalizing ys with
  | nil =>
    obtain rfl := List.length_eq_zero_iff.mp h.symm
    simp
  | cons x xs ih =>
    cases ys with
    | nil => cases h
    | cons y ys =>
      have htail : xs.length = ys.length := Nat.succ.inj h
      simp only [List.cons_append, List.cons_lt_cons_iff, ih htail, List.cons.injEq]
      tauto

theorem key_eq_of_text_eq {α : Type} {text : α → List Char} {key : α → ℕ}
    (h : ∀ a b, text a < text b ↔ key a < key b) {a b : α} (heq : text a = text b) :
    key a = key b := by
  have hirrefl : ¬ text b < text b := List.lt_irrefl _
  have hlt : ¬ key a < key b := fun hkey => hirrefl (heq ▸ (h a b).mpr hkey)
  have hgt : ¬ key b < key a := fun hkey => hirrefl (heq ▸ (h b a).mpr hkey)
  omega

section Pad
variable {w n m : ℕ}

@[simp]
theorem length_pad (w n : ℕ) : (pad w n).length = w := by
  induction w generalizing n with
  | zero => rfl
  | succ w ih => rw [pad, List.length_cons, ih]

theorem allDigits_pad (w n : ℕ) : AllDigits (pad w n) := by
  induction w generalizing n with
  | zero => exact List.forall_mem_nil _
  | succ w ih => exact List.forall_mem_cons.mpr ⟨isDigit_digit (Nat.mod_lt _ (by decide)), ih _⟩

theorem leading_lt (h : n < 10 ^ (w + 1)) : n / 10 ^ w < 10 := by
  rw [Nat.div_lt_iff_lt_mul (by positivity)]
  rwa [pow_succ, mul_comm] at h

theorem pad_succ (h : n < 10 ^ (w + 1)) :
    pad (w + 1) n = digit (n / 10 ^ w) :: pad w (n % 10 ^ w) := by
  rw [pad, Nat.mod_eq_of_lt (leading_lt h)]

theorem mod_lt (w n : ℕ) : n % 10 ^ w < 10 ^ w := Nat.mod_lt _ (by positivity)

theorem pad_inj (hn : n < 10 ^ w) (hm : m < 10 ^ w) : pad w n = pad w m ↔ n = m := by
  induction w generalizing n m with
  | zero => simp_all
  | succ w ih =>
    rw [pad_succ hn, pad_succ hm, List.cons.injEq, digit_inj (leading_lt hn) (leading_lt hm),
      ih (mod_lt w n) (mod_lt w m), ← radix_inj (mod_lt w n) (mod_lt w m),
      Nat.div_add_mod', Nat.div_add_mod']

theorem pad_lt_pad_iff (hn : n < 10 ^ w) (hm : m < 10 ^ w) : pad w n < pad w m ↔ n < m := by
  induction w generalizing n m with
  | zero => simp_all
  | succ w ih =>
    rw [pad_succ hn, pad_succ hm, List.cons_lt_cons_iff,
      digit_lt_digit_iff (leading_lt hn) (leading_lt hm),
      digit_inj (leading_lt hn) (leading_lt hm), ih (mod_lt w n) (mod_lt w m),
      ← radix_lt_iff (mod_lt w n) (mod_lt w m), Nat.div_add_mod', Nat.div_add_mod']

end Pad

section Read
variable {w n acc : ℕ} {cs rest : List Char}

theorem readDigits_append (h : AllDigits cs) (acc : ℕ) (rest : List Char) :
    readDigits cs.length acc (cs ++ rest) =
      some (cs.foldl (fun n c => n * 10 + digitValue c) acc, rest) := by
  induction cs generalizing acc with
  | nil => rfl
  | cons c cs ih =>
    obtain ⟨hc, hcs⟩ := List.forall_mem_cons.mp h
    rw [List.length_cons, List.cons_append, readDigits, if_pos hc, ih hcs, List.foldl_cons]

theorem foldl_digitValue (cs : List Char) (acc : ℕ) :
    cs.foldl (fun n c => n * 10 + digitValue c) acc = acc * 10 ^ cs.length + value cs := by
  induction cs generalizing acc with
  | nil => simp [value]
  | cons c cs ih =>
    rw [value, List.foldl_cons, List.foldl_cons, ih, ih, List.length_cons]
    ring

theorem value_cons (c : Char) (cs : List Char) :
    value (c :: cs) = digitValue c * 10 ^ cs.length + value cs := by
  rw [value, List.foldl_cons, foldl_digitValue, Nat.zero_mul, Nat.zero_add]

theorem value_append (cs ds : List Char) :
    value (cs ++ ds) = value cs * 10 ^ ds.length + value ds := by
  rw [value, List.foldl_append, foldl_digitValue]
  rfl

theorem value_pad (h : n < 10 ^ w) : value (pad w n) = n := by
  induction w generalizing n with
  | zero => simp_all [pad, value]
  | succ w ih =>
    rw [pad_succ h, value_cons, digitValue_digit (leading_lt h), length_pad, ih (mod_lt w n),
      Nat.div_add_mod']

theorem toNat_of_isDigit {c : Char} (h : c.isDigit = true) : 48 ≤ c.toNat ∧ c.toNat ≤ 57 := by
  simpa [Char.isDigit, UInt32.le_iff_toNat_le] using h

theorem digitValue_eq (c : Char) : digitValue c = c.toNat - 48 := rfl

theorem digitValue_lt {c : Char} (h : c.isDigit = true) : digitValue c < 10 := by
  have hbounds := toNat_of_isDigit h
  rw [digitValue_eq]
  omega

theorem digitValue_lt_iff {c d : Char} (hc : c.isDigit = true) (hd : d.isDigit = true) :
    digitValue c < digitValue d ↔ c < d := by
  have hbounds := toNat_of_isDigit hc
  have hbounds' := toNat_of_isDigit hd
  rw [digitValue_eq, digitValue_eq, Char.lt_def, UInt32.lt_iff_toNat_lt]
  change _ ↔ c.toNat < d.toNat
  omega

theorem value_lt (h : AllDigits cs) : value cs < 10 ^ cs.length := by
  induction cs with
  | nil => simp [value]
  | cons c cs ih =>
    obtain ⟨hc, hcs⟩ := List.forall_mem_cons.mp h
    have hhead := digitValue_lt hc
    have htail := ih hcs
    rw [value_cons, List.length_cons, pow_succ]
    nlinarith

theorem readDigits_pad (h : n < 10 ^ w) (rest : List Char) :
    readDigits w 0 (pad w n ++ rest) = some (n, rest) := by
  have hread := readDigits_append (allDigits_pad w n) 0 rest
  rw [length_pad] at hread
  rw [hread]
  exact congrArg (fun k => some (k, rest)) (value_pad h)

end Read
end Digits
