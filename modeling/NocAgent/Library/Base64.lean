import Mathlib.Data.Nat.Notation

namespace Base64

def alphabet : List Char :=
  "ABCDEFGHIJKLMNOPQRSTUVWXYZabcdefghijklmnopqrstuvwxyz0123456789+/".toList

def digit (n : ℕ) : Char := alphabet.getD n '='

def value? (c : Char) : Option ℕ := alphabet.findIdx? (· == c)

def encode : List UInt8 → List Char
  | [] => []
  | [a] => [digit (a.toNat / 4), digit (a.toNat % 4 * 16), '=', '=']
  | [a, b] =>
    [digit (a.toNat / 4), digit (a.toNat % 4 * 16 + b.toNat / 16), digit (b.toNat % 16 * 4), '=']
  | a :: b :: c :: rest =>
    digit (a.toNat / 4) :: digit (a.toNat % 4 * 16 + b.toNat / 16) ::
      digit (b.toNat % 16 * 4 + c.toNat / 64) :: digit (c.toNat % 64) :: encode rest

def first (p q : ℕ) : UInt8 := .ofNat (p * 4 + q / 16)

def second (q r : ℕ) : UInt8 := .ofNat (q % 16 * 16 + r / 4)

def third (r s : ℕ) : UInt8 := .ofNat (r % 4 * 64 + s)

-- White space, which a reader may skip, is left out.
def decode : List Char → Option (List UInt8)
  | [] => some []
  | w :: x :: y :: z :: rest => do
    let p ← value? w
    let q ← value? x
    if y = '=' ∧ z = '=' ∧ rest = [] then return [first p q]
    else
      let r ← value? y
      if z = '=' ∧ rest = [] then return [first p q, second q r]
      else
        let s ← value? z
        return first p q :: second q r :: third r s :: (← decode rest)
  | _ => none

theorem value?_digit {n : ℕ} (h : n < 64) : value? (digit n) = some n := by
  have hall : ∀ n ∈ List.range 64, value? (digit n) = some n := by decide +kernel
  exact hall n (List.mem_range.mpr h)

theorem digit_ne_pad {n : ℕ} (h : n < 64) : digit n ≠ '=' := by
  intro hpad
  have hvalue := value?_digit h
  rw [hpad] at hvalue
  cases hvalue

theorem byte_eq (a : UInt8) {n : ℕ} (h : n = a.toNat) : UInt8.ofNat n = a := by
  rw [h, UInt8.ofNat_toNat]

section Groups
variable {p q r s : ℕ}

theorem decode_group_one (hp : p < 64) (hq : q < 64) :
    decode [digit p, digit q, '=', '='] = some [first p q] := by
  rw [decode, value?_digit hp, value?_digit hq]
  rfl

theorem decode_group_two (hp : p < 64) (hq : q < 64) (hr : r < 64) :
    decode [digit p, digit q, digit r, '='] = some [first p q, second q r] := by
  rw [decode, value?_digit hp, value?_digit hq, value?_digit hr]
  simp only [Option.bind_eq_bind, Option.bind_some, digit_ne_pad hr, false_and, if_false,
    and_self, if_true]
  rfl

theorem decode_group (hp : p < 64) (hq : q < 64) (hr : r < 64) (hs : s < 64) (rest : List Char) :
    decode (digit p :: digit q :: digit r :: digit s :: rest) =
      (decode rest).map fun bytes => first p q :: second q r :: third r s :: bytes := by
  have hpad : ¬ (digit r = '=' ∧ digit s = '=' ∧ rest = []) := fun h => digit_ne_pad hr h.1
  have hpad' : ¬ (digit s = '=' ∧ rest = []) := fun h => digit_ne_pad hs h.1
  rw [decode, value?_digit hp, value?_digit hq, value?_digit hr, value?_digit hs]
  simp only [Option.bind_eq_bind, Option.bind_some, if_neg hpad, if_neg hpad']
  cases decode rest <;> rfl

end Groups

theorem decode_encode (bytes : List UInt8) : decode (encode bytes) = some bytes := by
  induction bytes using encode.induct with
  | case1 => rfl
  | case2 a =>
    have ha := a.toNat_lt
    rw [encode, decode_group_one (by omega) (by omega), first, byte_eq a (by omega)]
  | case3 a b =>
    have ha := a.toNat_lt
    have hb := b.toNat_lt
    rw [encode, decode_group_two (by omega) (by omega) (by omega), first, second,
      byte_eq a (by omega), byte_eq b (by omega)]
  | case4 a b c rest ih =>
    have ha := a.toNat_lt
    have hb := b.toNat_lt
    have hc := c.toNat_lt
    rw [encode, decode_group (by omega) (by omega) (by omega) (by omega), ih, Option.map_some,
      first, second, third, byte_eq a (by omega), byte_eq b (by omega), byte_eq c (by omega)]

end Base64
