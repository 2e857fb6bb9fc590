import Mathlib

/-!
# Base64

The standard alphabet with padding.  Three bytes are four digits of six bits; what is left over at
the end, one byte or two, is padded with `=`.  `decodeBase64_encodeBase64` is the round trip.
-/

set_option autoImplicit false

namespace Text

/-- The digit of a number below 64. -/
def base64Digit (n : ℕ) : Char :=
  if n < 26 then .ofNat (65 + n)
  else if n < 52 then .ofNat (97 + (n - 26))
  else if n < 62 then .ofNat (48 + (n - 52))
  else if n = 62 then '+' else '/'

/-- The number of a digit. -/
def base64Value (c : Char) : Option ℕ :=
  if 65 ≤ c.toNat ∧ c.toNat ≤ 90 then some (c.toNat - 65)
  else if 97 ≤ c.toNat ∧ c.toNat ≤ 122 then some (c.toNat - 97 + 26)
  else if 48 ≤ c.toNat ∧ c.toNat ≤ 57 then some (c.toNat - 48 + 52)
  else if c = '+' then some 62
  else if c = '/' then some 63
  else none

def encodeBase64 : List UInt8 → List Char
  | [] => []
  | [a] => [base64Digit (a.toNat / 4), base64Digit (a.toNat % 4 * 16), '=', '=']
  | [a, b] =>
    [base64Digit (a.toNat / 4), base64Digit (a.toNat % 4 * 16 + b.toNat / 16),
      base64Digit (b.toNat % 16 * 4), '=']
  | a :: b :: c :: rest =>
    base64Digit (a.toNat / 4) :: base64Digit (a.toNat % 4 * 16 + b.toNat / 16) ::
      base64Digit (b.toNat % 16 * 4 + c.toNat / 64) :: base64Digit (c.toNat % 64) ::
      encodeBase64 rest

/-- The last four digits, when one or two of them are padding. -/
def decodePadded (x y : ℕ) : Option ℕ → Option (List UInt8)
  | none => if y % 16 = 0 then some [.ofNat (x * 4 + y / 16)] else none
  | some z =>
    if z % 4 = 0 then some [.ofNat (x * 4 + y / 16), .ofNat (y % 16 * 16 + z / 4)] else none

/-- The bytes of a text, or `none` if it is not canonical Base64. -/
def decodeBase64 : List Char → Option (List UInt8)
  | [] => some []
  | x :: y :: z :: t :: rest => do
    let x ← base64Value x
    let y ← base64Value y
    if t = '=' then
      if rest ≠ [] then none
      else if z = '=' then decodePadded x y none
      else do
        let z ← base64Value z
        decodePadded x y (some z)
    else do
      let z ← base64Value z
      let t ← base64Value t
      let bytes ← decodeBase64 rest
      some (.ofNat (x * 4 + y / 16) :: .ofNat (y % 16 * 16 + z / 4) :: .ofNat (z % 4 * 64 + t) ::
        bytes)
  | _ => none

theorem base64Value_digit {n : ℕ} (h : n < 64) : base64Value (base64Digit n) = some n := by
  interval_cases n <;> rfl

theorem base64Digit_ne_pad {n : ℕ} (h : n < 64) : base64Digit n ≠ '=' := by
  intro he
  have := base64Value_digit h
  rw [he] at this
  exact absurd this (by simp [base64Value])

/-- A byte is put together again. -/
theorem ofNat_of_toNat {a : UInt8} {n : ℕ} (h : n = a.toNat) : UInt8.ofNat n = a := by
  rw [h, UInt8.ofNat_toNat]

/-- **Encoded bytes are decoded.** -/
theorem decodeBase64_encodeBase64 (bs : List UInt8) : decodeBase64 (encodeBase64 bs) = some bs := by
  induction bs using encodeBase64.induct with
  | case1 => rfl
  | case2 a =>
    have ha := a.toNat_lt
    rw [encodeBase64, decodeBase64, base64Value_digit (by omega), base64Value_digit (by omega)]
    simp only [Option.bind_eq_bind, Option.bind_some, if_true, ne_eq, not_true_eq_false, if_false,
      decodePadded]
    rw [if_pos (by omega), ofNat_of_toNat (a := a) (by omega)]
  | case3 a b =>
    have ha := a.toNat_lt
    have hb := b.toNat_lt
    rw [encodeBase64, decodeBase64, base64Value_digit (by omega), base64Value_digit (by omega),
      base64Value_digit (by omega)]
    simp only [Option.bind_eq_bind, Option.bind_some, if_true, ne_eq, not_true_eq_false, if_false,
      decodePadded, base64Digit_ne_pad (show b.toNat % 16 * 4 < 64 by omega)]
    rw [if_pos (by omega), ofNat_of_toNat (a := a) (by omega), ofNat_of_toNat (a := b) (by omega)]
  | case4 a b c rest ih =>
    have ha := a.toNat_lt
    have hb := b.toNat_lt
    have hc := c.toNat_lt
    rw [encodeBase64, decodeBase64, base64Value_digit (by omega), base64Value_digit (by omega),
      base64Value_digit (by omega), base64Value_digit (by omega), ih]
    simp only [Option.bind_eq_bind, Option.bind_some, if_false,
      base64Digit_ne_pad (show c.toNat % 64 < 64 by omega)]
    rw [ofNat_of_toNat (a := a) (by omega), ofNat_of_toNat (a := b) (by omega),
      ofNat_of_toNat (a := c) (by omega)]

end Text
