import Lectern.Decimal.Shortest

/-!
# Decimals as floating point numbers

**`Decimal.toFloat`** is the floating point number nearest to a decimal one; of two that are equally near it is the even
one. A decimal number is a quotient, which is divided by the power of two that leaves 53 binary digits, or fewer below
the smallest number that has so many, and then rounded to an integer. Powers of ten that lead beyond the largest or
below the smallest number are not computed.
-/

set_option autoImplicit false

namespace Lectern.Decimal

/-- The integer nearest to a quotient; of two that are equally near the even one. -/
def roundQuotient (num den : Nat) : Nat :=
  let floor := num / den
  let rest := 2 * (num % den)
  if rest < den ∨ (rest = den ∧ floor % 2 = 0) then floor else floor + 1

/-- The power of two that a quotient is divided by so that 53 binary digits are left of it; never below the one of the
smallest number. -/
def binaryExponent (num den : Nat) : Int :=
  let q : Int := (num.log2 : Int) - den.log2 - 53
  let wide : Bool := powerOfTwo 53 * den * powerOfTwo q.toNat ≤ num * powerOfTwo (-q).toNat
  max (if wide then q + 1 else q) (-1074)

/-- The bits of infinity. -/
def infinityBits : Nat := 0x7FF * powerOfTwo 52

/-- The bits of the floating point number nearest to a positive decimal number. An integer of 53 binary digits carries
its first digit into the exponent. -/
def bits (d : Decimal) : Nat :=
  let num := d.digits * powerOfTen d.exponent.toNat
  let den := powerOfTen (-d.exponent).toNat
  let q := binaryExponent num den
  min infinityBits ((q + 1074).toNat * powerOfTwo 52 + roundQuotient (num * powerOfTwo (-q).toNat) (den * powerOfTwo q.toNat))

/-- The floating point number nearest to a decimal number, with its sign. -/
def toFloat (negative : Bool) (d : Decimal) : Float :=
  let magnitude := d.exponent + (Numeral.write d.digits).length
  let bits :=
    if d.digits = 0 ∨ magnitude < -400 then 0
    else if 400 < magnitude then infinityBits
    else d.bits
  Float.ofBits (.ofNat (if negative then powerOfTwo 63 + bits else bits))

/-- Rounding is off by half a unit at most. -/
theorem roundQuotient_near (num den : Nat) (h : 0 < den) :
    2 * num ≤ (2 * roundQuotient num den + 1) * den ∧ 2 * roundQuotient num den * den ≤ 2 * num + den := by
  have hd := Nat.div_add_mod num den
  have hm := Nat.mod_lt num h
  unfold roundQuotient
  dsimp only
  generalize num / den = floor at *
  generalize num % den = rest at *
  have hc : den * floor = floor * den := Nat.mul_comm _ _
  have ha : (2 * floor + 1) * den = 2 * (floor * den) + den := by rw [Nat.add_mul, Nat.mul_assoc, Nat.one_mul]
  have hb : (2 * (floor + 1) + 1) * den = 2 * (floor * den) + 3 * den := by
    rw [show 2 * (floor + 1) + 1 = 2 * floor + 3 by omega, Nat.add_mul, Nat.mul_assoc]
  have he : 2 * (floor + 1) * den = 2 * (floor * den) + 2 * den := by
    rw [show 2 * (floor + 1) = 2 * floor + 2 by omega, Nat.add_mul, Nat.mul_assoc]
  have hf : 2 * floor * den = 2 * (floor * den) := Nat.mul_assoc _ _ _
  split <;> omega

end Lectern.Decimal
