/-
**Single precision quotients.** Sizes in inches are single precision numbers: a sign, a significand
of 24 bits and a power of two. A quotient is the nearest such number, and an exact tie goes to the
even significand; one decimal place of it is printed from the exact value, with ties to even again.

* `two_mul_roundEven_le`, `le_two_mul_roundEven`: rounding a quotient moves it by half a unit at
  most.
-/

namespace Edid

/-- The integer nearest to a quotient, a tie going to the even neighbour. -/
def roundEven (numerator denominator : Nat) : Nat :=
  let whole := numerator / denominator
  let rest := 2 * (numerator % denominator)
  if rest < denominator ∨ rest = denominator ∧ whole % 2 = 0 then whole else whole + 1

/-- **Rounding down** moves a quotient by half a unit at most. -/
theorem le_two_mul_roundEven (numerator denominator : Nat) (positive : 0 < denominator) :
    2 * numerator ≤ (2 * roundEven numerator denominator + 1) * denominator := by
  have parts := Nat.div_add_mod numerator denominator
  have expanded : (2 * (numerator / denominator) + 1) * denominator =
      2 * (denominator * (numerator / denominator)) + denominator := by
    rw [Nat.add_mul, Nat.one_mul, Nat.mul_assoc, Nat.mul_comm denominator]
  have more : (2 * (numerator / denominator + 1) + 1) * denominator =
      2 * (denominator * (numerator / denominator)) + 3 * denominator := by
    rw [Nat.mul_add, Nat.add_assoc, Nat.add_mul, Nat.mul_assoc, Nat.mul_comm denominator]
  have below := Nat.mod_lt numerator positive
  unfold roundEven
  dsimp only
  split <;> omega

/-- **Rounding up** moves a quotient by half a unit at most. -/
theorem two_mul_roundEven_le (numerator denominator : Nat) (positive : 0 < denominator) :
    2 * roundEven numerator denominator * denominator ≤ 2 * numerator + denominator := by
  have parts := Nat.div_add_mod numerator denominator
  have expanded : 2 * (numerator / denominator) * denominator =
      2 * (denominator * (numerator / denominator)) := by
    rw [Nat.mul_assoc, Nat.mul_comm denominator]
  have more : 2 * (numerator / denominator + 1) * denominator =
      2 * (denominator * (numerator / denominator)) + 2 * denominator := by
    rw [Nat.mul_add, Nat.add_mul, Nat.mul_assoc, Nat.mul_comm denominator]
  unfold roundEven
  dsimp only
  split <;> omega

/-- A single precision number, the significand times a power of two. -/
structure Single where
  negative : Bool
  /-- Zero, or 24 bits of which the topmost is set. -/
  significand : Nat
  exponent : Int
deriving DecidableEq

namespace Single

def zero : Single := ⟨false, 0, 0⟩

/-- The topmost bit of a significand. -/
def topBit : Nat := 0x800000

/-- A quotient of naturals divided by a power of two, as another one. -/
def scaled (numerator denominator : Nat) (exponent : Int) : Nat × Nat :=
  if 0 ≤ exponent then (numerator, denominator <<< exponent.toNat)
  else (numerator <<< (-exponent).toNat, denominator)

/-- The power of two for which a positive quotient divided by it has 24 bits before the point. -/
def scaleOf (numerator denominator : Nat) : Int :=
  let guess : Int := (numerator.log2 : Int) - denominator.log2 - 23
  let (top, bottom) := scaled numerator denominator guess
  if topBit ≤ top / bottom then guess else guess - 1

/-- The single precision number nearest to a quotient of naturals within the normal range, a tie
going to the even significand. -/
def nearest (negative : Bool) (numerator denominator : Nat) : Single :=
  if numerator = 0 then zero
  else
    let exponent := scaleOf numerator denominator
    let (top, bottom) := scaled numerator denominator exponent
    let significand := roundEven top bottom
    if significand < 2 * topBit then ⟨negative, significand, exponent⟩
    else ⟨negative, topBit, exponent + 1⟩

/-- An integer divided by a positive single precision number. -/
def quotient (dividend : Int) (divisor : Single) : Single :=
  let (top, bottom) := scaled dividend.natAbs divisor.significand divisor.exponent
  nearest (decide (dividend < 0)) top bottom

/-- The 32 bits of a number: the sign, the exponent with an offset of 127, and the significand
without its topmost bit. -/
def bits (number : Single) : Nat :=
  let sign := if number.negative then 1 <<< 31 else 0
  if number.significand = 0 then sign
  else sign + (number.exponent + 150).toNat * topBit + (number.significand - topBit)

def text (number : Single) : String :=
  let (top, bottom) := scaled (10 * number.significand) 1 (-number.exponent)
  let tenths := roundEven top bottom
  (if number.negative then "-" else "") ++ toString (tenths / 10) ++ "." ++
    toString (tenths % 10)

end Single

end Edid
