/-
**Sizes in inches.** A centimetre is no exact number of inches, an inch is no exact number in single
precision, and neither is the quotient of the two; then the quotient is cut to one decimal place.
None of this can be seen: a whole number of centimetres is far enough from the middle of two tenths
of an inch that the printed tenth is the one nearest to the exact size.

* `inches_close`: inches in single precision against exact ones;
* `nearest_tenth`: no exact size is in the middle of two tenths, or close to it;
* `tenths_inches`: the tenths that are printed are those of the exact size;
* `bits_inches`: what the bits of inches stand for;
* `sizes_to_nearest_tenth`: what is printed of any size.
-/

import Edid.PhysicalSize
import Edid.Proofs.SinglePrecision

namespace Edid.PhysicalSize

open Single

/-! ### One length -/

/-- An inch in single precision is a little less than the exact one. -/
theorem magnitude_centimetresPerInch : centimetresPerInch.magnitude = 10653532 / 4194304 := by
  have inch : centimetresPerInch = ⟨false, 10653532, -22⟩ := by decide +kernel
  rw [inch, magnitude]
  norm_num

theorem natAbs_toInt_le (centimetres : Int8) : centimetres.toInt.natAbs ≤ 128 := by
  have least := centimetres.le_toInt
  have greatest := centimetres.toInt_lt
  omega

section Inches

variable {centimetres : Int8}

theorem roundsTo_inches (some : centimetres.toInt ≠ 0) :
    RoundsTo (centimetres.toInt.natAbs / centimetresPerInch.magnitude) (inches centimetres) :=
  roundsTo_quotient some (by decide +kernel)

/-- **Inches in single precision** are off by the inch and by the quotient. -/
theorem inches_close (some : centimetres.toInt ≠ 0) :
    |(inches centimetres).magnitude - centimetres.toInt.natAbs / (254 / 100)| ≤
      centimetres.toInt.natAbs / 1000000 := by
  have rounded := quotient_close some
    (by decide +kernel : 0 < centimetresPerInch.significand)
  have size : (0 : ℚ) ≤ centimetres.toInt.natAbs := Nat.cast_nonneg _
  have bit : (topBit : ℚ) = 8388608 := rfl
  rw [magnitude_centimetresPerInch, bit, abs_le] at rounded
  obtain ⟨above, below⟩ := rounded
  rw [inches, abs_le]
  constructor <;> linarith

/-- **No middle of two tenths** is close to a whole number of centimetres. -/
theorem nearest_tenth (size : Nat) :
    |(roundEven (1000 * size) 254 : ℚ) - 10 * (size / (254 / 100))| ≤ 126 / 254 := by
  have below := le_two_mul_roundEven (1000 * size) 254 (by decide)
  have above := two_mul_roundEven_le (1000 * size) 254 (by decide)
  -- Half of the denominator is odd, and what it is compared with is even.
  have strictly : 1000 * size ≤ 254 * roundEven (1000 * size) 254 + 126 ∧
      254 * roundEven (1000 * size) 254 ≤ 1000 * size + 126 := by
    omega
  obtain ⟨least, greatest⟩ := strictly
  rw [← Nat.cast_le (α := ℚ)] at least greatest
  push_cast at least greatest
  rw [abs_le]
  constructor <;> linarith

/-- **The tenths that are printed** are those of the exact size. -/
theorem tenths_inches (centimetres : Int8) :
    (inches centimetres).tenths = roundEven (1000 * centimetres.toInt.natAbs) 254 := by
  by_cases none : centimetres.toInt = 0
  · rw [inches, none, quotient_zero]
    rfl
  · have exact := nearest_tenth centimetres.toInt.natAbs
    have close := inches_close none
    have small : (centimetres.toInt.natAbs : ℚ) ≤ 128 := by
      exact_mod_cast natAbs_toInt_le centimetres
    refine tenths_eq_of_abs_lt ?_
    rw [abs_le] at exact close
    rw [abs_lt]
    constructor <;> linarith

theorem negative_inches (centimetres : Int8) :
    (inches centimetres).negative = decide (centimetres.toInt < 0) := by
  by_cases none : centimetres.toInt = 0
  · rw [inches, none, quotient_zero]
    rfl
  · exact negative_quotient none

/-- Inches have bits of their own. -/
theorem encodable_inches (centimetres : Int8) : (inches centimetres).Encodable := by
  by_cases none : centimetres.toInt = 0
  · rw [inches, none, quotient_zero]
    exact Or.inl rfl
  · have normal := (roundsTo_inches none).normal
    have small : (centimetres.toInt.natAbs : ℚ) ≤ 128 := by
      exact_mod_cast natAbs_toInt_le centimetres
    have some : (1 : ℚ) ≤ centimetres.toInt.natAbs := by
      exact_mod_cast Int.natAbs_pos.mpr none
    obtain ⟨above, below⟩ := abs_le.mp (inches_close none)
    have greatest : (inches centimetres).magnitude < 2 ^ (6 : ℤ) := by
      norm_num
      linarith
    have least : 2 ^ (-2 : ℤ) < (inches centimetres).magnitude := by
      norm_num
      linarith
    obtain ⟨low, high⟩ := exponent_bounds normal least greatest
    exact Or.inr ⟨normal, by omega, by omega⟩

/-- **The bits of inches** are 32, and stand for the exact size but for a millionth of it. -/
theorem bits_inches (centimetres : Int8) :
    (inches centimetres).bits < 512 * topBit ∧
      |wordValue (inches centimetres).bits - centimetres.toInt / (254 / 100)| ≤
        centimetres.toInt.natAbs / 1000000 := by
  obtain ⟨bound, read⟩ := wordValue_bits (encodable_inches centimetres)
  refine ⟨bound, ?_⟩
  rw [read, value, negative_inches]
  by_cases none : centimetres.toInt = 0
  · rw [none, inches, none, quotient_zero]
    simp [magnitude, zero]
  have close := inches_close none
  by_cases below : centimetres.toInt < 0
  · have size : (centimetres.toInt.natAbs : ℚ) = -centimetres.toInt := by
      rw [Nat.cast_natAbs, abs_of_neg below, Int.cast_neg]
    rw [size] at close ⊢
    rw [if_pos (decide_eq_true below), ← abs_neg]
    convert close using 2
    ring
  · have size : (centimetres.toInt.natAbs : ℚ) = centimetres.toInt := by
      rw [Nat.cast_natAbs, abs_of_nonneg (not_lt.mp below)]
    rw [size] at close ⊢
    rw [if_neg (by simpa using below)]
    exact close

end Inches

/-! ### Both lengths -/

/-- A length of some tenths, with its sign. -/
def tenthsText (negative : Bool) (tenths : Nat) : String :=
  (if negative then "-" else "") ++ toString (tenths / 10) ++ "." ++ toString (tenths % 10)

/-- **A size is printed to the nearest tenth of an inch**, which no other tenth is as near to. -/
theorem sizes_to_nearest_tenth (size : PhysicalSize) :
    ∃ across down : Nat,
      |(across / 10 : ℚ) - size.horizontal.toInt.natAbs / (254 / 100)| < 1 / 20 ∧
      |(down / 10 : ℚ) - size.vertical.toInt.natAbs / (254 / 100)| < 1 / 20 ∧
      size.text = toString size.horizontal.toInt ++ " x " ++ toString size.vertical.toInt ++
        " cm (" ++ tenthsText (decide (size.horizontal.toInt < 0)) across ++ " x " ++
        tenthsText (decide (size.vertical.toInt < 0)) down ++ " in)" := by
  have near (length : Nat) :
      |(roundEven (1000 * length) 254 / 10 : ℚ) - length / (254 / 100)| < 1 / 20 := by
    have close := nearest_tenth length
    rw [abs_le] at close
    rw [abs_lt]
    constructor <;> linarith
  refine ⟨_, _, near _, near _, ?_⟩
  rw [text, Single.text_eq, Single.text_eq, tenths_inches, tenths_inches, negative_inches,
    negative_inches]
  rfl

end Edid.PhysicalSize
