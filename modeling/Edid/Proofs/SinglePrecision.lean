/-
**Single precision numbers as rationals.** A quotient becomes the number of 24 bits that is nearest
to it, and of two equally near ones the even one. Nothing else is known of the way it is found: the
scale leaves 24 bits before the point, and the quotient at this scale is rounded to an integer.

* `abs_roundEven_sub_le`, `abs_roundEven_sub_le_abs`, `even_roundEven_of_tie`: a rounded quotient;
* `scaleOf_bounds`: the scale of a quotient;
* `roundsTo_nearest`, `nearest_close`: the number that a quotient becomes, and how far it may be;
* `wordValue_bits`: a number is read back from its bits;
* `tenths_eq_of_abs_lt`: the decimal place that is printed.
-/

import Mathlib.Algebra.Order.Field.Power
import Mathlib.Data.Rat.Cast.Order
import Mathlib.Tactic.FieldSimp
import Mathlib.Tactic.Linarith
import Mathlib.Tactic.Positivity
import Mathlib.Tactic.Ring
import Edid.Single

namespace Edid

/-! ### Rounding to an integer -/

section Integers

variable {numerator denominator : Nat}

/-- **A rounded quotient** is within half a unit. -/
theorem abs_roundEven_sub_le (numerator : Nat) (positive : 0 < denominator) :
    |(roundEven numerator denominator : ℚ) - numerator / denominator| ≤ 1 / 2 := by
  have below := le_two_mul_roundEven numerator denominator positive
  have above := two_mul_roundEven_le numerator denominator positive
  have unit : (0 : ℚ) < denominator := by exact_mod_cast positive
  rw [← Nat.cast_le (α := ℚ)] at below above
  push_cast at below above
  rw [abs_sub_le_iff, sub_le_iff_le_add, sub_le_iff_le_add, ← sub_le_iff_le_add',
    le_div_iff₀ unit, div_le_iff₀ unit]
  constructor <;> linarith

/-- No other integer is nearer. -/
theorem abs_roundEven_sub_le_abs (numerator : Nat) (positive : 0 < denominator) (other : ℤ) :
    |(roundEven numerator denominator : ℚ) - numerator / denominator| ≤
      |(other : ℚ) - numerator / denominator| := by
  have half := abs_roundEven_sub_le numerator positive
  by_cases same : other = roundEven numerator denominator
  · rw [same, Int.cast_natCast]
  · have apart : (1 : ℚ) ≤ |(other : ℚ) - roundEven numerator denominator| := by
      exact_mod_cast Int.one_le_abs (sub_ne_zero.mpr same)
    have triangle := abs_sub_le (other : ℚ) (numerator / denominator)
      (roundEven numerator denominator)
    rw [abs_sub_comm ((numerator : ℚ) / denominator)] at triangle
    linarith

/-- An integer less than half a unit away is the rounded one. -/
theorem roundEven_eq_of_abs_lt (positive : 0 < denominator) {other : Nat}
    (close : |(other : ℚ) - numerator / denominator| < 1 / 2) :
    roundEven numerator denominator = other := by
  have half := abs_roundEven_sub_le numerator positive
  have triangle := abs_sub_le (roundEven numerator denominator : ℚ) (numerator / denominator) other
  rw [abs_sub_comm ((numerator : ℚ) / denominator)] at triangle
  have near : |((roundEven numerator denominator : ℤ) - (other : ℤ) : ℤ)| < 1 := by
    rw [← Int.cast_lt (R := ℚ)]
    push_cast
    linarith
  have same := Int.abs_lt_one_iff.mp near
  omega

/-- Two integers equally far from a quotient have it in their middle. -/
theorem add_mul_eq_of_tie (positive : 0 < denominator) {one other : ℤ} (different : other ≠ one)
    (tie : |(other : ℚ) - numerator / denominator| = |(one : ℚ) - numerator / denominator|) :
    (other + one) * denominator = 2 * numerator := by
  have unit : (denominator : ℚ) ≠ 0 := by exact_mod_cast positive.ne'
  have opposite : (other : ℚ) - numerator / denominator = -((one : ℚ) - numerator / denominator) :=
    (abs_eq_abs.mp tie).resolve_left fun same => different (by exact_mod_cast sub_left_inj.mp same)
  have twice : (other : ℚ) + one = 2 * (numerator / denominator) := by linarith
  rw [← mul_div_assoc, eq_div_iff unit] at twice
  exact_mod_cast twice

theorem eq_zero_of_mul_eq {offset rest : ℤ} (same : offset * denominator = rest)
    (nonneg : 0 ≤ rest) (small : rest < denominator) : offset = 0 := by
  have unit : (denominator : ℤ) ≠ 0 := (nonneg.trans_lt small).ne'
  rw [← Int.mul_ediv_cancel offset unit, same, Int.ediv_eq_zero_of_lt nonneg small]

/-- **A tie** goes to the even neighbour. -/
theorem even_roundEven_of_tie (positive : 0 < denominator) {other : ℤ}
    (different : other ≠ roundEven numerator denominator)
    (tie : |(other : ℚ) - numerator / denominator| =
      |(roundEven numerator denominator : ℚ) - numerator / denominator|) :
    roundEven numerator denominator % 2 = 0 := by
  have middle : (other + roundEven numerator denominator) * (denominator : ℤ) = 2 * numerator :=
    add_mul_eq_of_tie positive different tie
  have parts : (denominator : ℤ) * (numerator / denominator : ℕ) + (numerator % denominator : ℕ) =
      numerator := by
    exact_mod_cast Nat.div_add_mod numerator denominator
  have below : numerator % denominator < denominator := Nat.mod_lt numerator positive
  clear tie
  unfold roundEven at different middle ⊢
  dsimp only at different middle ⊢
  generalize numerator / denominator = whole at *
  generalize numerator % denominator = rest at *
  split at middle
  · next kept =>
    rw [if_pos kept] at different ⊢
    rcases kept with less | ⟨-, even⟩
    -- Nothing else is as near to a quotient that is nearer to the integer below it.
    · have offset : (other - whole) * (denominator : ℤ) = 2 * rest := by linarith
      exact absurd (sub_eq_zero.mp (eq_zero_of_mul_eq offset (by omega) (by omega))) different
    · exact even
  · next raised =>
    rw [if_neg raised] at different ⊢
    push Not at raised
    obtain ⟨more, odd⟩ := raised
    have offset : (other - whole) * (denominator : ℤ) = 2 * rest - denominator := by
      push_cast at middle
      linarith
    have same := eq_zero_of_mul_eq offset (by omega) (by omega)
    rw [same, zero_mul] at offset
    have uneven := odd (by omega)
    omega

end Integers

namespace Single

/-! ### Scales -/

theorem scaled_pos {numerator denominator : Nat} (positive : 0 < denominator) (exponent : Int) :
    0 < (scaled numerator denominator exponent).2 := by
  unfold scaled
  split
  · rw [Nat.shiftLeft_eq]
    positivity
  · exact positive

theorem scaled_eq (numerator denominator : Nat) (exponent : Int) :
    ((scaled numerator denominator exponent).1 : ℚ) / (scaled numerator denominator exponent).2 =
      numerator / denominator / 2 ^ exponent := by
  unfold scaled
  split
  · next up =>
    obtain ⟨power, rfl⟩ := Int.eq_ofNat_of_zero_le up
    rw [Int.toNat_natCast, Nat.shiftLeft_eq, zpow_natCast]
    push_cast
    rw [div_div]
  · next down =>
    obtain ⟨power, same⟩ := Int.eq_ofNat_of_zero_le (by omega : 0 ≤ -exponent)
    obtain rfl : exponent = -(power : ℤ) := by omega
    rw [neg_neg, Int.toNat_natCast, Nat.shiftLeft_eq, zpow_neg, zpow_natCast, div_inv_eq_mul]
    push_cast
    ring

theorem topBit_eq : (topBit : ℚ) = 2 ^ (23 : ℤ) := by norm_num [topBit]

variable {numerator denominator : Nat}

/-- A quotient by the binary logarithms of its parts. -/
theorem quotient_bounds (some : 0 < numerator) (positive : 0 < denominator) :
    (2 : ℚ) ^ ((numerator.log2 : ℤ) - denominator.log2 - 1) ≤ numerator / denominator ∧
      (numerator / denominator : ℚ) < 2 ^ ((numerator.log2 : ℤ) - denominator.log2 + 1) := by
  have logarithm {number : Nat} (positive : 0 < number) :
      (2 : ℚ) ^ (number.log2 : ℤ) ≤ number ∧ (number : ℚ) < 2 ^ (number.log2 + 1 : ℤ) := by
    have least := Nat.log2_self_le positive.ne'
    have greatest := Nat.lt_log2_self (n := number)
    exact ⟨by exact_mod_cast least, by exact_mod_cast greatest⟩
  obtain ⟨least, greatest⟩ := logarithm some
  obtain ⟨lower, upper⟩ := logarithm positive
  have unit : (0 : ℚ) < denominator := by exact_mod_cast positive
  rw [le_div_iff₀ unit, div_lt_iff₀ unit]
  constructor
  · calc (2 : ℚ) ^ ((numerator.log2 : ℤ) - denominator.log2 - 1) * denominator
        ≤ 2 ^ ((numerator.log2 : ℤ) - denominator.log2 - 1) * 2 ^ (denominator.log2 + 1 : ℤ) := by
          gcongr
      _ = 2 ^ (numerator.log2 : ℤ) := by
          rw [← zpow_add₀ two_ne_zero]
          ring_nf
      _ ≤ numerator := least
  · calc (numerator : ℚ) < 2 ^ (numerator.log2 + 1 : ℤ) := greatest
      _ = 2 ^ ((numerator.log2 : ℤ) - denominator.log2 + 1) * 2 ^ (denominator.log2 : ℤ) := by
          rw [← zpow_add₀ two_ne_zero]
          ring_nf
      _ ≤ 2 ^ ((numerator.log2 : ℤ) - denominator.log2 + 1) * denominator := by
          gcongr

/-- At a scale a quotient has its topmost bit or not. -/
theorem topBit_le_scaled_iff (numerator : Nat) (positive : 0 < denominator) (exponent : Int) :
    topBit ≤ (scaled numerator denominator exponent).1 /
        (scaled numerator denominator exponent).2 ↔
      (2 : ℚ) ^ (23 + exponent) ≤ numerator / denominator := by
  have bottom : (0 : ℚ) < (scaled numerator denominator exponent).2 := by
    exact_mod_cast scaled_pos positive exponent
  rw [Nat.le_div_iff_mul_le (scaled_pos positive _), ← Nat.cast_le (α := ℚ), Nat.cast_mul,
    ← le_div_iff₀ bottom, scaled_eq, le_div_iff₀ (by positivity), topBit_eq,
    ← zpow_add₀ two_ne_zero]

/-- **The scale of a quotient** leaves 24 bits before the point. -/
theorem scaleOf_bounds (some : 0 < numerator) (positive : 0 < denominator) :
    (topBit : ℚ) * 2 ^ scaleOf numerator denominator ≤ numerator / denominator ∧
      (numerator / denominator : ℚ) < 2 * topBit * 2 ^ scaleOf numerator denominator := by
  obtain ⟨below, above⟩ := quotient_bounds some positive
  have power (exponent : ℤ) : (topBit : ℚ) * 2 ^ exponent = 2 ^ (23 + exponent) := by
    rw [topBit_eq, zpow_add₀ two_ne_zero]
  have twice (exponent : ℤ) : 2 * (topBit : ℚ) * 2 ^ exponent = 2 ^ (23 + exponent + 1) := by
    rw [mul_assoc, power, zpow_add_one₀ two_ne_zero, mul_comm]
  have tested := topBit_le_scaled_iff numerator positive
    ((numerator.log2 : ℤ) - denominator.log2 - 23)
  rw [power, twice, scaleOf]
  dsimp only
  -- The logarithms leave two scales open; the topmost bit at the larger one tells which it is.
  split
  · next enough =>
    rw [add_sub_cancel] at tested ⊢
    exact ⟨tested.mp enough, above⟩
  · next short =>
    have lower : 23 + ((numerator.log2 : ℤ) - denominator.log2 - 23 - 1) =
        (numerator.log2 : ℤ) - denominator.log2 - 1 := by ring
    rw [add_sub_cancel] at tested
    rw [lower, sub_add_cancel]
    exact ⟨below, lt_of_not_ge (mt tested.mpr short)⟩

/-! ### The nearest number -/

/-- The size of a number, its sign apart. -/
def magnitude (number : Single) : ℚ := number.significand * 2 ^ number.exponent

/-- The significand of a quotient at its scale, which rounding may have brought to 25 bits. -/
def rounded (numerator denominator : Nat) : Nat :=
  roundEven (scaled numerator denominator (scaleOf numerator denominator)).1
    (scaled numerator denominator (scaleOf numerator denominator)).2

theorem nearest_of_pos (negative : Bool) (some : 0 < numerator) :
    nearest negative numerator denominator =
      if rounded numerator denominator < 2 * topBit then
        ⟨negative, rounded numerator denominator, scaleOf numerator denominator⟩
      else ⟨negative, topBit, scaleOf numerator denominator + 1⟩ :=
  if_neg some.ne'

theorem rounded_close (numerator : Nat) (positive : 0 < denominator) :
    |(rounded numerator denominator : ℚ) -
      numerator / denominator / 2 ^ scaleOf numerator denominator| ≤ 1 / 2 := by
  rw [← scaled_eq]
  exact abs_roundEven_sub_le _ (scaled_pos positive _)

theorem rounded_bounds (some : 0 < numerator) (positive : 0 < denominator) :
    topBit ≤ rounded numerator denominator ∧ rounded numerator denominator ≤ 2 * topBit := by
  obtain ⟨least, greatest⟩ := scaleOf_bounds some positive
  have unit : (0 : ℚ) < 2 ^ scaleOf numerator denominator := by positivity
  rw [← le_div_iff₀ unit] at least
  rw [← div_lt_iff₀ unit] at greatest
  obtain ⟨above, below⟩ := abs_sub_le_iff.mp (rounded_close numerator positive)
  rw [← Nat.lt_add_one_iff, ← Nat.lt_add_one_iff, ← Nat.cast_lt (α := ℚ), ← Nat.cast_lt (α := ℚ)]
  push_cast
  constructor <;> linarith

theorem magnitude_nearest (negative : Bool) (some : 0 < numerator) (positive : 0 < denominator) :
    (nearest negative numerator denominator).magnitude =
      rounded numerator denominator * 2 ^ scaleOf numerator denominator := by
  rw [nearest_of_pos negative some]
  split
  · rfl
  · next carried =>
    have full : rounded numerator denominator = 2 * topBit :=
      Nat.le_antisymm (rounded_bounds some positive).2 (Nat.le_of_not_lt carried)
    rw [magnitude, full, zpow_add_one₀ two_ne_zero]
    push_cast
    ring

/-- A number that a positive quantity is rounded to: it has 24 bits, no size with 24 bits is nearer,
and it is even if another one is as near. -/
structure RoundsTo (exact : ℚ) (number : Single) : Prop where
  normal : topBit ≤ number.significand ∧ number.significand < 2 * topBit
  nearest (significand : Nat) (exponent : Int) (fits : significand < 2 * topBit) :
    |number.magnitude - exact| ≤ |significand * 2 ^ exponent - exact|
  even (significand : Nat) (exponent : Int) (fits : significand < 2 * topBit)
    (different : significand * 2 ^ exponent ≠ number.magnitude)
    (tie : |significand * 2 ^ exponent - exact| = |number.magnitude - exact|) :
    number.significand % 2 = 0

/-- A size with 24 bits is a multiple of a scale, or below all quotients that have it. -/
theorem exists_or_lt {significand : Nat} (fits : significand < 2 * topBit) (exponent scale : Int) :
    (∃ count : ℤ, (significand * 2 ^ exponent : ℚ) = count * 2 ^ scale) ∨
      (significand * 2 ^ exponent : ℚ) < topBit * 2 ^ scale := by
  rcases le_or_gt scale exponent with coarse | fine
  · left
    obtain ⟨steps, same⟩ := Int.eq_ofNat_of_zero_le (sub_nonneg.mpr coarse)
    obtain rfl : exponent = steps + scale := by omega
    refine ⟨significand * 2 ^ steps, ?_⟩
    rw [zpow_add₀ two_ne_zero, zpow_natCast]
    push_cast
    ring
  · right
    calc (significand * 2 ^ exponent : ℚ) < (2 * topBit : ℕ) * 2 ^ exponent := by
          gcongr
      _ = topBit * 2 ^ (exponent + 1) := by
          rw [zpow_add_one₀ two_ne_zero]
          push_cast
          ring
      _ ≤ topBit * 2 ^ scale := by
          gcongr
          · norm_num
          · omega

theorem abs_mul_zpow_sub (count exact : ℚ) (scale : Int) :
    |count * 2 ^ scale - exact| = 2 ^ scale * |count - exact / 2 ^ scale| := by
  have unit : (0 : ℚ) < 2 ^ scale := by positivity
  have taken : count * 2 ^ scale - exact = 2 ^ scale * (count - exact / 2 ^ scale) := by
    field_simp
  rw [taken, abs_mul, abs_of_pos unit]

/-- Among the multiples of its scale the rounded one is nearest. -/
theorem rounded_nearest (numerator : Nat) (positive : 0 < denominator) (count : ℤ) :
    |(rounded numerator denominator : ℚ) * 2 ^ scaleOf numerator denominator -
        numerator / denominator| ≤
      |(count : ℚ) * 2 ^ scaleOf numerator denominator - numerator / denominator| := by
  rw [abs_mul_zpow_sub, abs_mul_zpow_sub, ← scaled_eq]
  exact mul_le_mul_of_nonneg_left
    (abs_roundEven_sub_le_abs _ (scaled_pos positive _) count) (by positivity)

/-- What is below all quotients of the scale is farther away. -/
theorem rounded_nearer (some : 0 < numerator) (positive : 0 < denominator) {size : ℚ}
    (below : size < topBit * 2 ^ scaleOf numerator denominator) :
    |(rounded numerator denominator : ℚ) * 2 ^ scaleOf numerator denominator -
        numerator / denominator| < |size - numerator / denominator| := by
  have least := (scaleOf_bounds some positive).1
  have corner := rounded_nearest numerator positive topBit
  rw [Int.cast_natCast, abs_of_nonpos (sub_nonpos.mpr least)] at corner
  rw [abs_of_nonpos (by linarith : size - numerator / denominator ≤ 0)]
  linarith

/-- **The nearest number of a quotient.** -/
theorem roundsTo_nearest (negative : Bool) (some : 0 < numerator) (positive : 0 < denominator) :
    RoundsTo (numerator / denominator) (nearest negative numerator denominator) where
  normal := by
    rw [nearest_of_pos negative some]
    split
    · next fits => exact ⟨(rounded_bounds some positive).1, fits⟩
    · exact ⟨le_refl _, (by decide : topBit < 2 * topBit)⟩
  nearest significand exponent fits := by
    rw [magnitude_nearest negative some positive]
    rcases exists_or_lt fits exponent (scaleOf numerator denominator) with ⟨count, same⟩ | below
    · rw [same]
      exact rounded_nearest numerator positive count
    · exact (rounded_nearer some positive below).le
  even significand exponent fits different tie := by
    rw [magnitude_nearest negative some positive] at different tie
    rcases exists_or_lt fits exponent (scaleOf numerator denominator) with ⟨count, same⟩ | below
    · rw [same] at different tie
      rw [abs_mul_zpow_sub, abs_mul_zpow_sub, ← scaled_eq] at tie
      have apart : count ≠ rounded numerator denominator := fun equal =>
        different (by rw [equal, Int.cast_natCast])
      have even := even_roundEven_of_tie (scaled_pos positive _) apart
        (mul_left_cancel₀ (by positivity) tie)
      rw [nearest_of_pos negative some]
      split
      · exact even
      · exact (by decide : topBit % 2 = 0)
    · exact absurd tie (rounded_nearer some positive below).ne'

/-- **The error of a quotient** is at most its 24th bit. -/
theorem nearest_close (negative : Bool) (some : 0 < numerator) (positive : 0 < denominator) :
    |(nearest negative numerator denominator).magnitude - numerator / denominator| ≤
      numerator / denominator / (2 * topBit) := by
  have bit : (topBit : ℚ) ≠ 0 := by norm_num [topBit]
  rw [magnitude_nearest negative some positive, abs_mul_zpow_sub]
  calc (2 : ℚ) ^ scaleOf numerator denominator *
        |(rounded numerator denominator : ℚ) -
          numerator / denominator / 2 ^ scaleOf numerator denominator|
      ≤ 2 ^ scaleOf numerator denominator * (1 / 2) := by
        gcongr
        exact rounded_close numerator positive
    _ = topBit * 2 ^ scaleOf numerator denominator / (2 * topBit) := by
        field_simp
    _ ≤ numerator / denominator / (2 * topBit) := by
        gcongr
        exact (scaleOf_bounds some positive).1

/-! ### Quotients of an integer -/

theorem scaled_fst_pos (some : 0 < numerator) (exponent : Int) :
    0 < (scaled numerator denominator exponent).1 := by
  unfold scaled
  split
  · exact some
  · rw [Nat.shiftLeft_eq]
    positivity

section Quotients

variable {dividend : Int} {divisor : Single}

theorem quotient_zero (divisor : Single) : quotient 0 divisor = zero := by
  have nothing : (scaled 0 divisor.significand divisor.exponent).1 = 0 := by
    unfold scaled
    split
    · rfl
    · exact Nat.zero_shiftLeft _
  exact if_pos nothing

theorem negative_quotient (some : dividend ≠ 0) :
    (quotient dividend divisor).negative = decide (dividend < 0) := by
  rw [quotient]
  dsimp only
  rw [nearest_of_pos _ (scaled_fst_pos (Int.natAbs_pos.mpr some) _)]
  split <;> rfl

theorem scaled_quotient (dividend : Int) (divisor : Single) :
    ((scaled dividend.natAbs divisor.significand divisor.exponent).1 : ℚ) /
        (scaled dividend.natAbs divisor.significand divisor.exponent).2 =
      dividend.natAbs / divisor.magnitude := by
  rw [scaled_eq, div_div, magnitude]

/-- **A quotient of an integer** is rounded once, from the exact one. -/
theorem roundsTo_quotient (some : dividend ≠ 0) (positive : 0 < divisor.significand) :
    RoundsTo (dividend.natAbs / divisor.magnitude) (quotient dividend divisor) := by
  rw [← scaled_quotient]
  exact roundsTo_nearest _ (scaled_fst_pos (Int.natAbs_pos.mpr some) _) (scaled_pos positive _)

theorem quotient_close (some : dividend ≠ 0) (positive : 0 < divisor.significand) :
    |(quotient dividend divisor).magnitude - dividend.natAbs / divisor.magnitude| ≤
      dividend.natAbs / divisor.magnitude / (2 * topBit) := by
  rw [← scaled_quotient]
  exact nearest_close _ (scaled_fst_pos (Int.natAbs_pos.mpr some) _) (scaled_pos positive _)

end Quotients

/-! ### Bits -/

/-- A number with its sign. -/
def value (number : Single) : ℚ :=
  if number.negative then -number.magnitude else number.magnitude

/-- The size of a number by the eight bits of its exponent and 23 of its significand, whose topmost
bit is left out unless no bit of the exponent is set. -/
def partsValue (field fraction : Nat) : ℚ :=
  if field = 0 then fraction * 2 ^ (-149 : ℤ) else (topBit + fraction) * 2 ^ (field - 150 : ℤ)

/-- What a word of 32 bits stands for, its topmost bit being the sign. -/
def wordValue (word : Nat) : ℚ :=
  if 256 * topBit ≤ word then -partsValue (word / topBit % 256) (word % topBit)
  else partsValue (word / topBit % 256) (word % topBit)

/-- The exponent of a number with 24 bits by its size. -/
theorem exponent_bounds {number : Single} {least greatest : Int}
    (normal : topBit ≤ number.significand ∧ number.significand < 2 * topBit)
    (above : (2 : ℚ) ^ least < number.magnitude) (below : number.magnitude < (2 : ℚ) ^ greatest) :
    least < 24 + number.exponent ∧ 23 + number.exponent < greatest := by
  have low : (2 : ℚ) ^ (23 + number.exponent) ≤ number.magnitude := by
    rw [zpow_add₀ two_ne_zero, ← topBit_eq, magnitude]
    gcongr
    exact normal.1
  have high : number.magnitude < (2 : ℚ) ^ (24 + number.exponent) := by
    have top : (2 : ℚ) ^ (24 : ℤ) = (2 * topBit : ℕ) := by norm_num [topBit]
    rw [zpow_add₀ two_ne_zero, top, magnitude]
    gcongr
    exact normal.2
  exact ⟨(zpow_lt_zpow_iff_right₀ one_lt_two).mp (above.trans high),
    (zpow_lt_zpow_iff_right₀ one_lt_two).mp (low.trans_lt below)⟩

/-- A number that has bits of its own: zero, or one in the normal range. -/
def Encodable (number : Single) : Prop :=
  number.significand = 0 ∨
    (topBit ≤ number.significand ∧ number.significand < 2 * topBit) ∧
      -149 ≤ number.exponent ∧ number.exponent ≤ 104

theorem exists_parts {number : Single} (encodable : number.Encodable) :
    ∃ field fraction, field < 256 ∧ fraction < topBit ∧
      number.bits = (if number.negative then 256 * topBit else 0) + field * topBit + fraction ∧
      partsValue field fraction = number.magnitude := by
  rcases encodable with zero | ⟨⟨least, greatest⟩, low, high⟩
  · refine ⟨0, 0, by decide, by decide, ?_, ?_⟩
    · rw [bits, if_pos zero]
      rfl
    · rw [partsValue, if_pos rfl, magnitude, zero, Nat.cast_zero, zero_mul, zero_mul]
  · obtain ⟨field, same⟩ := Int.eq_ofNat_of_zero_le (by omega : 0 ≤ number.exponent + 150)
    have bit : topBit = 8388608 := rfl
    refine ⟨field, number.significand - topBit, by omega, by omega, ?_, ?_⟩
    · rw [bits, if_neg (by omega), same, Int.toNat_natCast]
      rfl
    · rw [partsValue, if_neg (by omega), magnitude, Nat.cast_sub least, add_sub_cancel,
        (by omega : (field : ℤ) - 150 = number.exponent)]

/-- **A number is read back** from its bits, of which there are 32. -/
theorem wordValue_bits {number : Single} (encodable : number.Encodable) :
    number.bits < 512 * topBit ∧ wordValue number.bits = number.value := by
  obtain ⟨field, fraction, small, fits, word, parts⟩ := exists_parts encodable
  have cut (sign : Nat) (known : sign = 0 ∨ sign = 256 * topBit) :
      (sign + field * topBit + fraction) / topBit % 256 = field ∧
        (sign + field * topBit + fraction) % topBit = fraction ∧
        (256 * topBit ≤ sign + field * topBit + fraction ↔ sign = 256 * topBit) ∧
        sign + field * topBit + fraction < 512 * topBit := by
    unfold topBit at known fits ⊢
    omega
  have positive : 0 ≠ 256 * topBit := by decide
  rw [word, wordValue, value]
  cases number.negative with
  | false =>
      obtain ⟨high, low, sign, bound⟩ := cut 0 (Or.inl rfl)
      rw [if_neg Bool.false_ne_true, if_neg Bool.false_ne_true, high, low,
        if_neg (mt sign.mp positive), parts]
      exact ⟨bound, rfl⟩
  | true =>
      obtain ⟨high, low, sign, bound⟩ := cut (256 * topBit) (Or.inr rfl)
      rw [if_pos rfl, if_pos rfl, high, low, if_pos (sign.mpr rfl), parts]
      exact ⟨bound, rfl⟩

/-! ### Decimal places -/

/-- The tenths of a number that are printed. -/
def tenths (number : Single) : Nat :=
  roundEven (scaled (10 * number.significand) 1 (-number.exponent)).1
    (scaled (10 * number.significand) 1 (-number.exponent)).2

theorem text_eq (number : Single) : number.text =
    (if number.negative then "-" else "") ++ toString (number.tenths / 10) ++ "." ++
      toString (number.tenths % 10) :=
  rfl

theorem scaled_tenths (number : Single) :
    ((scaled (10 * number.significand) 1 (-number.exponent)).1 : ℚ) /
      (scaled (10 * number.significand) 1 (-number.exponent)).2 = 10 * number.magnitude := by
  rw [scaled_eq, zpow_neg, div_inv_eq_mul, magnitude]
  push_cast
  ring

/-- **A count of tenths** less than half of one away is the one that is printed. -/
theorem tenths_eq_of_abs_lt {number : Single} {count : Nat}
    (close : |(count : ℚ) - 10 * number.magnitude| < 1 / 2) : number.tenths = count := by
  rw [← scaled_tenths] at close
  exact roundEven_eq_of_abs_lt (scaled_pos Nat.one_pos _) close

end Single

end Edid
