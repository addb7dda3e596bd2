/-
**How heights are rounded.** The height that a shape gives to a width is computed with one division
of whole numbers. It is the integer nearest to the exact height, and the greater one of two that are
equally near, at every width and not only at those that a pair of bytes can name.

* `round_height`: the exact height, rounded as rational numbers are;
* `lines_le_lines`: a wider area is not lower;
* `heights_rounded_half_up`: these for every shape, and no result on the way is too large.
-/

import Mathlib.Algebra.Order.Round
import Mathlib.Data.Rat.Floor
import Mathlib.Tactic.FieldSimp
import Edid.Proofs.Timing.StandardTable

namespace Edid

namespace AspectRatio

variable (ratio : AspectRatio) (width : UInt16)

/-- **The exact height**, rounded to the nearest integer with halves rounded up. -/
theorem round_height :
    round ((width.toNat * ratio.sides.2 : ℚ) / ratio.sides.1) = (ratio.lines width).toNat := by
  have positive : (ratio.sides.1 : ℚ) ≠ 0 := Nat.cast_ne_zero.mpr ratio.sides_pos.ne'
  have doubled : (width.toNat * ratio.sides.2 : ℚ) / ratio.sides.1 + 1 / 2 =
      ((2 * width.toNat * ratio.sides.2 + ratio.sides.1 : ℕ) : ℚ) /
        ((2 * ratio.sides.1 : ℕ) : ℚ) := by
    push_cast
    field_simp
  rw [round_eq, doubled, Rat.floor_natCast_div_natCast, toNat_lines_eq]
  rfl

theorem lines_le_lines {narrow wide : UInt16} (wider : narrow ≤ wide) :
    ratio.lines narrow ≤ ratio.lines wide := by
  have widths : narrow.toNat ≤ wide.toNat := UInt16.le_iff_toNat_le.mp wider
  rw [UInt16.le_iff_toNat_le, toNat_lines_eq, toNat_lines_eq]
  gcongr

end AspectRatio

open AspectRatio

/-- **Heights are rounded half up.** A shape gives to every width the integer that is nearest to its
exact height, which is the width times the vertical side over the horizontal one, and the greater
integer where two are equally near. On the way to it no result is too large for its type, and the
height that comes out has room in its type as well. A wider area is never lower. -/
theorem heights_rounded_half_up (ratio : AspectRatio) :
    ratio.sides = (ratio.across.toNat, ratio.down.toNat) ∧
    (∀ (width : UInt16) (height : ℤ), height = (ratio.lines width).toNat ↔
      2 * width.toNat * ratio.sides.2 - ratio.sides.1 < 2 * ratio.sides.1 * height ∧
        2 * ratio.sides.1 * height ≤ 2 * width.toNat * ratio.sides.2 + ratio.sides.1) ∧
    (∀ width : UInt16,
      round ((width.toNat * ratio.sides.2 : ℚ) / ratio.sides.1) = (ratio.lines width).toNat) ∧
    (∀ width, ratio.linesChecked? width = some (ratio.lines width)) ∧
    ∀ narrow wide : UInt16, narrow ≤ wide → ratio.lines narrow ≤ ratio.lines wide :=
  ⟨ratio.sides_eq, ratio.eq_lines_iff, ratio.round_height, ratio.linesChecked?_eq,
    fun _ _ wider => ratio.lines_le_lines wider⟩

/-- At 16:9 the exact height of a width of 264 is half a line above 148. -/
theorem heights_rounded_half_up_tie :
    sixteenByNine.lines 264 = 149 ∧ sixteenByNine.linesChecked? 264 = some 149 ∧
      round ((264 * 9 : ℚ) / 16) = 149 ∧
      (264 : UInt16) ≤ 265 ∧ sixteenByNine.lines 264 ≤ sixteenByNine.lines 265 := by
  obtain ⟨-, nearest, rounded, unrefused, mono⟩ := heights_rounded_half_up .sixteenByNine
  have height : sixteenByNine.lines 264 = 149 := by
    have number := (nearest 264 149).mpr (by decide)
    exact UInt16.toNat_inj.mp (by exact_mod_cast number.symm)
  have wider : (264 : UInt16) ≤ 265 := by decide
  refine ⟨height, height ▸ unrefused 264, ?_, wider, mono 264 265 wider⟩
  have exact := rounded 264
  rw [height] at exact
  exact_mod_cast exact

/-- The widest area of all, at the flattest and at the tallest shape. -/
example : sixteenByNine.linesChecked? 65535 = some 36863 ∧
    fiveByFour.linesChecked? 65535 = some 52428 := by
  decide

end Edid
