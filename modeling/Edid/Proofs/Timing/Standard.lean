/-
**Standard timings by pair.** A pair of bytes stands for a width that is a multiple of eight and
for the height that the shape gives to it, rounded to the nearest integer with halves rounded up;
the pair `(1, 1)` stands for nothing.

* `linesChecked?_eq`: on the way to a height no result is too large for its type;
* `toNat_lines`: the height in exact arithmetic;
* `resolution_decode`: the area of a pair in numbers;
* `reading_eq`: what the source offers are the areas of the eight pairs, in their order.
-/

import Mathlib.Data.List.Basic
import Edid.Proofs.Checked
import Edid.Proofs.Field
import Edid.Timing.Standard

namespace Edid

/-! ### Heights -/

namespace AspectRatio

theorem across_pos (ratio : AspectRatio) : 0 < ratio.across.toNat := by cases ratio <;> decide

theorem across_le (ratio : AspectRatio) : ratio.across.toNat ≤ 16 := by cases ratio <;> decide

theorem down_le_across (ratio : AspectRatio) : ratio.down.toNat ≤ ratio.across.toNat := by
  cases ratio <;> decide

/-- The height of a width by the steps of `lines`, refused when one of them has a result that is too
large for its type. -/
def linesChecked? (ratio : AspectRatio) (width : UInt16) : Option UInt16 := do
  let doubled ← Checked.times? 2 width.toUInt32
  let product ← Checked.times? doubled ratio.down
  let dividend ← Checked.plus? product ratio.across
  let divisor ← Checked.times? 2 ratio.across
  Checked.narrow? (dividend / divisor)

theorem toNat_of_linesChecked? {ratio : AspectRatio} {width height : UInt16}
    (found : ratio.linesChecked? width = some height) :
    height.toNat =
      (2 * width.toNat * ratio.down.toNat + ratio.across.toNat) / (2 * ratio.across.toNat) := by
  obtain ⟨doubled, first, found⟩ := Option.bind_eq_some_iff.mp found
  obtain ⟨product, second, found⟩ := Option.bind_eq_some_iff.mp found
  obtain ⟨dividend, third, found⟩ := Option.bind_eq_some_iff.mp found
  obtain ⟨divisor, fourth, found⟩ := Option.bind_eq_some_iff.mp found
  rw [Checked.toNat_of_narrow? found, UInt32.toNat_div, Checked.toNat_of_plus? third,
    Checked.toNat_of_times? second, Checked.toNat_of_times? first, Checked.toNat_of_times? fourth,
    UInt16.toNat_toUInt32]
  rfl

/-- No shape is taller than it is wide, which bounds the dividend of a height. -/
theorem dividend_le (ratio : AspectRatio) (width : UInt16) :
    2 * width.toNat * ratio.down.toNat + ratio.across.toNat ≤
      (2 * width.toNat + 1) * ratio.across.toNat := by
  rw [Nat.add_one_mul (2 * width.toNat)]
  exact Nat.add_le_add_right (Nat.mul_le_mul_left _ ratio.down_le_across) _

theorem dividend_lt (ratio : AspectRatio) (width : UInt16) :
    2 * width.toNat * ratio.down.toNat + ratio.across.toNat < UInt32.size := by
  have narrow := width.toNat_lt
  calc 2 * width.toNat * ratio.down.toNat + ratio.across.toNat
      ≤ (2 * width.toNat + 1) * ratio.across.toNat := ratio.dividend_le width
    _ ≤ 131071 * 16 := Nat.mul_le_mul (by omega) ratio.across_le
    _ < UInt32.size := by decide

theorem quotient_lt (ratio : AspectRatio) (width : UInt16) :
    (2 * width.toNat * ratio.down.toNat + ratio.across.toNat) / (2 * ratio.across.toNat) <
      UInt16.size := by
  have narrow := width.toNat_lt
  have positive := ratio.across_pos
  refine (Nat.div_lt_iff_lt_mul (by omega)).mpr ?_
  calc 2 * width.toNat * ratio.down.toNat + ratio.across.toNat
      ≤ (2 * width.toNat + 1) * ratio.across.toNat := ratio.dividend_le width
    _ < (65536 * 2) * ratio.across.toNat := Nat.mul_lt_mul_of_pos_right (by omega) positive
    _ = UInt16.size * (2 * ratio.across.toNat) := Nat.mul_assoc _ _ _

/-- **No result is too large** on the way from a width to its height. -/
theorem linesChecked?_eq (ratio : AspectRatio) (width : UInt16) :
    ratio.linesChecked? width = some (ratio.lines width) := by
  have small := ratio.dividend_lt width
  have doubled : Checked.times? 2 width.toUInt32 = some (2 * width.toUInt32) := by
    apply Checked.times?_of_lt
    show 2 * width.toNat < UInt32.size
    have narrow := width.toNat_lt
    unfold UInt32.size
    omega
  have twice : (2 * width.toUInt32).toNat = 2 * width.toNat := Checked.toNat_of_times? doubled
  have product : Checked.times? (2 * width.toUInt32) ratio.down =
      some (2 * width.toUInt32 * ratio.down) := by
    apply Checked.times?_of_lt
    rw [twice]
    exact Nat.lt_of_le_of_lt (Nat.le_add_right _ _) small
  have dividend : Checked.plus? (2 * width.toUInt32 * ratio.down) ratio.across =
      some (2 * width.toUInt32 * ratio.down + ratio.across) := by
    apply Checked.plus?_of_lt
    rw [Checked.toNat_of_times? product, twice]
    exact small
  have divisor : Checked.times? 2 ratio.across = some (2 * ratio.across) := by
    cases ratio <;> rfl
  have height : Checked.narrow? ((2 * width.toUInt32 * ratio.down + ratio.across) /
      (2 * ratio.across)) = some (ratio.lines width) := by
    apply Checked.narrow?_of_lt
    rw [UInt32.toNat_div, Checked.toNat_of_plus? dividend, Checked.toNat_of_times? product, twice,
      Checked.toNat_of_times? divisor]
    exact ratio.quotient_lt width
  simp only [linesChecked?, doubled, product, dividend, divisor, height, Option.bind_eq_bind,
    Option.bind_some]

/-- **The height of a width**: the product over the ratio, rounded half up, without overflow. -/
theorem toNat_lines (ratio : AspectRatio) (width : UInt16) :
    (ratio.lines width).toNat =
      (2 * width.toNat * ratio.down.toNat + ratio.across.toNat) / (2 * ratio.across.toNat) :=
  toNat_of_linesChecked? (ratio.linesChecked?_eq width)

/-- The terms of the shape that the two topmost bits of a byte name, across and down. -/
def terms (second : Nat) : Nat × Nat :=
  match second / 64 with
  | 0 => (16, 10)
  | 1 => (4, 3)
  | 2 => (5, 4)
  | _ => (16, 9)

theorem toNat_shiftRight_six (byte : UInt8) : (byte >>> 6).toNat = byte.toNat / 64 := by
  rw [UInt8.toNat_shiftRight]
  exact Nat.shiftRight_eq_div_pow byte.toNat 6

/-- The two topmost bits of a byte are one of four numbers. -/
theorem shiftRight_six_cases (byte : UInt8) :
    byte >>> 6 = 0 ∨ byte >>> 6 = 1 ∨ byte >>> 6 = 2 ∨ byte >>> 6 = 3 := by
  have small := byte.toNat_lt
  simp only [← UInt8.toNat_inj, toNat_shiftRight_six]
  show byte.toNat / 64 = 0 ∨ byte.toNat / 64 = 1 ∨ byte.toNat / 64 = 2 ∨ byte.toNat / 64 = 3
  omega

theorem terms_ofByte (byte : UInt8) :
    ((ofByte byte).across.toNat, (ofByte byte).down.toNat) = terms byte.toNat := by
  unfold ofByte terms
  rw [← toNat_shiftRight_six]
  rcases shiftRight_six_cases byte with zero | one | two | three
  · rw [zero]
    rfl
  · rw [one]
    rfl
  · rw [two]
    rfl
  · rw [three]
    rfl

end AspectRatio

/-! ### Pairs -/

namespace StandardTiming

/-- The area of a pair in numbers; nothing for the marker. -/
def pairArea? (first second : Nat) : Option Resolution :=
  if first = 1 ∧ second = 1 then none
  else
    let width := (first + 31) * 8
    let (across, down) := AspectRatio.terms second
    some (.progressive (.ofNat width) (.ofNat ((2 * width * down + across) / (2 * across))))

/-- The areas of the eight pairs of a buffer, without the unused ones. -/
def tableAreas (bytes : Bytes) : List Resolution :=
  (List.range 8).filterMap fun place =>
    pairArea? (octet bytes (0x26 + 2 * place)) (octet bytes (0x26 + 2 * place + 1))

theorem tableAreas_congr {first second : Bytes}
    (same : ∀ offset, 0x26 ≤ offset → offset < 0x36 → octet first offset = octet second offset) :
    tableAreas first = tableAreas second := by
  refine List.filterMap_congr fun place member => ?_
  have inside : place < 8 := List.mem_range.mp member
  rw [same (0x26 + 2 * place) (by omega) (by omega),
    same (0x26 + 2 * place + 1) (by omega) (by omega)]

theorem toNat_width (first : UInt8) :
    ((first.toUInt16 + 31) * 8).toNat = (first.toNat + 31) * 8 := by
  have small := first.toNat_lt
  rw [UInt16.toNat_mul, UInt16.toNat_add, UInt8.toNat_toUInt16]
  show (first.toNat + 31) % 2 ^ 16 * 8 % 2 ^ 16 = _
  omega

/-- **The area of a pair** in numbers. -/
theorem resolution_decode (first second : UInt8) :
    (decode first second).map resolution = pairArea? first.toNat second.toNat := by
  have marker : (first = 1 ∧ second = 1) ↔ (first.toNat = 1 ∧ second.toNat = 1) := by
    rw [← UInt8.toNat_inj, ← UInt8.toNat_inj]
    rfl
  unfold decode pairArea?
  by_cases unused : first = 1 ∧ second = 1
  · rw [if_pos unused, if_pos (marker.mp unused)]
    rfl
  · rw [if_neg unused, if_neg fun both => unused (marker.mpr both), Option.map_some]
    have width : (first.toUInt16 + 31) * 8 = .ofNat ((first.toNat + 31) * 8) := by
      rw [← toNat_width, UInt16.ofNat_toNat]
    have height : (AspectRatio.ofByte second).lines ((first.toUInt16 + 31) * 8) =
        .ofNat ((2 * ((first.toNat + 31) * 8) * (AspectRatio.terms second.toNat).2 +
          (AspectRatio.terms second.toNat).1) / (2 * (AspectRatio.terms second.toNat).1)) := by
      rw [← AspectRatio.terms_ofByte, ← toNat_width, ← AspectRatio.toNat_lines, UInt16.ofNat_toNat]
    show some (Resolution.progressive _ ((AspectRatio.ofByte second).lines _)) = _
    rw [height, width]

theorem offered_pairSteps (first second : UInt8) :
    (pairSteps (first, second)).filterMap Step.offered? =
      (pairArea? first.toNat second.toNat).toList := by
  rw [← resolution_decode, pairSteps]
  cases decode first second <;> rfl

theorem pairs_eq_map (table : Bytes) :
    pairs table = (List.range (table.length / 2)).map fun place =>
      (table.getD (2 * place) 0, table.getD (2 * place + 1) 0) := by
  induction table using pairs.induct with
  | case1 first second rest ih =>
      have half : (first :: second :: rest).length / 2 = rest.length / 2 + 1 := by
        simp only [List.length_cons]
        omega
      rw [pairs, ih, half, List.range_succ_eq_map, List.map_cons, List.map_map]
      rfl
  | case2 table single =>
      cases table with
      | nil => rfl
      | cons first rest =>
          cases rest with
          | nil => simp [pairs]
          | cons second rest => exact absurd rfl (single first second rest)

/-- **What the table offers**: the source is read to its end, and offers the areas of the pairs
that are used. -/
theorem reading_eq {bytes : Bytes} (long : 0x36 ≤ bytes.length) :
    (reading bytes).failure = none ∧ (reading bytes).offers = tableAreas bytes := by
  have fits : offset + 2 * count ≤ bytes.length := long
  have length : ((bytes.drop offset).take (2 * count)).length / 2 = 8 := by
    rw [List.length_take_of_le]
    · rfl
    · rw [List.length_drop]
      omega
  have entry : ∀ index < 16, (((bytes.drop offset).take (2 * count)).getD index 0).toNat =
      octet bytes (0x26 + index) := by
    intro index inside
    have kept : index < 2 * count := inside
    rw [octet, List.getD_eq_getElem?_getD, List.getD_eq_getElem?_getD,
      List.getElem?_take_of_lt kept, List.getElem?_drop]
    rfl
  unfold reading tableAreas
  rw [Field.slice_of_fits fits]
  refine ⟨rfl, ?_⟩
  show ((pairs _).flatMap pairSteps).filterMap Step.offered? = _
  rw [pairs_eq_map, length, List.flatMap_map, List.filterMap_flatMap,
    List.filterMap_eq_flatMap_toList]
  refine List.flatMap_congr fun place member => ?_
  have inside : place < 8 := List.mem_range.mp member
  rw [offered_pairSteps, entry (2 * place) (by omega), entry (2 * place + 1) (by omega),
    Nat.add_assoc]

end StandardTiming

end Edid
