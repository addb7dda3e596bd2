/-
**Aspect ratios.** A standard timing names its shape with two bits and leaves the number of lines
to be computed from the width, rounded to the nearest integer with halves rounded up.
-/

namespace Edid

/-- The shape of a standard timing. -/
inductive AspectRatio where
  | sixteenByTen
  | fourByThree
  | fiveByFour
  | sixteenByNine
deriving DecidableEq

namespace AspectRatio

/-- The shape that the two topmost bits of a byte name. -/
def ofByte (byte : UInt8) : AspectRatio :=
  match byte >>> 6 with
  | 0 => sixteenByTen
  | 1 => fourByThree
  | 2 => fiveByFour
  | _ => sixteenByNine

def across : AspectRatio → UInt32
  | sixteenByTen => 16
  | fourByThree => 4
  | fiveByFour => 5
  | sixteenByNine => 16

def down : AspectRatio → UInt32
  | sixteenByTen => 10
  | fourByThree => 3
  | fiveByFour => 4
  | sixteenByNine => 9

/-- The number of lines for a width, with halves rounded up. -/
def lines (ratio : AspectRatio) (width : UInt16) : UInt16 :=
  ((2 * width.toUInt32 * ratio.down + ratio.across) / (2 * ratio.across)).toUInt16

end AspectRatio

end Edid
