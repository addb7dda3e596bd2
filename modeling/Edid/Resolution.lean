/-
**Resolutions.** An active pixel area, progressive or interlaced, and its label: the width, an
`x`, the height, and an `i` at the end of an interlaced one.
-/

namespace Edid

/-- An active pixel area. -/
structure Resolution where
  width : UInt16
  height : UInt16
  interlaced : Bool
deriving DecidableEq

namespace Resolution

def progressive (width height : UInt16) : Resolution := ⟨width, height, false⟩

def interlacedArea (width height : UInt16) : Resolution := ⟨width, height, true⟩

/-- The text a resolution is listed as, such as `1920x1080i`. -/
def label (resolution : Resolution) : String :=
  toString resolution.width.toNat ++ "x" ++ toString resolution.height.toNat ++
    if resolution.interlaced then "i" else ""

end Resolution

end Edid
