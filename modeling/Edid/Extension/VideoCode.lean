/-
**Video identification codes.** A CTA-861 video data block lists formats by number. Only the
common ones have a resolution here; every other code is left out.
-/

import Edid.Resolution

namespace Edid.VideoCode

/-- The resolution of a code, for the common formats. -/
def resolution? (code : UInt8) : Option Resolution :=
  match code with
  | 1 => some (.progressive 640 480)
  | 2 | 3 => some (.progressive 720 480)
  | 4 | 19 => some (.progressive 1280 720)
  | 5 | 20 => some (.interlacedArea 1920 1080)
  | 16 | 31 => some (.progressive 1920 1080)
  | 17 | 18 => some (.progressive 720 576)
  | _ => none

/-- The code of a short video descriptor, whose topmost bit only marks a native format. -/
def ofDescriptor (descriptor : UInt8) : UInt8 := descriptor &&& 0x7F

end Edid.VideoCode
