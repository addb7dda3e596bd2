/-
**Established timings.** Two bytes at `0x23` flag one resolution per bit, the most significant bit
first; of the third byte only the topmost bit is read, and it stands for the last entry of the
table once more.
-/

import Edid.Field
import Edid.Reading

namespace Edid.Established

def offset : Nat := 0x23

/-- The resolution of each flag, the most significant bit of the first byte first. The last two
are the ones that displays are listed with, whatever the bits were once assigned to. -/
def table : List Resolution :=
  [ .progressive 720 400, .progressive 720 400, .progressive 640 480, .progressive 640 480,
    .progressive 640 480, .progressive 640 480, .progressive 800 600, .progressive 800 600,
    .progressive 800 600, .progressive 800 600, .progressive 832 624, .progressive 1024 768,
    .progressive 1024 768, .progressive 1024 768, .progressive 1280 1024,
    .progressive 1152 870 ]

/-- The members of `areas` whose flag is set, where the first one belongs to bit `top`, the next
one to the bit below it, and so on. -/
def flagged (flags : UInt8) : Nat → List Resolution → List Resolution
  | _, [] => []
  | top, area :: rest =>
      if flags.toNat.testBit top then area :: flagged flags (top - 1) rest
      else flagged flags (top - 1) rest

/-- The resolutions that three flag bytes advertise, in the order of the bits. -/
def areas (first second third : UInt8) : List Resolution :=
  flagged first 7 (table.take 8) ++ flagged second 7 (table.drop 8) ++
    flagged third 7 (table.drop 15)

def reading (bytes : Bytes) : Reading :=
  match Field.array bytes 3 offset with
  | .error failure => .failed failure
  | .ok flags =>
      let shown := Hexadecimal.padded 2 flags[0].toNat ++ " " ++
        Hexadecimal.padded 2 flags[1].toNat ++ " " ++ Hexadecimal.padded 2 flags[2].toNat
      .complete (.note .debug ("Established timings: " ++ shown) ::
        (areas flags[0] flags[1] flags[2]).map .offer)

end Edid.Established
