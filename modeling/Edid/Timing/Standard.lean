/-
**Standard timings.** Eight byte pairs at `0x26`, each either the unused marker or a width, a
shape and a refresh rate. A pair of bytes `(1, 1)` is the marker, whatever timing it would spell.
-/

import Edid.Field
import Edid.Reading
import Edid.Timing.AspectRatio

namespace Edid

/-- A timing given by its width and shape. -/
structure StandardTiming where
  width : UInt16
  aspect : AspectRatio
  refresh : UInt8
deriving DecidableEq

namespace StandardTiming

def offset : Nat := 0x26

def count : Nat := 8

/-- Reads a pair: the first byte is the width in characters of eight pixels less 31, the second
one holds the shape in its two topmost bits and the refresh rate less 60 in the others. -/
def decode (first second : UInt8) : Option StandardTiming :=
  if first = 1 ∧ second = 1 then none
  else some
    { width := (first.toUInt16 + 31) * 8
      aspect := .ofByte second
      refresh := (second &&& 0x3F) + 60 }

def height (timing : StandardTiming) : UInt16 := timing.aspect.lines timing.width

def resolution (timing : StandardTiming) : Resolution :=
  .progressive timing.width timing.height

def pairs : Bytes → List (UInt8 × UInt8)
  | first :: second :: rest => (first, second) :: pairs rest
  | _ => []

/-- The steps of one pair: nothing for the marker, otherwise a trace and an offer. -/
def pairSteps : UInt8 × UInt8 → List Step
  | (first, second) =>
      match decode first second with
      | none => []
      | some timing =>
          [ .note .trace ("Standard timing " ++ Hexadecimal.padded 2 first.toNat ++ " " ++
              Hexadecimal.padded 2 second.toNat ++ ": " ++ timing.resolution.label ++ " @ " ++
              toString timing.refresh.toNat ++ " Hz"),
            .offer timing.resolution ]

def reading (bytes : Bytes) : Reading :=
  match Field.slice bytes offset (2 * count) with
  | .error failure => .failed failure
  | .ok table => .complete ((pairs table).flatMap pairSteps)

end StandardTiming

end Edid
