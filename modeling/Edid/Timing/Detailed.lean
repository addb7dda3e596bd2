/-
**Detailed timings.** A slot whose first two bytes are not both zero opens with a pixel clock and
an active area of twelve bits each way, of which the upper four share a byte with the blanking.
A slot counts as a source of resolutions when its clock runs and its area is plausible, since a
display descriptor read as a timing gives tiny or huge areas.
-/

import Edid.Reading
import Edid.Slot

namespace Edid

/-- The leading fields of a detailed timing. -/
structure DetailedTiming where
  /-- The pixel clock in units of 10 kHz. -/
  clock : UInt16
  width : UInt16
  height : UInt16
deriving DecidableEq

namespace DetailedTiming

/-- Twelve bits: a low byte under the upper nibble of a shared one. -/
def twelveBits (low shared : UInt8) : UInt16 :=
  (shared.toUInt16 &&& 0xF0) <<< 4 ||| low.toUInt16

def ofRecord (record : SlotRecord) : DetailedTiming :=
  { clock := Field.word (record.byte 1) (record.byte 0)
    width := twelveBits (record.byte 2) (record.byte 4)
    height := twelveBits (record.byte 5) (record.byte 7) }

/-- The pixel clock in whole MHz, rounded down. -/
def megahertz (timing : DetailedTiming) : UInt16 := timing.clock / 100

/-- Whether the slot holds no timing, which a clock of zero says. -/
def isUnused (timing : DetailedTiming) : Bool := timing.clock == 0

/-- Whether the area can be that of a display: more than 300 by 200, and less than 8000 each
way. -/
def isPlausible (timing : DetailedTiming) : Bool :=
  decide (300 < timing.width ∧ timing.width < 8000 ∧ 200 < timing.height ∧ timing.height < 8000)

def resolution (timing : DetailedTiming) : Resolution :=
  .progressive timing.width timing.height

def text (timing : DetailedTiming) : String :=
  "Clock " ++ toString timing.megahertz.toNat ++ " MHz, Active Pixels " ++
    toString timing.width.toNat ++ "x" ++ toString timing.height.toNat

/-- The step of one slot: an offer, or a trace of why there is none. -/
def slotStep (offset : Nat) (timing : DetailedTiming) : Step :=
  let place := "Descriptor slot 0x" ++ Hexadecimal.padded 2 offset
  if timing.isUnused then .note .trace (place ++ " holds no timing")
  else if timing.isPlausible then .offer timing.resolution
  else .note .trace (place ++ ": rejecting " ++ toString timing.width.toNat ++ "x" ++
    toString timing.height.toNat)

/-- Reads the slots at the given offsets, up to the first one that does not fit. -/
def readingAt (bytes : Bytes) : List Nat → Reading
  | [] => .complete []
  | offset :: rest =>
      match Slot.fetch bytes offset with
      | .error failure => .failed failure
      | .ok slot =>
          (Reading.complete [slotStep offset (ofRecord slot.record)]).andThen (readingAt bytes rest)

def reading (bytes : Bytes) : Reading := readingAt bytes Slot.offsets

end DetailedTiming

end Edid
