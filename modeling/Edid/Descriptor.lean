/-
**Descriptors.** A slot is told apart by its first four bytes, read as one number. A display
descriptor has three zero bytes and then a tag, so the number is the tag itself; a detailed timing
begins with its clock and lies far above all tags. A number that is no known tag is a timing.

* `value_inspectAll`: inspecting slots classifies each of them, in order, whatever is logged.
-/

import Edid.Log
import Edid.Timing.Detailed

namespace Edid

/-- The rates a display accepts. -/
structure RangeLimits where
  /-- The least field rate in Hz. -/
  verticalMin : UInt8
  verticalMax : UInt8
  /-- The least line rate in kHz. -/
  horizontalMin : UInt8
  horizontalMax : UInt8
  /-- The greatest pixel clock in MHz. -/
  maxClock : UInt16
deriving DecidableEq

namespace RangeLimits

/-- Reads a slot as range limits; the clock is stored in tens of MHz. -/
def ofRecord (record : SlotRecord) : RangeLimits :=
  { verticalMin := record.byte 5
    verticalMax := record.byte 6
    horizontalMin := record.byte 7
    horizontalMax := record.byte 8
    maxClock := (record.byte 9).toUInt16 * 10 }

def text (limits : RangeLimits) : String :=
  "Field Rate " ++ toString limits.verticalMin.toNat ++ "-" ++
    toString limits.verticalMax.toNat ++ " Hz vertical, " ++
    toString limits.horizontalMin.toNat ++ "-" ++ toString limits.horizontalMax.toNat ++
    " kHz horizontal, Max clock: " ++ toString limits.maxClock.toNat ++ " MHz"

end RangeLimits

/-- What a descriptor slot says. -/
inductive Descriptor where
  | serialNumber (text : String)
  | unspecifiedText (text : String)
  | rangeLimits (limits : RangeLimits)
  | monitorName (text : String)
  | whitePoint (record : SlotRecord)
  | standardTimings (record : SlotRecord)
  | manufacturerSpecific (tag : UInt8) (record : SlotRecord)
  | detailedTiming (timing : DetailedTiming)
deriving DecidableEq

namespace Descriptor

/-! ### Texts of slots -/

/-- A byte as a character: ASCII for itself, any other byte as the replacement character. -/
def character (byte : UInt8) : Char :=
  if byte < 0x80 then Char.ofNat byte.toNat else '\uFFFD'

/-- Whether a character is trimmed at the ends of a text: a blank or a control character. -/
def isPadding (character : Char) : Bool := decide (character.toNat ≤ 0x20)

def trimmed (text : List Char) : List Char :=
  ((text.dropWhile isPadding).reverse.dropWhile isPadding).reverse

def payload (record : SlotRecord) : Bytes := record.toList.drop 4

def characters (record : SlotRecord) : List Char := trimmed ((payload record).map character)

def textOf (record : SlotRecord) : String := String.ofList (characters record)

/-! ### Kinds of slots -/

/-- The first four bytes of a slot as one number, the first byte highest. -/
def typeCode (record : SlotRecord) : UInt32 :=
  Field.doubleWord (record.byte 0) (record.byte 1) (record.byte 2) (record.byte 3)

def serialNumberTag : UInt32 := 0xFF

def unspecifiedTextTag : UInt32 := 0xFE

def rangeLimitsTag : UInt32 := 0xFD

def monitorNameTag : UInt32 := 0xFC

def whitePointTag : UInt32 := 0xFB

/-- The number of a descriptor with standard timings. -/
def standardTimingsTag : UInt32 := 0xFA

def lastManufacturerTag : UInt32 := 0x0F

def ofRecord (record : SlotRecord) : Descriptor :=
  let code := typeCode record
  if code = serialNumberTag then serialNumber (textOf record)
  else if code = unspecifiedTextTag then unspecifiedText (textOf record)
  else if code = rangeLimitsTag then rangeLimits (.ofRecord record)
  else if code = monitorNameTag then monitorName (textOf record)
  else if code = whitePointTag then whitePoint record
  else if code = standardTimingsTag then standardTimings record
  else if code ≤ lastManufacturerTag then manufacturerSpecific (record.byte 3) record
  else detailedTiming (.ofRecord record)

/-- What a slot says, with a trace of its number. -/
def inspect (record : SlotRecord) : Logged Descriptor := do
  Logged.note .trace ("Descriptor type 0x" ++ Hexadecimal.padded 8 (typeCode record).toNat)
  return ofRecord record

/-! ### Descriptors in the report -/

def label : Descriptor → String
  | serialNumber _ => "Serial Number"
  | unspecifiedText _ => "Unspecified Text"
  | rangeLimits _ => "Range Limits"
  | monitorName _ => "Monitor Name"
  | whitePoint _ => "White Point Data"
  | standardTimings _ => "Standard Timing ID"
  | manufacturerSpecific _ _ => "Manufacturer Data"
  | detailedTiming _ => "Preferred Timing"

def text? : Descriptor → Option String
  | serialNumber text => some text
  | unspecifiedText text => some text
  | monitorName text => some text
  | _ => none

/-- The content of a descriptor in the report; what is kept as bytes is dumped. -/
def body : Descriptor → String
  | serialNumber text => text
  | unspecifiedText text => text
  | monitorName text => text
  | rangeLimits limits => limits.text
  | whitePoint record => Hexadecimal.dump record.toList
  | standardTimings record => Hexadecimal.dump record.toList
  | manufacturerSpecific _ record => Hexadecimal.dump record.toList
  | detailedTiming timing => timing.text

def line (descriptor : Descriptor) : String := descriptor.label ++ ": " ++ descriptor.body

end Descriptor

/-- What the slots of a buffer say, with a trace of each. -/
def inspectAll : List Slot → Logged (List Descriptor)
  | [] => pure []
  | slot :: rest => do
      let first ← Descriptor.inspect slot.record
      let others ← inspectAll rest
      return first :: others

/-- **Inspecting slots** classifies each of them, in order. -/
theorem value_inspectAll (slots : List Slot) :
    (inspectAll slots).value = slots.map fun slot => Descriptor.ofRecord slot.record := by
  induction slots with
  | nil => rfl
  | cons slot rest ih =>
      rw [List.map_cons, ← ih]
      rfl

end Edid
