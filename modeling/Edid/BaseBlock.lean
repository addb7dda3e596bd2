/-
**The base block.** One reader for every field of the first 128 bytes. Each of them first checks
that the whole block is there, so a truncated buffer fails every reader alike and is never decoded
in part.
-/

import Edid.Descriptor
import Edid.Identity
import Edid.PhysicalSize
import Edid.Source

namespace Edid.BaseBlock

def header : Bytes := [0x00, 0xFF, 0xFF, 0xFF, 0xFF, 0xFF, 0xFF, 0x00]

def hasHeader (bytes : Bytes) : Bool := header.isPrefixOf bytes

/-- The buffer, if it holds the whole block. -/
def whole (bytes : Bytes) : Except ReadError Bytes := do
  Field.require bytes blockLength
  return bytes

def manufacturer (bytes : Bytes) : Except ReadError ManufacturerId := do
  return ⟨← Field.bigAt (← whole bytes) 0x08⟩

def product (bytes : Bytes) : Except ReadError ProductCode := do
  return ⟨← Field.littleAt (← whole bytes) 0x0A⟩

def serial (bytes : Bytes) : Except ReadError SerialCode := do
  return ⟨← Field.array (← whole bytes) 4 0x0C⟩

def week (bytes : Bytes) : Except ReadError UInt8 := do
  Field.byteAt (← whole bytes) 0x10

def year (bytes : Bytes) : Except ReadError Int := do
  return (← Field.byteAt (← whole bytes) 0x11).toNat + ManufactureDate.firstYear

def date (bytes : Bytes) : Except ReadError ManufactureDate := do
  return ⟨← week bytes, ← year bytes⟩

def version (bytes : Bytes) : Except ReadError Version := do
  let block ← whole bytes
  return ⟨← Field.signedAt block 0x12, ← Field.signedAt block 0x13⟩

/-- Whether the input is digital, which the topmost bit of its byte says. -/
def isDigital (bytes : Bytes) : Except ReadError Bool := do
  return (← Field.byteAt (← whole bytes) 0x14).toNat.testBit 7

def size (bytes : Bytes) : Except ReadError PhysicalSize := do
  let block ← whole bytes
  return ⟨← Field.signedAt block 0x15, ← Field.signedAt block 0x16⟩

def extensionCount (bytes : Bytes) : Except ReadError UInt8 := do
  Field.byteAt (← whole bytes) Extension.countOffset

def slots (bytes : Bytes) : Except ReadError (List Slot) := do
  Slot.fetchAll (← whole bytes)

/-! ### The model name -/

/-- Whether a character of a text parts its words. -/
def isWordBreak (character : Char) : Bool :=
  decide (character.toNat = 0x20 ∨ 0x09 ≤ character.toNat ∧ character.toNat ≤ 0x0D)

/-- The last word of a text, and nothing if there is none. -/
def lastWord (text : List Char) : List Char :=
  ((text.reverse.dropWhile isWordBreak).takeWhile fun character => !isWordBreak character).reverse

/-- The slot of the name, the first one with its number. -/
def nameSlot? (slots : List Slot) : Option Slot :=
  slots.find? fun slot => Descriptor.typeCode slot.record == Descriptor.monitorNameTag

/-- The last word of the display's name, if a slot has a name. -/
def modelName (bytes : Bytes) : Except ReadError (Option String) := do
  return (nameSlot? (← slots bytes)).map fun slot =>
    String.ofList (lastWord (Descriptor.characters slot.record))

/-! ### Resolutions and descriptors -/

/-- The area of the first slot read as a timing, whatever the slot holds. -/
def preferred (bytes : Bytes) : Except ReadError Resolution := do
  let slot ← Slot.fetch (← whole bytes) 0x36
  return (DetailedTiming.ofRecord slot.record).resolution

def resolutions (bytes : Bytes) : ExceptT ReadError Logged ResolutionSet := do
  Edid.resolutions (← whole bytes)

def descriptors (bytes : Bytes) : ExceptT ReadError Logged (List Descriptor) := do
  let slots ← slots bytes
  inspectAll slots

end Edid.BaseBlock
