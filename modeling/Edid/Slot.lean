/-
**Descriptor slots.** The base block has four slots of eighteen bytes each, at fixed offsets. A
slot holds either a detailed timing or a display descriptor; this module only fetches the bytes.
-/

import Edid.Field

namespace Edid

/-- The eighteen bytes of a descriptor slot. -/
abbrev SlotRecord := Vector UInt8 18

/-- The byte at a place of a slot; its places are those below eighteen. -/
def SlotRecord.byte (record : SlotRecord) (place : Nat) : UInt8 := record[place]?.getD 0

/-- A descriptor slot of a buffer. -/
structure Slot where
  offset : Nat
  record : SlotRecord
deriving DecidableEq

namespace Slot

def length : Nat := 18

/-- Where the four slots stand, in order. -/
def offsets : List Nat := [0x36, 0x48, 0x5A, 0x6C]

def fetch (bytes : Bytes) (offset : Nat) : Except ReadError Slot :=
  (Field.array bytes 18 offset).map fun record => ⟨offset, record⟩

/-- Fetches the four slots; the first one that does not fit decides the error. -/
def fetchAll (bytes : Bytes) : Except ReadError (List Slot) :=
  offsets.mapM (fetch bytes)

end Slot

end Edid
