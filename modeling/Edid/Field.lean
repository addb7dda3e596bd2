/-
**Field readers.** Every value of an EDID stands at a fixed offset with a fixed width. The readers
here are the only place that looks into a buffer; each of them answers `outOfRange` with the span
it wanted when the buffer does not hold all of it.

A span is inside the buffer when its start is and the bytes from there on are enough. The check
never adds offset and length, so there is no sum to overflow.

* `slice_of_fits`, `slice_of_overruns`: a span is read exactly when it ends within the buffer.
* `toList_array`: a record has the bytes of the span.
* `byteAt_of_lt`, `byteAt_of_le`: a byte is read exactly when it stands within the buffer.
-/

import Edid.ReadError

namespace Edid

/-- Raw bytes, in the order of the buffer. -/
abbrev Bytes := List UInt8

/-- The length of the base block and of each extension. -/
def blockLength : Nat := 128

namespace Field

/-- Fails unless the buffer holds at least `length` bytes. -/
def require (bytes : Bytes) (length : Nat) : Except ReadError Unit :=
  if bytes.length < length then .error (.outOfRange 0 length bytes.length) else .ok ()

/-- The `length` bytes from `start`. -/
def slice (bytes : Bytes) (start length : Nat) : Except ReadError Bytes :=
  let rest := bytes.drop start
  if start ≤ bytes.length ∧ length ≤ rest.length then .ok (rest.take length)
  else .error (.outOfRange start length bytes.length)

/-- The `size` bytes from `start`, as a record of that size. -/
def array (bytes : Bytes) (size start : Nat) : Except ReadError (Vector UInt8 size) :=
  match slice bytes start size with
  | .error failure => .error failure
  | .ok span =>
      if fits : span.length = size then .ok ⟨span.toArray, by simpa using fits⟩
      else .error (.outOfRange start size bytes.length)

/-- The byte at `offset`. -/
def byteAt (bytes : Bytes) (offset : Nat) : Except ReadError UInt8 :=
  match bytes[offset]? with
  | some byte => .ok byte
  | none => .error (.outOfRange offset 1 bytes.length)

/-- The byte at `offset`, as a two's complement number. -/
def signedAt (bytes : Bytes) (offset : Nat) : Except ReadError Int8 :=
  (byteAt bytes offset).map UInt8.toInt8

/-- Two bytes as one word, the first one high. -/
def word (high low : UInt8) : UInt16 :=
  high.toUInt16 <<< 8 ||| low.toUInt16

/-- Four bytes as one double word, the first one highest. -/
def doubleWord (first second third fourth : UInt8) : UInt32 :=
  (word first second).toUInt32 <<< 16 ||| (word third fourth).toUInt32

/-- The word at `offset`, low byte first. -/
def littleAt (bytes : Bytes) (offset : Nat) : Except ReadError UInt16 :=
  (array bytes 2 offset).map fun pair => word pair[1] pair[0]

/-- The word at `offset`, high byte first. -/
def bigAt (bytes : Bytes) (offset : Nat) : Except ReadError UInt16 :=
  (array bytes 2 offset).map fun pair => word pair[0] pair[1]

/-- The double word at `offset`, highest byte first. -/
def bigDoubleAt (bytes : Bytes) (offset : Nat) : Except ReadError UInt32 :=
  (array bytes 4 offset).map fun quad => doubleWord quad[0] quad[1] quad[2] quad[3]

/-! ### Spans -/

theorem slice_of_fits {bytes : Bytes} {start length : Nat} (fits : start + length ≤ bytes.length) :
    slice bytes start length = .ok ((bytes.drop start).take length) := by
  unfold slice
  rw [if_pos]
  rw [List.length_drop]
  omega

theorem slice_of_overruns {bytes : Bytes} {start length : Nat}
    (overruns : bytes.length < start + length) :
    slice bytes start length = .error (.outOfRange start length bytes.length) := by
  unfold slice
  rw [if_neg]
  rw [List.length_drop]
  omega

/-- **Records** have the bytes of their span, and its error. -/
theorem toList_array (bytes : Bytes) (size start : Nat) :
    (array bytes size start).map Vector.toList = slice bytes start size := by
  by_cases fits : start + size ≤ bytes.length
  · have long : ((bytes.drop start).take size).length = size := by
      rw [List.length_take, List.length_drop]
      omega
    unfold array
    rw [slice_of_fits fits]
    dsimp only
    rw [dif_pos long]
    rfl
  · unfold array
    rw [slice_of_overruns (by omega)]
    rfl

theorem byteAt_of_lt {bytes : Bytes} {offset : Nat} (inside : offset < bytes.length) :
    byteAt bytes offset = .ok bytes[offset] := by
  unfold byteAt
  rw [List.getElem?_eq_getElem inside]

theorem byteAt_of_le {bytes : Bytes} {offset : Nat} (outside : bytes.length ≤ offset) :
    byteAt bytes offset = .error (.outOfRange offset 1 bytes.length) := by
  unfold byteAt
  rw [List.getElem?_eq_none outside]

end Field

end Edid
