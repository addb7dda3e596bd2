/-
**Fields as numbers.** What the readers give is described by the numbers of the bytes they read:
`octet bytes offset` is the byte at an offset as a number, and zero past the end. A reader of a
span that fits succeeds, and the bytes of its result are those octets.

* `octet_overwrite`: the octets of a buffer that is written to;
* `byteAt_eq_octet`: a byte within the buffer;
* `slice_overwrite`, `byteAt_overwrite`: a span that is written, and a byte of it;
* `exists_array_of_fits`, `array_of_fits`, `array_of_overruns`: a record within the buffer, and one
  that is not;
* `toNat_word`, `toNat_doubleWord`: the number of a word, its first byte counting 256, and that of
  a double word;
* `bigAt_of_fits`, `littleAt_of_fits`: a word within the buffer, in either byte order.
-/

import Mathlib.Data.Nat.Bitwise
import Edid.Field

namespace Edid

/-- The byte at an offset as a number, and zero past the end of the buffer. -/
def octet (bytes : Bytes) (offset : Nat) : Nat := (bytes.getD offset 0).toNat

theorem octet_lt (bytes : Bytes) (offset : Nat) : octet bytes offset < 256 := UInt8.toNat_lt _

theorem toNat_ofNat_octet (bytes : Bytes) (offset : Nat) :
    (UInt8.ofNat (octet bytes offset)).toNat = octet bytes offset := by
  rw [UInt8.toNat_ofNat', Nat.mod_eq_of_lt (octet_lt bytes offset)]

theorem octet_take {bytes : Bytes} {length offset : Nat} (kept : offset < length) :
    octet (bytes.take length) offset = octet bytes offset := by
  unfold octet
  rw [List.getD_eq_getElem?_getD, List.getD_eq_getElem?_getD, List.getElem?_take_of_lt kept]

/-- Buffers of one length have the same byte where they have the same octet. -/
theorem getElem?_eq_of_octet {first second : Bytes} (length : first.length = second.length)
    {offset : Nat} (same : octet first offset = octet second offset) :
    first[offset]? = second[offset]? := by
  rcases Nat.lt_or_ge offset first.length with inside | outside
  · have within : offset < second.length := length ▸ inside
    rw [octet, octet, List.getD_eq_getElem _ _ inside, List.getD_eq_getElem _ _ within] at same
    rw [List.getElem?_eq_getElem inside, List.getElem?_eq_getElem within, UInt8.toNat_inj.mp same]
  · rw [List.getElem?_eq_none outside, List.getElem?_eq_none (length ▸ outside)]

/-! ### Buffers that are written to -/

/-- A buffer with other bytes from an offset on. -/
def overwrite (bytes : Bytes) (start : Nat) (content : Bytes) : Bytes :=
  bytes.take start ++ content ++ bytes.drop (start + content.length)

theorem length_overwrite {bytes content : Bytes} {start : Nat}
    (fits : start + content.length ≤ bytes.length) :
    (overwrite bytes start content).length = bytes.length := by
  simp only [overwrite, List.length_append, List.length_take, List.length_drop]
  omega

/-- **What is written** is read where it was written, and what stood there before anywhere else. -/
theorem octet_overwrite {bytes content : Bytes} {start : Nat}
    (fits : start + content.length ≤ bytes.length) (offset : Nat) :
    octet (overwrite bytes start content) offset =
      if start ≤ offset ∧ offset < start + content.length then octet content (offset - start)
      else octet bytes offset := by
  have front : (bytes.take start).length = start := List.length_take_of_le (by omega)
  unfold octet overwrite
  simp only [List.getD_eq_getElem?_getD]
  rw [List.append_assoc]
  rcases Nat.lt_or_ge offset start with early | late
  · rw [if_neg fun both => Nat.not_le_of_lt early both.1,
      List.getElem?_append_left (front.symm ▸ early), List.getElem?_take_of_lt early]
  · rw [List.getElem?_append_right (front.symm ▸ late), front]
    rcases Nat.lt_or_ge offset (start + content.length) with within | behind
    · rw [if_pos ⟨late, within⟩, List.getElem?_append_left (by omega)]
    · rw [if_neg fun both => Nat.not_lt_of_le behind both.2,
        List.getElem?_append_right (by omega), List.getElem?_drop]
      congr 3
      omega

namespace Field

theorem byteAt_eq_octet {bytes : Bytes} {offset : Nat} (inside : offset < bytes.length) :
    byteAt bytes offset = .ok (.ofNat (octet bytes offset)) := by
  rw [byteAt_of_lt inside, octet, List.getD_eq_getElem _ _ inside, UInt8.ofNat_toNat]

/-- **A record within the buffer** is read, and its bytes are the octets of its span. -/
theorem exists_array_of_fits {bytes : Bytes} {size start : Nat}
    (fits : start + size ≤ bytes.length) :
    ∃ record : Vector UInt8 size, array bytes size start = .ok record ∧
      ∀ (index : Nat) (inside : index < size),
        record[index].toNat = octet bytes (start + index) := by
  have long : ((bytes.drop start).take size).length = size := by
    rw [List.length_take, List.length_drop]
    omega
  refine ⟨⟨((bytes.drop start).take size).toArray, by simpa using long⟩, ?_, ?_⟩
  · unfold array
    rw [slice_of_fits fits]
    dsimp only
    rw [dif_pos long]
  · intro index inside
    have within : start + index < bytes.length := by omega
    rw [octet, List.getD_eq_getElem _ _ within]
    simp

/-- **The number of a word**: the first byte counts 256. -/
theorem toNat_word (high low : UInt8) : (word high low).toNat = 256 * high.toNat + low.toNat := by
  have small : high.toNat <<< 8 < 2 ^ 16 := by
    rw [Nat.shiftLeft_eq]
    have := high.toNat_lt
    omega
  have shifted : (high.toUInt16 <<< 8).toNat = high.toNat <<< 8 := by
    rw [UInt16.toNat_shiftLeft, UInt8.toNat_toUInt16]
    exact Nat.mod_eq_of_lt small
  rw [word, UInt16.toNat_or, shifted, UInt8.toNat_toUInt16,
    ← Nat.shiftLeft_add_eq_or_of_lt low.toNat_lt, Nat.shiftLeft_eq]
  omega

/-- **The number of a double word**: its first word counts 65536. -/
theorem toNat_doubleWord (first second third fourth : UInt8) :
    (doubleWord first second third fourth).toNat =
      16777216 * first.toNat + 65536 * second.toNat + 256 * third.toNat + fourth.toNat := by
  have high := toNat_word first second
  have low := toNat_word third fourth
  have small : (word first second).toNat <<< 16 < 2 ^ 32 := by
    rw [Nat.shiftLeft_eq]
    have := (word first second).toNat_lt
    omega
  have shifted :
      ((word first second).toUInt32 <<< 16).toNat = (word first second).toNat <<< 16 := by
    rw [UInt32.toNat_shiftLeft, UInt16.toNat_toUInt32]
    exact Nat.mod_eq_of_lt small
  rw [doubleWord, UInt32.toNat_or, shifted, UInt16.toNat_toUInt32,
    ← Nat.shiftLeft_add_eq_or_of_lt (word third fourth).toNat_lt, Nat.shiftLeft_eq]
  omega

/-- **A span that is written** is read as what was written. -/
theorem slice_overwrite {bytes content : Bytes} {start : Nat}
    (fits : start + content.length ≤ bytes.length) :
    slice (overwrite bytes start content) start content.length = .ok content := by
  have front : (bytes.take start).length = start := List.length_take_of_le (by omega)
  rw [slice_of_fits (by rw [length_overwrite fits]; exact fits), overwrite, List.append_assoc,
    List.drop_left' front, List.take_left' rfl]

theorem byteAt_overwrite {bytes content : Bytes} {start index : Nat} {byte : UInt8}
    (fits : start + content.length ≤ bytes.length) (written : content[index]? = some byte) :
    byteAt (overwrite bytes start content) (start + index) = .ok byte := by
  obtain ⟨inside, same⟩ := List.getElem?_eq_some_iff.mp written
  have within : start + index < (overwrite bytes start content).length := by
    rw [length_overwrite fits]
    omega
  rw [byteAt_eq_octet within, octet_overwrite fits, if_pos ⟨Nat.le_add_right _ _, by omega⟩,
    Nat.add_sub_cancel_left, octet, List.getD_eq_getElem _ _ inside, same, UInt8.ofNat_toNat]

/-! ### Spans as octets -/

/-- The record of the octets from `start` on. -/
def recordAt (bytes : Bytes) (size start : Nat) : Vector UInt8 size :=
  .ofFn fun index => .ofNat (octet bytes (start + index))

/-- **A record within the buffer** is that of the octets of its span. -/
theorem array_of_fits {bytes : Bytes} {size start : Nat} (fits : start + size ≤ bytes.length) :
    array bytes size start = .ok (recordAt bytes size start) := by
  obtain ⟨record, found, octets⟩ := exists_array_of_fits fits
  have same : record = recordAt bytes size start := by
    ext index inside
    rw [recordAt, Vector.getElem_ofFn, ← octets index inside, UInt8.ofNat_toNat]
  rw [found, same]

theorem array_of_overruns {bytes : Bytes} {size start : Nat}
    (overruns : bytes.length < start + size) :
    array bytes size start = .error (.outOfRange start size bytes.length) := by
  rw [array, slice_of_overruns overruns]

theorem toList_recordAt {bytes : Bytes} {size start : Nat} (fits : start + size ≤ bytes.length) :
    (recordAt bytes size start).toList = (bytes.drop start).take size := by
  have spans := toList_array bytes size start
  rw [array_of_fits fits, slice_of_fits fits] at spans
  exact Except.ok.inj spans

theorem recordAt_congr {first second : Bytes} {size start : Nat}
    (same : ∀ index < size, octet first (start + index) = octet second (start + index)) :
    recordAt first size start = recordAt second size start := by
  unfold recordAt
  congr 1
  funext index
  rw [same index index.isLt]

theorem recordAt_take {bytes : Bytes} {length size start : Nat} (kept : start + size ≤ length) :
    recordAt (bytes.take length) size start = recordAt bytes size start :=
  recordAt_congr fun _ inside =>
    octet_take (Nat.lt_of_lt_of_le (Nat.add_lt_add_left inside start) kept)

theorem ofNat_word (high low : UInt8) : word high low = .ofNat (256 * high.toNat + low.toNat) := by
  rw [← toNat_word, UInt16.ofNat_toNat]

theorem bigAt_of_fits {bytes : Bytes} {offset : Nat} (fits : offset + 2 ≤ bytes.length) :
    bigAt bytes offset = .ok (.ofNat (256 * octet bytes offset + octet bytes (offset + 1))) := by
  obtain ⟨pair, found, octets⟩ := exists_array_of_fits fits
  rw [bigAt, found]
  show Except.ok (word pair[0] pair[1]) = _
  rw [ofNat_word, octets 0 (by decide), octets 1 (by decide)]
  rfl

theorem littleAt_of_fits {bytes : Bytes} {offset : Nat} (fits : offset + 2 ≤ bytes.length) :
    littleAt bytes offset =
      .ok (.ofNat (256 * octet bytes (offset + 1) + octet bytes offset)) := by
  obtain ⟨pair, found, octets⟩ := exists_array_of_fits fits
  rw [littleAt, found]
  show Except.ok (word pair[1] pair[0]) = _
  rw [ofNat_word, octets 0 (by decide), octets 1 (by decide)]
  rfl

theorem signedAt_of_lt {bytes : Bytes} {offset : Nat} (inside : offset < bytes.length) :
    signedAt bytes offset = .ok (UInt8.ofNat (octet bytes offset)).toInt8 := by
  rw [signedAt, byteAt_eq_octet inside]
  rfl

end Field

end Edid
