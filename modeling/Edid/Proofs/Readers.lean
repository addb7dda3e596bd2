/-
**Readers and the end of the buffer.** Every reader asks for a span. It gives a value exactly when
the span ends within the buffer, counted without overflow: an offset close to the greatest 64-bit
word is refused like any other that lies too far, and a span of no bytes may stand right at the end.
What is refused is named in the error as it was asked for, whichever reader asked.

* `Reads`: how a reader of a span answers, closed under what is done with the value (`Reads.map`);
* `sliceOfWords_eq`: finding the end of a span in 64-bit words gives the same spans;
* `readers_keep_to_buffer`: all the readers, with what their values have to do with each other.
-/

import Edid.Proofs.Checked
import Edid.Proofs.Field
import Edid.Sample

namespace Edid

namespace Field

/-- The span of `length` bytes that stands behind the first `start` bytes of a buffer. -/
def IsSpan (bytes : Bytes) (start length : Nat) (span : Bytes) : Prop :=
  ∃ before after, bytes = before ++ span ++ after ∧ before.length = start ∧ span.length = length

/-- How a reader answers that asks for `length` bytes from `start`: with a value when the buffer
holds them, and with the error that names the span when it does not. -/
structure Reads {α : Type} (bytes : Bytes) (start length : Nat) (answer : Except ReadError α)
    (Means : α → Prop) : Prop where
  given : (∃ value, answer = .ok value) ↔ start + length ≤ bytes.length
  means : ∀ value, answer = .ok value → Means value
  refused : bytes.length < start + length →
    answer = .error (.outOfRange start length bytes.length)

section Answers

variable {α β : Type} {bytes : Bytes} {start length : Nat} {answer : Except ReadError α}
  {Means : α → Prop}

theorem Reads.of_cases
    (held : start + length ≤ bytes.length → ∃ value, answer = .ok value ∧ Means value)
    (missing : bytes.length < start + length →
      answer = .error (.outOfRange start length bytes.length)) :
    Reads bytes start length answer Means where
  given := by
    constructor
    · rintro ⟨value, found⟩
      by_contra short
      rw [missing (Nat.lt_of_not_le short)] at found
      cases found
    · intro fits
      obtain ⟨value, found, -⟩ := held fits
      exact ⟨value, found⟩
  means value found := by
    by_cases fits : start + length ≤ bytes.length
    · obtain ⟨other, again, meaning⟩ := held fits
      rw [found] at again
      cases again
      exact meaning
    · rw [missing (Nat.lt_of_not_le fits)] at found
      cases found
  refused := missing

/-- What is made of a value is given and refused like the value itself. -/
theorem Reads.map {Result : β → Prop} {result : α → β}
    (reads : Reads bytes start length answer Means)
    (meaning : ∀ value, answer = .ok value → Result (result value)) :
    Reads bytes start length (answer.map result) Result := by
  refine Reads.of_cases (fun fits => ?_) fun short => ?_
  · obtain ⟨value, found⟩ := reads.given.mpr fits
    exact ⟨result value, by rw [found]; rfl, meaning value found⟩
  · rw [reads.refused short]
    rfl

end Answers

variable (bytes : Bytes)

/-! ### Spans and bytes -/

theorem reads_slice (start length : Nat) :
    Reads bytes start length (slice bytes start length) (IsSpan bytes start length) := by
  refine Reads.of_cases (fun fits => ?_) slice_of_overruns
  refine ⟨_, slice_of_fits fits, bytes.take start, (bytes.drop start).drop length, ?_, ?_, ?_⟩
  · rw [List.append_assoc, List.take_append_drop, List.take_append_drop]
  · exact List.length_take_of_le (by omega)
  · rw [List.length_take_of_le]
    rw [List.length_drop]
    omega

theorem reads_byte (offset : Nat) :
    Reads bytes offset 1 (byteAt bytes offset) fun byte => bytes[offset]? = some byte :=
  Reads.of_cases
    (fun fits => ⟨bytes[offset], byteAt_of_lt fits, List.getElem?_eq_getElem fits⟩)
    fun short => byteAt_of_le (Nat.le_of_lt_succ short)

theorem reads_require (length : Nat) :
    Reads bytes 0 length (require bytes length) fun _ => True := by
  refine Reads.of_cases (fun fits => ⟨(), if_neg ?_, trivial⟩) fun short => if_pos ?_
  · omega
  · omega

/-- **A record** has the bytes of its span, as a span and one by one. -/
theorem reads_array (size start : Nat) :
    Reads bytes start size (array bytes size start) fun record =>
      slice bytes start size = .ok record.toList ∧
        ∀ (index : Nat) (inside : index < size),
          byteAt bytes (start + index) = .ok record[index] := by
  refine Reads.of_cases (fun fits => ?_) array_of_overruns
  obtain ⟨record, found, octets⟩ := exists_array_of_fits fits
  refine ⟨record, found, ?_, fun index inside => ?_⟩
  · rw [← toList_array, found]
    rfl
  · rw [byteAt_eq_octet (by omega), ← octets index inside, UInt8.ofNat_toNat]

/-! ### Numbers -/

/-- **Two's complement**: the upper half of the bytes stands for negative numbers. -/
theorem toInt_toInt8 (byte : UInt8) :
    byte.toInt8.toInt = if byte.toNat < 128 then (byte.toNat : Int) else byte.toNat - 256 := by
  show byte.toBitVec.toInt = _
  rw [BitVec.toInt_eq_toNat_cond, UInt8.toNat_toBitVec]
  by_cases low : byte.toNat < 128
  · rw [if_pos low, if_pos (by omega)]
  · rw [if_neg low, if_neg (by omega)]
    rfl

theorem reads_signed (offset : Nat) :
    Reads bytes offset 1 (signedAt bytes offset) fun value =>
      ∃ byte, byteAt bytes offset = .ok byte ∧
        value.toInt = if byte.toNat < 128 then (byte.toNat : Int) else byte.toNat - 256 :=
  (reads_byte bytes offset).map fun byte found => ⟨byte, found, toInt_toInt8 byte⟩

theorem reads_big (offset : Nat) :
    Reads bytes offset 2 (bigAt bytes offset) fun value =>
      ∃ high low, byteAt bytes offset = .ok high ∧ byteAt bytes (offset + 1) = .ok low ∧
        value.toNat = 256 * high.toNat + low.toNat :=
  (reads_array bytes 2 offset).map fun pair found => by
    obtain ⟨-, single⟩ := (reads_array bytes 2 offset).means pair found
    exact ⟨_, _, single 0 (by decide), single 1 (by decide), toNat_word _ _⟩

theorem reads_little (offset : Nat) :
    Reads bytes offset 2 (littleAt bytes offset) fun value =>
      ∃ low high, byteAt bytes offset = .ok low ∧ byteAt bytes (offset + 1) = .ok high ∧
        value.toNat = 256 * high.toNat + low.toNat :=
  (reads_array bytes 2 offset).map fun pair found => by
    obtain ⟨-, single⟩ := (reads_array bytes 2 offset).means pair found
    exact ⟨_, _, single 0 (by decide), single 1 (by decide), toNat_word _ _⟩

variable {bytes}

theorem bigAt_of_bytes {offset : Nat} {high low : UInt8} (first : byteAt bytes offset = .ok high)
    (second : byteAt bytes (offset + 1) = .ok low) :
    bigAt bytes offset = .ok (word high low) := by
  have fits : offset + 2 ≤ bytes.length := (reads_byte bytes (offset + 1)).given.mp ⟨low, second⟩
  obtain ⟨value, found⟩ := (reads_big bytes offset).given.mpr fits
  obtain ⟨upper, lower, upperRead, lowerRead, number⟩ := (reads_big bytes offset).means value found
  obtain rfl := Except.ok.inj (first.symm.trans upperRead)
  obtain rfl := Except.ok.inj (second.symm.trans lowerRead)
  rw [found, ← UInt16.toNat_inj.mp ((toNat_word high low).trans number.symm)]

theorem reads_bigDouble (bytes : Bytes) (offset : Nat) :
    Reads bytes offset 4 (bigDoubleAt bytes offset) fun value =>
      ∃ high low, bigAt bytes offset = .ok high ∧ bigAt bytes (offset + 2) = .ok low ∧
        value.toNat = 65536 * high.toNat + low.toNat :=
  (reads_array bytes 4 offset).map fun quad found => by
    obtain ⟨-, single⟩ := (reads_array bytes 4 offset).means quad found
    refine ⟨_, _, bigAt_of_bytes (single 0 (by decide)) (single 1 (by decide)),
      bigAt_of_bytes (single 2 (by decide)) (single 3 (by decide)), ?_⟩
    rw [toNat_doubleWord, toNat_word, toNat_word]
    omega

/-! ### Spans in 64-bit words -/

/-- The `length` bytes from `start`, where the end of the span is found in words of 64 bits. -/
def sliceOfWords (bytes : Bytes) (start length : UInt64) : Except ReadError Bytes :=
  match Checked.sum? start length with
  | none => .error (.outOfRange start.toNat length.toNat bytes.length)
  | some stop =>
      if start ≤ stop ∧ stop ≤ .ofNat bytes.length then
        .ok (bytes.extract start.toNat stop.toNat)
      else .error (.outOfRange start.toNat length.toNat bytes.length)

/-- **The end of a span in words**: in a buffer whose length is a word, it is found there exactly
when it lies within the buffer. -/
theorem sliceOfWords_eq (addressable : bytes.length < UInt64.size) (start length : UInt64) :
    sliceOfWords bytes start length = slice bytes start.toNat length.toNat := by
  unfold sliceOfWords
  cases found : Checked.sum? start length with
  | none =>
    have large := Checked.sum?_eq_none_iff.mp found
    exact (slice_of_overruns (Nat.lt_of_lt_of_le addressable large)).symm
  | some stop =>
    have total := Checked.toNat_of_sum? found
    have within : (start ≤ stop ∧ stop ≤ .ofNat bytes.length) ↔
        start.toNat + length.toNat ≤ bytes.length := by
      rw [UInt64.le_iff_toNat_le, UInt64.le_iff_toNat_le, UInt64.toNat_ofNat_of_lt' addressable,
        total]
      omega
    dsimp only
    by_cases fits : start.toNat + length.toNat ≤ bytes.length
    · rw [if_pos (within.mpr fits), slice_of_fits fits, List.extract_eq_take_drop, total,
        Nat.add_sub_cancel_left]
    · rw [if_neg (mt within.mp fits), slice_of_overruns (Nat.lt_of_not_le fits)]

end Field

open Edid.Field

/-- **Readers keep to the buffer.** Each of them gives a value exactly when its span ends within the
buffer, and else the error that names the span and the length of the buffer. A span is the bytes
that stand there, also when its end is found in 64-bit words; a record is its span; a signed byte is
the two's complement of the byte; a word counts 256 for the first of its bytes, or for the second
one if it is written low byte first; a double word counts 65536 for the first of its words. -/
theorem readers_keep_to_buffer (bytes : Bytes) :
    (∀ start length,
      Reads bytes start length (slice bytes start length) (IsSpan bytes start length)) ∧
    (bytes.length < UInt64.size → ∀ start length : UInt64,
      sliceOfWords bytes start length = slice bytes start.toNat length.toNat) ∧
    (∀ length, Reads bytes 0 length (require bytes length) fun _ => True) ∧
    (∀ size start, Reads bytes start size (array bytes size start) fun record =>
      slice bytes start size = .ok record.toList) ∧
    (∀ offset, Reads bytes offset 1 (byteAt bytes offset) fun byte =>
      bytes[offset]? = some byte) ∧
    (∀ offset, Reads bytes offset 1 (signedAt bytes offset) fun value =>
      ∃ byte, byteAt bytes offset = .ok byte ∧
        value.toInt = if byte.toNat < 128 then (byte.toNat : Int) else byte.toNat - 256) ∧
    (∀ offset, Reads bytes offset 2 (bigAt bytes offset) fun value =>
      ∃ high low, byteAt bytes offset = .ok high ∧ byteAt bytes (offset + 1) = .ok low ∧
        value.toNat = 256 * high.toNat + low.toNat) ∧
    (∀ offset, Reads bytes offset 2 (littleAt bytes offset) fun value =>
      ∃ low high, byteAt bytes offset = .ok low ∧ byteAt bytes (offset + 1) = .ok high ∧
        value.toNat = 256 * high.toNat + low.toNat) ∧
    ∀ offset, Reads bytes offset 4 (bigDoubleAt bytes offset) fun value =>
      ∃ high low, bigAt bytes offset = .ok high ∧ bigAt bytes (offset + 2) = .ok low ∧
        value.toNat = 65536 * high.toNat + low.toNat := by
  refine ⟨reads_slice bytes, fun addressable => sliceOfWords_eq addressable, reads_require bytes,
    fun size start => ?_, reads_byte bytes, reads_signed bytes, reads_big bytes,
    reads_little bytes, reads_bigDouble bytes⟩
  have reads := reads_array bytes size start
  exact ⟨reads.given, fun record found => (reads.means record found).1, reads.refused⟩

/-- A span that starts at the greatest 64-bit word and one of no bytes at the end of the sample, a
double word that reaches past that end and the first one. -/
theorem readers_keep_to_buffer_sample :
    sample.length < UInt64.size ∧
      sliceOfWords sample 0xFFFFFFFFFFFFFFFF 2 =
        .error (.outOfRange 0xFFFFFFFFFFFFFFFF 2 256) ∧
      (∃ span, slice sample 256 0 = .ok span ∧ IsSpan sample 256 0 span) ∧
      bigDoubleAt sample 253 = .error (.outOfRange 253 4 256) ∧
      ∃ value high low, bigDoubleAt sample 0 = .ok value ∧ bigAt sample 0 = .ok high ∧
        bigAt sample 2 = .ok low ∧ value.toNat = 65536 * high.toNat + low.toNat := by
  have addressable : sample.length < UInt64.size := by rw [length_sample]; decide
  obtain ⟨spans, words, -, -, -, -, -, -, doubles⟩ := readers_keep_to_buffer sample
  have behind := (spans 0xFFFFFFFFFFFFFFFF 2).refused (by rw [length_sample]; decide)
  have cut := (doubles 253).refused (by rw [length_sample]; decide)
  rw [length_sample] at behind cut
  obtain ⟨span, empty⟩ := (spans 256 0).given.mpr (by rw [length_sample])
  obtain ⟨value, whole⟩ := (doubles 0).given.mpr (by rw [length_sample]; decide)
  obtain ⟨high, low, upper, lower, number⟩ := (doubles 0).means value whole
  exact ⟨addressable, (words addressable _ _).trans behind,
    ⟨span, empty, (spans 256 0).means span empty⟩, cut, value, high, low, whole, upper, lower,
    number⟩

end Edid
