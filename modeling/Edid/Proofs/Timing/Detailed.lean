/-
**Detailed timings by slot.** A slot read as a timing has a clock of two bytes, low byte first, and
an active area of twelve bits each way, a low byte under the upper nibble of a shared one.

* `Slot.missing?_eq_none_iff`: when a buffer holds all slots;
* `toNat_clock`, `toNat_width`, `toNat_height`: the fields of a record in numbers;
* `readingAt_eq`: a reading ends at the first slot that the buffer does not hold in full;
* `reading_eq`: what the source offers are the areas of the slots whose clock runs and whose area
  is plausible, in the order of the slots.
-/

import Mathlib.Data.List.Basic
import Mathlib.Data.List.TakeWhile
import Edid.Proofs.Field
import Edid.Timing.Detailed

namespace Edid

namespace Slot

/-- The slots end at offset 126. -/
theorem fits_of_mem_offsets {bytes : Bytes} (long : 0x7E ≤ bytes.length) {offset : Nat}
    (member : offset ∈ offsets) : offset + 18 ≤ bytes.length := by
  have last : ∀ offset ∈ offsets, offset + 18 ≤ 0x7E := by decide
  exact (last offset member).trans long

/-- The first of some slots that a buffer does not hold in full. -/
def missing? (bytes : Bytes) (offsets : List Nat) : Option Nat :=
  offsets.find? fun offset => bytes.length < offset + 18

/-- The slots before the first one that a buffer does not hold in full. -/
def held (bytes : Bytes) (offsets : List Nat) : List Nat :=
  offsets.takeWhile fun offset => offset + 18 ≤ bytes.length

section Slots

variable {bytes : Bytes} {offset : Nat} {rest : List Nat}

theorem missing?_cons_of_fits (fits : offset + 18 ≤ bytes.length) :
    missing? bytes (offset :: rest) = missing? bytes rest :=
  List.find?_cons_of_neg (by simpa using fits)

theorem missing?_cons_of_overruns (overruns : bytes.length < offset + 18) :
    missing? bytes (offset :: rest) = some offset :=
  List.find?_cons_of_pos (by simpa using overruns)

theorem held_cons_of_fits (fits : offset + 18 ≤ bytes.length) :
    held bytes (offset :: rest) = offset :: held bytes rest :=
  List.takeWhile_cons_of_pos (by simpa using fits)

theorem held_cons_of_overruns (overruns : bytes.length < offset + 18) :
    held bytes (offset :: rest) = [] :=
  List.takeWhile_cons_of_neg (by simpa using overruns)

/-- A buffer that ends behind the last slot misses none. -/
theorem missing?_eq_none_iff : missing? bytes offsets = none ↔ 0x7E ≤ bytes.length := by
  unfold missing?
  rw [List.find?_eq_none]
  constructor
  · intro none
    have last := none 0x6C (by decide)
    simpa using last
  · intro long offset member
    simpa using fits_of_mem_offsets long member

theorem held_offsets (long : 0x7E ≤ bytes.length) : held bytes offsets = offsets :=
  List.takeWhile_eq_self_iff.mpr fun _ member => by simpa using fits_of_mem_offsets long member

end Slots

end Slot

theorem toNat_byte_recordAt (bytes : Bytes) (offset : Nat) {place : Nat} (inside : place < 18) :
    (SlotRecord.byte (Field.recordAt bytes 18 offset) place).toNat =
      octet bytes (offset + place) := by
  rw [SlotRecord.byte, Vector.getElem?_eq_getElem inside, Option.getD_some, Field.recordAt,
    Vector.getElem_ofFn, toNat_ofNat_octet]

namespace DetailedTiming

/-! ### The fields of a record -/

theorem toNat_twelveBits (low shared : UInt8) :
    (twelveBits low shared).toNat = 256 * (shared.toNat / 16) + low.toNat := by
  have masked : ∀ value < 256, value &&& 0xF0 = 16 * (value / 16) := by
    decide +kernel
  have small : (16 * (shared.toNat / 16)) <<< 4 < 2 ^ 16 := by
    rw [Nat.shiftLeft_eq]
    have := shared.toNat_lt
    omega
  have high : ((shared.toUInt16 &&& 0xF0) <<< 4).toNat = (shared.toNat / 16) <<< 8 := by
    rw [UInt16.toNat_shiftLeft, UInt16.toNat_and, UInt8.toNat_toUInt16]
    show (shared.toNat &&& 0xF0) <<< 4 % 2 ^ 16 = _
    rw [masked _ shared.toNat_lt, Nat.mod_eq_of_lt small, Nat.shiftLeft_eq, Nat.shiftLeft_eq]
    omega
  rw [twelveBits, UInt16.toNat_or, high, UInt8.toNat_toUInt16,
    ← Nat.shiftLeft_add_eq_or_of_lt low.toNat_lt, Nat.shiftLeft_eq]
  omega

theorem toNat_clock (record : SlotRecord) :
    (ofRecord record).clock.toNat = 256 * (record.byte 1).toNat + (record.byte 0).toNat :=
  Field.toNat_word _ _

theorem toNat_width (record : SlotRecord) :
    (ofRecord record).width.toNat = 256 * ((record.byte 4).toNat / 16) + (record.byte 2).toNat :=
  toNat_twelveBits _ _

theorem toNat_height (record : SlotRecord) :
    (ofRecord record).height.toNat = 256 * ((record.byte 7).toNat / 16) + (record.byte 5).toNat :=
  toNat_twelveBits _ _

/-! ### The slots of a buffer -/

def clockAt (bytes : Bytes) (offset : Nat) : Nat :=
  256 * octet bytes (offset + 1) + octet bytes offset

def widthAt (bytes : Bytes) (offset : Nat) : Nat :=
  256 * (octet bytes (offset + 4) / 16) + octet bytes (offset + 2)

def heightAt (bytes : Bytes) (offset : Nat) : Nat :=
  256 * (octet bytes (offset + 7) / 16) + octet bytes (offset + 5)

/-- The area of a slot whose clock runs, if it is plausible. -/
def slotArea? (bytes : Bytes) (offset : Nat) : Option Resolution :=
  if clockAt bytes offset ≠ 0 ∧ (300 < widthAt bytes offset ∧ widthAt bytes offset < 8000) ∧
      200 < heightAt bytes offset ∧ heightAt bytes offset < 8000 then
    some (.progressive (.ofNat (widthAt bytes offset)) (.ofNat (heightAt bytes offset)))
  else none

/-- The areas of the four slots, in order. -/
def slotAreas (bytes : Bytes) : List Resolution :=
  [0x36, 0x48, 0x5A, 0x6C].filterMap (slotArea? bytes)

theorem slotAreas_congr {first second : Bytes}
    (same : ∀ offset, 0x36 ≤ offset → offset < 0x7E → octet first offset = octet second offset) :
    slotAreas first = slotAreas second := by
  refine List.filterMap_congr fun offset member => ?_
  have bounds : ∀ offset ∈ [0x36, 0x48, 0x5A, 0x6C], 0x36 ≤ offset ∧ offset + 18 ≤ 0x7E := by
    decide
  obtain ⟨above, below⟩ := bounds offset member
  unfold slotArea? clockAt widthAt heightAt
  rw [same offset above (by omega), same (offset + 1) (by omega) (by omega),
    same (offset + 2) (by omega) (by omega), same (offset + 4) (by omega) (by omega),
    same (offset + 5) (by omega) (by omega), same (offset + 7) (by omega) (by omega)]

theorem offered_slotStep (offset : Nat) (timing : DetailedTiming) :
    (slotStep offset timing).offered? =
      if timing.clock.toNat ≠ 0 ∧ (300 < timing.width.toNat ∧ timing.width.toNat < 8000) ∧
          200 < timing.height.toNat ∧ timing.height.toNat < 8000 then some timing.resolution
      else none := by
  have unused : timing.isUnused = true ↔ timing.clock.toNat = 0 := by
    rw [isUnused, beq_iff_eq, ← UInt16.toNat_inj]
    rfl
  have credible : timing.isPlausible = true ↔
      (300 < timing.width.toNat ∧ timing.width.toNat < 8000) ∧
        200 < timing.height.toNat ∧ timing.height.toNat < 8000 := by
    rw [isPlausible, decide_eq_true_eq, and_assoc]
    rfl
  unfold slotStep
  by_cases stopped : timing.isUnused = true
  · rw [if_pos stopped, if_neg fun ⟨runs, _⟩ => runs (unused.mp stopped)]
    rfl
  · have runs : timing.clock.toNat ≠ 0 := fun zero => stopped (unused.mpr zero)
    by_cases fair : timing.isPlausible = true
    · rw [if_neg stopped, if_pos fair, if_pos ⟨runs, credible.mp fair⟩]
      rfl
    · rw [if_neg stopped, if_neg fair, if_neg fun ⟨_, area⟩ => fair (credible.mpr area)]
      rfl

/-- The slot at an offset is fetched, and its step offers the area of the slot. -/
theorem exists_slot_of_fits {bytes : Bytes} {offset : Nat} (fits : offset + 18 ≤ bytes.length) :
    ∃ slot, Slot.fetch bytes offset = .ok slot ∧
      (slotStep offset (ofRecord slot.record)).offered? = slotArea? bytes offset := by
  let record : SlotRecord := Field.recordAt bytes 18 offset
  have clock : (ofRecord record).clock.toNat = clockAt bytes offset := by
    rw [toNat_clock, toNat_byte_recordAt bytes offset (by decide),
      toNat_byte_recordAt bytes offset (by decide)]
    rfl
  have width : (ofRecord record).width.toNat = widthAt bytes offset := by
    rw [toNat_width, toNat_byte_recordAt bytes offset (by decide),
      toNat_byte_recordAt bytes offset (by decide)]
    rfl
  have height : (ofRecord record).height.toNat = heightAt bytes offset := by
    rw [toNat_height, toNat_byte_recordAt bytes offset (by decide),
      toNat_byte_recordAt bytes offset (by decide)]
    rfl
  refine ⟨⟨offset, record⟩, ?_, ?_⟩
  · rw [Slot.fetch, Field.array_of_fits fits]
    rfl
  · rw [offered_slotStep, slotArea?, clock, width, height, resolution, ← width, ← height,
      UInt16.ofNat_toNat, UInt16.ofNat_toNat]

/-- **The slots at some offsets** are read up to the first one that the buffer does not hold. -/
theorem readingAt_eq (bytes : Bytes) (offsets : List Nat) :
    (readingAt bytes offsets).failure =
        (Slot.missing? bytes offsets).map (fun offset => .outOfRange offset 18 bytes.length) ∧
      (readingAt bytes offsets).offers =
        (Slot.held bytes offsets).filterMap (slotArea? bytes) := by
  induction offsets with
  | nil => exact ⟨rfl, rfl⟩
  | cons offset rest ih =>
      rw [readingAt]
      rcases Nat.lt_or_ge bytes.length (offset + 18) with overruns | fits
      · rw [Slot.missing?_cons_of_overruns overruns, Slot.held_cons_of_overruns overruns,
          Slot.fetch, Field.array_of_overruns overruns]
        exact ⟨rfl, rfl⟩
      · obtain ⟨slot, found, offered⟩ := exists_slot_of_fits fits
        obtain ⟨failure, others⟩ := ih
        rw [Slot.missing?_cons_of_fits fits, Slot.held_cons_of_fits fits, found]
        refine ⟨failure, ?_⟩
        show (slotStep offset (ofRecord slot.record) :: (readingAt bytes rest).steps).filterMap
          Step.offered? = _
        rw [List.filterMap_cons, List.filterMap_cons, offered, ← others]
        rfl

/-- **What the slots offer**: the source is read to its end, and offers the areas of the slots
whose clock runs and whose area is plausible. -/
theorem reading_eq {bytes : Bytes} (long : 0x7E ≤ bytes.length) :
    (reading bytes).failure = none ∧ (reading bytes).offers = slotAreas bytes := by
  obtain ⟨failure, offers⟩ := readingAt_eq bytes Slot.offsets
  rw [Slot.missing?_eq_none_iff.mpr long] at failure
  rw [Slot.held_offsets long] at offers
  exact ⟨failure, offers⟩

end DetailedTiming

end Edid
