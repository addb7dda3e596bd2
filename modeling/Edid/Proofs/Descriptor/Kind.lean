/-
**What the first four bytes of a record say.** Read as one number, the first byte highest, they
alone decide what kind of descriptor a record is. A tag stands behind three zero bytes, so its
number is the tag; a clock that runs makes the number greater than all tags. The numbers of the
kinds do not overlap and leave no number out, so the order in which a reader asks for them makes no
difference.

* `tagged_iff`: a tag is the number of its record;
* `kind_eq_iff`: the kind of a record is the one kind that admits its number;
* `ofRecord_eq_detailedTiming_iff`: a record is a timing exactly when its number is no tag, and then
  it is the timing that its bytes spell;
* `admits_of_clock`: a record with a clock that runs is a timing.
-/

import Mathlib.Logic.ExistsUnique
import Edid.Descriptor
import Edid.Proofs.Timing.Detailed

namespace Edid.Descriptor

/-! ### Kinds -/

/-- The kinds of descriptors, without what they say. -/
inductive Kind where
  | serialNumber
  | unspecifiedText
  | rangeLimits
  | monitorName
  | whitePoint
  | standardTimings
  | manufacturerSpecific
  | detailedTiming
deriving DecidableEq

def kind : Descriptor → Kind
  | serialNumber _ => .serialNumber
  | unspecifiedText _ => .unspecifiedText
  | rangeLimits _ => .rangeLimits
  | monitorName _ => .monitorName
  | whitePoint _ => .whitePoint
  | standardTimings _ => .standardTimings
  | manufacturerSpecific _ _ => .manufacturerSpecific
  | detailedTiming _ => .detailedTiming

/-- The numbers of a kind: one tag, the tags left to makers, or everything that is no tag. -/
def Kind.Admits : Kind → Nat → Prop
  | serialNumber, number => number = 0xFF
  | unspecifiedText, number => number = 0xFE
  | rangeLimits, number => number = 0xFD
  | monitorName, number => number = 0xFC
  | whitePoint, number => number = 0xFB
  | standardTimings, number => number = 0xFA
  | manufacturerSpecific, number => number ≤ 0x0F
  | detailedTiming, number => ¬ (number ≤ 0x0F ∨ 0xFA ≤ number ∧ number ≤ 0xFF)

theorem Kind.eq_of_admits {first second : Kind} {number : Nat} (one : first.Admits number)
    (other : second.Admits number) : first = second := by
  cases first <;> cases second <;> simp only [Kind.Admits] at one other <;> first | rfl | omega

/-! ### Numbers of records -/

/-- The first four bytes of a record as one number, the first byte highest. -/
def number (record : SlotRecord) : Nat :=
  16777216 * (record.byte 0).toNat + 65536 * (record.byte 1).toNat + 256 * (record.byte 2).toNat +
    (record.byte 3).toNat

theorem toNat_typeCode (record : SlotRecord) : (typeCode record).toNat = number record :=
  Field.toNat_doubleWord _ _ _ _

theorem ofRecord_eq (record : SlotRecord) :
    ofRecord record =
      if number record = 0xFF then serialNumber (textOf record)
      else if number record = 0xFE then unspecifiedText (textOf record)
      else if number record = 0xFD then rangeLimits (.ofRecord record)
      else if number record = 0xFC then monitorName (textOf record)
      else if number record = 0xFB then whitePoint record
      else if number record = 0xFA then standardTimings record
      else if number record ≤ 0x0F then manufacturerSpecific (record.byte 3) record
      else detailedTiming (.ofRecord record) := by
  unfold ofRecord
  simp only [← UInt32.toNat_inj, UInt32.le_iff_toNat_le, toNat_typeCode]
  rfl

/-- **The kind of a record admits its number.** -/
theorem admits_kind (record : SlotRecord) : (ofRecord record).kind.Admits (number record) := by
  rw [ofRecord_eq]
  split_ifs with serial text limits name white standard maker
  · exact serial
  · exact text
  · exact limits
  · exact name
  · exact white
  · exact standard
  · exact maker
  · rintro (low | ⟨least, greatest⟩)
    · exact maker low
    · omega

/-- **The kind of a record** is the one kind that admits its number. -/
theorem kind_eq_iff {record : SlotRecord} {kind : Kind} :
    (ofRecord record).kind = kind ↔ kind.Admits (number record) := by
  constructor
  · rintro rfl
    exact admits_kind record
  · exact Kind.eq_of_admits (admits_kind record)

/-! ### Tags -/

/-- A record that opens with three zero bytes and a tag. -/
structure Tagged (tag : UInt8) (record : SlotRecord) : Prop where
  first : record.byte 0 = 0
  second : record.byte 1 = 0
  third : record.byte 2 = 0
  fourth : record.byte 3 = tag

/-- **A tag** behind three zero bytes is the number of its record. -/
theorem tagged_iff {tag : UInt8} {record : SlotRecord} :
    Tagged tag record ↔ number record = tag.toNat := by
  constructor
  · intro tagged
    rw [number, tagged.first, tagged.second, tagged.third, tagged.fourth]
    simp
  · intro equal
    have small := tag.toNat_lt
    unfold number at equal
    exact ⟨UInt8.toNat_inj.mp (by simp; omega), UInt8.toNat_inj.mp (by simp; omega),
      UInt8.toNat_inj.mp (by simp; omega), UInt8.toNat_inj.mp (by omega)⟩

/-! ### Timings -/

/-- **A record is a timing** exactly when its number is no tag, and then it is the timing that its
bytes spell. -/
theorem ofRecord_eq_detailedTiming_iff {record : SlotRecord} {timing : DetailedTiming} :
    ofRecord record = detailedTiming timing ↔
      Kind.detailedTiming.Admits (number record) ∧ timing = .ofRecord record := by
  constructor
  · intro found
    have admitted := admits_kind record
    rw [found] at admitted
    refine ⟨admitted, ?_⟩
    rw [ofRecord_eq] at found
    split_ifs at found
    exact (detailedTiming.inj found).symm
  · rintro ⟨admitted, rfl⟩
    simp only [Kind.Admits, not_or, not_and] at admitted
    rw [ofRecord_eq]
    split_ifs <;> first | rfl | omega

/-- **A clock that runs** makes a record a timing. -/
theorem admits_of_clock {record : SlotRecord} (runs : (DetailedTiming.ofRecord record).clock ≠ 0) :
    Kind.detailedTiming.Admits (number record) := by
  have positive : (DetailedTiming.ofRecord record).clock.toNat ≠ 0 :=
    fun zero => runs (UInt16.toNat_inj.mp zero)
  rw [DetailedTiming.toNat_clock] at positive
  unfold Kind.Admits number
  omega

end Edid.Descriptor
