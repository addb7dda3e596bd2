/-
**The base block in octets.** Every reader of the base block first asks for the whole block. A
buffer without one is refused, by all readers with the same error. On any other buffer each reader
gives a value, which is written down here by the octets of the block: no pattern of bits is
refused, and no extension, however it is broken, is a reason to fail.

* `Decodes.bind`, `Decodes.bindLogged`: what follows a reader neither adds a refusal nor lifts one;
* `decodes_summary`: the summary of a buffer, by its octets and what it advertises;
* `readers_all_or_nothing`: all readers together.
-/

import Edid.Proofs.Advertised
import Edid.Summary

namespace Edid

/-! ### Readers that need the whole block -/

/-- A reader and what it reads: a buffer without a whole base block is refused, with the span of
that block as the reason, and any other one has a value. -/
structure Decodes {α : Type} (read : Bytes → Except ReadError α) (value : Bytes → α) : Prop where
  refused {bytes : Bytes} (short : bytes.length < blockLength) :
    read bytes = .error (.outOfRange 0 blockLength bytes.length)
  served {bytes : Bytes} (whole : blockLength ≤ bytes.length) : read bytes = .ok (value bytes)

variable {α β : Type} {value : Bytes → α} {result : Bytes → β}

theorem decodes_whole : Decodes BaseBlock.whole fun bytes => bytes where
  refused {bytes} short := by
    rw [BaseBlock.whole, Field.require, if_pos short]
    rfl
  served {bytes} whole := by
    rw [BaseBlock.whole, require_of_le whole]
    rfl

/-- **What follows a reader** is not reached without a whole block. -/
theorem Decodes.bind {read : Bytes → Except ReadError α} {next : Bytes → α → Except ReadError β}
    (first : Decodes read value)
    (rest : ∀ {bytes : Bytes}, blockLength ≤ bytes.length →
      next bytes (value bytes) = .ok (result bytes)) :
    Decodes (fun bytes => read bytes >>= next bytes) result where
  refused {bytes} short := by
    rw [first.refused short]
    rfl
  served {bytes} whole := by
    rw [first.served whole]
    exact rest whole

/-- The same for readers that keep a log. -/
theorem Decodes.bindLogged {read : Bytes → ExceptT ReadError Logged α}
    {next : Bytes → α → ExceptT ReadError Logged β}
    (first : Decodes (fun bytes => (read bytes).run.value) value)
    (rest : ∀ {bytes : Bytes}, blockLength ≤ bytes.length →
      (next bytes (value bytes)).run.value = .ok (result bytes)) :
    Decodes (fun bytes => (read bytes >>= next bytes).run.value) result where
  refused {bytes} short := by
    rw [Logged.value_run_bind, first.refused short]
  served {bytes} whole := by
    rw [Logged.value_run_bind, first.served whole]
    exact rest whole

/-- A field that lies within the block, in some shape. -/
theorem decodes_field {field : Bytes → Except ReadError α} (shape : α → β)
    (found : ∀ {bytes : Bytes}, blockLength ≤ bytes.length → field bytes = .ok (value bytes)) :
    Decodes (fun bytes => BaseBlock.whole bytes >>= fun block =>
      field block >>= fun raw => pure (shape raw)) fun bytes => shape (value bytes) :=
  decodes_whole.bind fun whole => by
    rw [found whole]
    rfl

theorem decodes_byte {offset : Nat} (inside : offset < blockLength) :
    Decodes (fun bytes => BaseBlock.whole bytes >>= fun block => Field.byteAt block offset)
      fun bytes => .ofNat (octet bytes offset) :=
  decodes_whole.bind fun whole => Field.byteAt_eq_octet (inside.trans_le whole)

/-- The number of a byte that lies within the block, in some shape. -/
theorem decodes_octet (shape : Nat → β) {offset : Nat} (inside : offset < blockLength) :
    Decodes (fun bytes => BaseBlock.whole bytes >>= fun block =>
      Field.byteAt block offset >>= fun byte => pure (shape byte.toNat))
      fun bytes => shape (octet bytes offset) :=
  decodes_whole.bind fun {bytes} whole => by
    rw [Field.byteAt_eq_octet (inside.trans_le whole)]
    show Except.ok (shape (UInt8.ofNat (octet bytes offset)).toNat) = _
    rw [toNat_ofNat_octet]

/-- Two signed bytes that lie within the block, as a pair of some kind. -/
theorem decodes_signedPair (pair : Int8 → Int8 → β) {first second : Nat}
    (before : first < blockLength) (inside : second < blockLength) :
    Decodes (fun bytes => BaseBlock.whole bytes >>= fun block =>
      Field.signedAt block first >>= fun one =>
      Field.signedAt block second >>= fun other => pure (pair one other))
      fun bytes => pair (UInt8.ofNat (octet bytes first)).toInt8
        (UInt8.ofNat (octet bytes second)).toInt8 :=
  decodes_whole.bind fun whole => by
    rw [Field.signedAt_of_lt (before.trans_le whole), Field.signedAt_of_lt (inside.trans_le whole)]
    rfl

/-! ### The fields of a whole block -/

namespace Decoded

variable (bytes : Bytes)

def manufacturer : ManufacturerId := ⟨.ofNat (256 * octet bytes 0x08 + octet bytes 0x09)⟩

def product : ProductCode := ⟨.ofNat (256 * octet bytes 0x0B + octet bytes 0x0A)⟩

def serial : SerialCode := ⟨Field.recordAt bytes 4 0x0C⟩

def week : UInt8 := .ofNat (octet bytes 0x10)

def year : Int := octet bytes 0x11 + ManufactureDate.firstYear

def date : ManufactureDate := ⟨week bytes, year bytes⟩

def version : Version :=
  ⟨(UInt8.ofNat (octet bytes 0x12)).toInt8, (UInt8.ofNat (octet bytes 0x13)).toInt8⟩

def isDigital : Bool := (octet bytes 0x14).testBit 7

def size : PhysicalSize :=
  ⟨(UInt8.ofNat (octet bytes 0x15)).toInt8, (UInt8.ofNat (octet bytes 0x16)).toInt8⟩

def extensionCount : UInt8 := .ofNat (octet bytes 0x7E)

def slot (offset : Nat) : Slot := ⟨offset, Field.recordAt bytes 18 offset⟩

def slots : List Slot := Slot.offsets.map (slot bytes)

def modelName : Option String :=
  (BaseBlock.nameSlot? (slots bytes)).map fun slot =>
    String.ofList (BaseBlock.lastWord (Descriptor.characters slot.record))

def preferred : Resolution := (DetailedTiming.ofRecord (slot bytes 0x36).record).resolution

def descriptors : List Descriptor := (slots bytes).map fun slot => Descriptor.ofRecord slot.record

def resolutions : ResolutionSet := ResolutionSet.empty.insertAll (advertised bytes)

/-- What is known of a display, the resolutions as far as the buffer goes. -/
def summary : Summary :=
  { manufacturer := (manufacturer bytes).text
    product := (product bytes).text
    serial := (serial bytes).text
    digital := isDigital bytes
    week := week bytes
    year := year bytes
    version := (version bytes).text
    width := (size bytes).horizontal
    height := (size bytes).vertical
    extensionCount := extensionCount bytes
    modelName := modelName bytes
    preferred := (preferred bytes).label
    descriptors := (descriptors bytes).map Descriptor.line
    resolutions := (resolutions bytes).labels }

end Decoded

theorem Decoded.slot_congr {first second : Bytes} {offset : Nat}
    (same : ∀ index < 18, octet first (offset + index) = octet second (offset + index)) :
    slot first offset = slot second offset := by
  rw [slot, slot, Field.recordAt_congr same]

/-- **The slots** are those of any buffer with the same octets in their spans. -/
theorem Decoded.slots_congr {first second : Bytes}
    (same : ∀ offset, 0x36 ≤ offset → offset < 0x7E → octet first offset = octet second offset) :
    slots first = slots second := by
  have bounds : ∀ offset ∈ Slot.offsets, 0x36 ≤ offset ∧ offset + 18 ≤ 0x7E := by decide
  refine List.map_congr_left fun offset member => slot_congr fun index inside => ?_
  have place := bounds offset member
  exact same (offset + index) (by omega) (by omega)

theorem Decoded.entries_resolutions (bytes : Bytes) :
    (Decoded.resolutions bytes).entries = (advertised bytes).eraseDups := by
  rw [resolutions, ResolutionSet.entries_insertAll_of_fits (fits_advertised bytes)]
  rfl

/-! ### One reader after the other -/

theorem decodes_manufacturer : Decodes BaseBlock.manufacturer Decoded.manufacturer :=
  decodes_field ManufacturerId.mk fun whole => Field.bigAt_of_fits (Nat.le_trans (by decide) whole)

theorem decodes_product : Decodes BaseBlock.product Decoded.product :=
  decodes_field ProductCode.mk fun whole => Field.littleAt_of_fits (Nat.le_trans (by decide) whole)

theorem decodes_serial : Decodes BaseBlock.serial Decoded.serial :=
  decodes_field SerialCode.mk fun whole => Field.array_of_fits (Nat.le_trans (by decide) whole)

theorem decodes_week : Decodes BaseBlock.week Decoded.week := decodes_byte (by decide)

theorem decodes_year : Decodes BaseBlock.year Decoded.year :=
  decodes_octet (fun octet => octet + ManufactureDate.firstYear) (by decide)

theorem decodes_date : Decodes BaseBlock.date Decoded.date :=
  decodes_week.bind fun whole => by
    rw [decodes_year.served whole]
    rfl

theorem decodes_version : Decodes BaseBlock.version Decoded.version :=
  decodes_signedPair Version.mk (by decide) (by decide)

theorem decodes_size : Decodes BaseBlock.size Decoded.size :=
  decodes_signedPair PhysicalSize.mk (by decide) (by decide)

theorem decodes_isDigital : Decodes BaseBlock.isDigital Decoded.isDigital :=
  decodes_octet (fun octet => octet.testBit 7) (by decide)

theorem decodes_extensionCount : Decodes BaseBlock.extensionCount Decoded.extensionCount :=
  decodes_byte (by decide)

theorem fetch_of_fits {bytes : Bytes} {offset : Nat} (fits : offset + 18 ≤ bytes.length) :
    Slot.fetch bytes offset = .ok (Decoded.slot bytes offset) := by
  rw [Slot.fetch, Field.array_of_fits fits]
  rfl

/-- Slots are fetched together, or the first one that the buffer does not hold is the error. -/
theorem mapM_fetch (bytes : Bytes) (offsets : List Nat) :
    offsets.mapM (Slot.fetch bytes) = match Slot.missing? bytes offsets with
      | some offset => .error (.outOfRange offset 18 bytes.length)
      | none => .ok (offsets.map (Decoded.slot bytes)) := by
  induction offsets with
  | nil => rfl
  | cons offset rest ih =>
      rw [List.mapM_cons]
      rcases Nat.lt_or_ge bytes.length (offset + 18) with overruns | fits
      · rw [Slot.missing?_cons_of_overruns overruns, Slot.fetch, Field.array_of_overruns overruns]
        rfl
      · rw [Slot.missing?_cons_of_fits fits, fetch_of_fits fits, ih]
        cases Slot.missing? bytes rest <;> rfl

theorem decodes_slots : Decodes BaseBlock.slots Decoded.slots :=
  decodes_whole.bind fun {bytes} whole => by
    rw [Slot.fetchAll, mapM_fetch, Slot.missing?_eq_none_iff.mpr (Nat.le_trans (by decide) whole)]
    rfl

theorem decodes_modelName : Decodes BaseBlock.modelName Decoded.modelName :=
  decodes_slots.bind fun _ => rfl

theorem decodes_preferred : Decodes BaseBlock.preferred Decoded.preferred :=
  decodes_field (fun slot : Slot => (DetailedTiming.ofRecord slot.record).resolution)
    fun whole => fetch_of_fits (Nat.le_trans (by decide) whole)

theorem decodes_descriptors :
    Decodes (fun bytes => (BaseBlock.descriptors bytes).run.value) Decoded.descriptors :=
  Decodes.bindLogged decodes_slots fun {bytes} _ =>
    congrArg Except.ok (value_inspectAll (Decoded.slots bytes))

theorem decodes_advertised :
    Decodes (fun bytes => (resolutions bytes).run.value) Decoded.resolutions where
  refused {bytes} short := by
    rw [resolutions, Logged.value_run_bind, Field.require, if_pos short]
    rfl
  served {bytes} whole := by
    rw [value_resolutions whole, offers_all whole]
    rfl

theorem decodes_resolutions :
    Decodes (fun bytes => (BaseBlock.resolutions bytes).run.value) Decoded.resolutions :=
  Decodes.bindLogged decodes_whole decodes_advertised.served

/-- **The summary** of a buffer with a whole block, by the readers together. -/
theorem decodes_summary :
    Decodes (fun bytes => (Summary.ofBytes bytes).run.value) Decoded.summary := by
  -- The size is read first, so its refusal is that of the summary.
  refine Decodes.bindLogged decodes_size fun {bytes} whole => ?_
  simp only [Logged.value_run_bind, Logged.value_run_lift, decodes_manufacturer.served whole,
    decodes_product.served whole, decodes_serial.served whole, decodes_isDigital.served whole,
    decodes_week.served whole, decodes_year.served whole, decodes_version.served whole,
    decodes_extensionCount.served whole, decodes_modelName.served whole,
    decodes_preferred.served whole, decodes_descriptors.served whole,
    decodes_resolutions.served whole]
  rfl

/-! ### All or nothing -/

/-- An answer about a buffer that is a refusal without a whole base block, a certain value with one,
and no refusal of any other kind. -/
structure AllOrNothing (bytes : Bytes) (answer : Except ReadError α) (value : α) : Prop where
  refused : bytes.length < blockLength → answer = .error (.outOfRange 0 blockLength bytes.length)
  answered : blockLength ≤ bytes.length → answer = .ok value
  sole : ∀ failure, answer = .error failure → failure = .outOfRange 0 blockLength bytes.length

theorem Decodes.allOrNothing {read : Bytes → Except ReadError α} (decodes : Decodes read value)
    (bytes : Bytes) : AllOrNothing bytes (read bytes) (value bytes) where
  refused := decodes.refused
  answered := decodes.served
  sole failure failed := by
    rcases Nat.lt_or_ge bytes.length blockLength with short | whole
    · rw [decodes.refused short] at failed
      exact (Except.error.inj failed).symm
    · rw [decodes.served whole] at failed
      cases failed

/-- **No buffer is decoded in part.** Every reader refuses a buffer without a whole base block, with
the span of that block as the reason, and of any other buffer gives the value that its octets have,
whatever they are. A data block that is malformed, or one that lies past the end of the buffer, is
never the reason for a refusal. -/
theorem readers_all_or_nothing (bytes : Bytes) :
    AllOrNothing bytes (BaseBlock.manufacturer bytes) (Decoded.manufacturer bytes) ∧
      AllOrNothing bytes (BaseBlock.product bytes) (Decoded.product bytes) ∧
      AllOrNothing bytes (BaseBlock.serial bytes) (Decoded.serial bytes) ∧
      AllOrNothing bytes (BaseBlock.week bytes) (Decoded.week bytes) ∧
      AllOrNothing bytes (BaseBlock.year bytes) (Decoded.year bytes) ∧
      AllOrNothing bytes (BaseBlock.date bytes) (Decoded.date bytes) ∧
      AllOrNothing bytes (BaseBlock.version bytes) (Decoded.version bytes) ∧
      AllOrNothing bytes (BaseBlock.isDigital bytes) (Decoded.isDigital bytes) ∧
      AllOrNothing bytes (BaseBlock.size bytes) (Decoded.size bytes) ∧
      AllOrNothing bytes (BaseBlock.extensionCount bytes) (Decoded.extensionCount bytes) ∧
      AllOrNothing bytes (BaseBlock.slots bytes) (Decoded.slots bytes) ∧
      AllOrNothing bytes (BaseBlock.modelName bytes) (Decoded.modelName bytes) ∧
      AllOrNothing bytes (BaseBlock.preferred bytes) (Decoded.preferred bytes) ∧
      AllOrNothing bytes (BaseBlock.resolutions bytes).run.value (Decoded.resolutions bytes) ∧
      AllOrNothing bytes (BaseBlock.descriptors bytes).run.value (Decoded.descriptors bytes) ∧
      AllOrNothing bytes (Summary.ofBytes bytes).run.value (Decoded.summary bytes) ∧
      AllOrNothing bytes (resolutions bytes).run.value (Decoded.resolutions bytes) :=
  ⟨decodes_manufacturer.allOrNothing bytes, decodes_product.allOrNothing bytes,
    decodes_serial.allOrNothing bytes, decodes_week.allOrNothing bytes,
    decodes_year.allOrNothing bytes, decodes_date.allOrNothing bytes,
    decodes_version.allOrNothing bytes, decodes_isDigital.allOrNothing bytes,
    decodes_size.allOrNothing bytes, decodes_extensionCount.allOrNothing bytes,
    decodes_slots.allOrNothing bytes, decodes_modelName.allOrNothing bytes,
    decodes_preferred.allOrNothing bytes, decodes_resolutions.allOrNothing bytes,
    decodes_descriptors.allOrNothing bytes, decodes_summary.allOrNothing bytes,
    decodes_advertised.allOrNothing bytes⟩

/-- The first data block of an extension that overruns its collection ends the walk, not the
decoding. -/
example : (Extension.firstWalk (sample.set 132 0x5F)).failure = some (.malformedBlock 132) ∧
    (resolutions (sample.set 132 0x5F)).run.value.map ResolutionSet.size = .ok 10 := by
  decide +kernel

end Edid
