/-
**Timings among the slots.** A slot is looked at twice. Its first four bytes say what kind of
descriptor it is; and as a source of resolutions it is read as a timing, whatever it is, and counts
if its clock runs and its area is plausible. The two never disagree: a slot that offers an area is
a timing, and the area is that of the timing. A clock that runs makes a slot a timing, and an area
of twelve bits each way never reaches the greatest plausible one, so the least one decides alone.

* `offered_slotStep_eq`: a slot offers the area of its descriptor;
* `steps_reading`: the source takes one step for each slot, in order;
* `timing_slots_agree`: the two looks at every slot of a buffer, and what the preferred resolution
  has to do with them.
-/

import Edid.Proofs.BaseBlock
import Edid.Proofs.Descriptor.Kind

namespace Edid

/-! ### One slot -/

/-- The area that a descriptor advertises: that of a timing whose clock runs, if it is large
enough. -/
def Descriptor.area? : Descriptor → Option Resolution
  | detailedTiming timing =>
      if timing.clock ≠ 0 ∧ 300 < timing.width ∧ 200 < timing.height then
        some (.progressive timing.width timing.height)
      else none
  | _ => none

theorem Descriptor.area?_eq_some_iff {descriptor : Descriptor} {area : Resolution} :
    descriptor.area? = some area ↔ ∃ timing, descriptor = .detailedTiming timing ∧
      timing.clock ≠ 0 ∧ 300 < timing.width ∧ 200 < timing.height ∧
      area = .progressive timing.width timing.height := by
  cases descriptor with
  | detailedTiming timing =>
    rw [area?]
    constructor
    · intro found
      obtain ⟨⟨runs, wide, high⟩, same⟩ := Option.ite_none_right_eq_some.mp found
      exact ⟨timing, rfl, runs, wide, high, (Option.some_inj.mp same).symm⟩
    · rintro ⟨_, same, runs, wide, high, rfl⟩
      obtain rfl := detailedTiming.inj same
      exact if_pos ⟨runs, wide, high⟩
  | _ =>
    constructor
    · intro found
      cases found
    · rintro ⟨_, same, _⟩
      cases same

namespace DetailedTiming

/-- An area has twelve bits each way. -/
theorem area_le (record : SlotRecord) :
    (ofRecord record).width.toNat ≤ 4095 ∧ (ofRecord record).height.toNat ≤ 4095 := by
  have low := (record.byte 2).toNat_lt
  have shared := (record.byte 4).toNat_lt
  have lowDown := (record.byte 5).toNat_lt
  have sharedDown := (record.byte 7).toNat_lt
  rw [toNat_width, toNat_height]
  omega

/-- **A slot offers the area of its descriptor**, and nothing if that has none. -/
theorem offered_slotStep_eq (offset : Nat) (record : SlotRecord) :
    (slotStep offset (ofRecord record)).offered? = (Descriptor.ofRecord record).area? := by
  rw [offered_slotStep]
  by_cases stopped : (ofRecord record).clock = 0
  · -- Without a clock the slot may be of any kind, and a timing does not count.
    rw [if_neg fun runs => runs.1 (congrArg UInt16.toNat stopped)]
    cases found : Descriptor.ofRecord record with
    | detailedTiming timing =>
      obtain ⟨-, rfl⟩ := Descriptor.ofRecord_eq_detailedTiming_iff.mp found
      exact (if_neg fun runs => runs.1 stopped).symm
    | _ => rfl
  · have timing := Descriptor.ofRecord_eq_detailedTiming_iff.mpr
      ⟨Descriptor.admits_of_clock stopped, rfl⟩
    have runs : (ofRecord record).clock.toNat ≠ 0 := fun zero => stopped (UInt16.toNat_inj.mp zero)
    obtain ⟨narrow, low⟩ := area_le record
    rw [timing, Descriptor.area?]
    refine if_congr ?_ rfl rfl
    constructor
    · rintro ⟨-, ⟨wide, -⟩, high, -⟩
      exact ⟨stopped, UInt16.lt_iff_toNat_lt.mpr wide, UInt16.lt_iff_toNat_lt.mpr high⟩
    · rintro ⟨-, wide, high⟩
      exact ⟨runs, ⟨UInt16.lt_iff_toNat_lt.mp wide, by omega⟩,
        UInt16.lt_iff_toNat_lt.mp high, by omega⟩

/-! ### The slots of a buffer -/

variable {bytes : Bytes}

theorem steps_readingAt {offsets : List Nat}
    (fits : ∀ offset ∈ offsets, offset + 18 ≤ bytes.length) :
    (readingAt bytes offsets).steps = (offsets.map (Decoded.slot bytes)).map fun slot =>
      slotStep slot.offset (ofRecord slot.record) := by
  induction offsets with
  | nil => rfl
  | cons offset rest ih =>
    rw [readingAt, fetch_of_fits (fits offset List.mem_cons_self), List.map_cons, List.map_cons,
      ← ih fun other member => fits other (List.mem_cons_of_mem _ member)]
    rfl

/-- **One step for each slot**, in the order of the slots. -/
theorem steps_reading (whole : blockLength ≤ bytes.length) :
    (reading bytes).steps = (Decoded.slots bytes).map fun slot =>
      slotStep slot.offset (ofRecord slot.record) := by
  exact steps_readingAt fun _ member =>
    Slot.fits_of_mem_offsets (Nat.le_trans (by decide) whole) member

/-- What the slots offer are the areas of their descriptors, in order. -/
theorem offers_reading (whole : blockLength ≤ bytes.length) :
    (reading bytes).offers =
      (Decoded.slots bytes).filterMap fun slot => (Descriptor.ofRecord slot.record).area? := by
  rw [Reading.offers, steps_reading whole, List.filterMap_map]
  exact List.filterMap_congr fun slot _ => offered_slotStep_eq slot.offset slot.record

/-- The area of a descriptor is one of the resolutions of its buffer. -/
theorem mem_resolutions_of_area (whole : blockLength ≤ bytes.length) {slot : Slot}
    (member : slot ∈ Decoded.slots bytes) {area : Resolution}
    (advertised : (Descriptor.ofRecord slot.record).area? = some area) :
    area ∈ (Decoded.resolutions bytes).entries := by
  have offered : area ∈ slotAreas bytes := by
    rw [← (reading_eq (Nat.le_trans (by decide) whole)).2, offers_reading whole]
    exact List.mem_filterMap.mpr ⟨slot, member, advertised⟩
  rw [Decoded.entries_resolutions, List.mem_eraseDups, Edid.advertised]
  exact List.mem_append_left _ (List.mem_append_right _ offered)

end DetailedTiming

/-- **The two looks at a slot agree.** Each slot of a buffer has its step in the reading of the
detailed timings, and the step offers an area exactly when the descriptor of the slot is a timing
whose clock runs and whose area is more than 300 by 200; the area is that of the timing then, and a
descriptor of any other kind adds nothing to a set. No timing is larger than 4095 either way, so the
greatest plausible area turns none away. If the first slot is a timing, its area is the preferred
resolution, and a resolution of the buffer whenever the slot offers it. -/
theorem timing_slots_agree {bytes : Bytes} (whole : blockLength ≤ bytes.length) :
    ∃ (slots : List Slot) (set : ResolutionSet) (preferred : Resolution),
      BaseBlock.slots bytes = .ok slots ∧ slots.map Slot.offset = [0x36, 0x48, 0x5A, 0x6C] ∧
      (BaseBlock.descriptors bytes).run.value =
        .ok (slots.map fun slot => Descriptor.ofRecord slot.record) ∧
      (BaseBlock.resolutions bytes).run.value = .ok set ∧
      BaseBlock.preferred bytes = .ok preferred ∧
      (DetailedTiming.reading bytes).failure = none ∧
      List.Forall₂ (fun slot step =>
          (∀ area, step.offered? = some area ↔
            ∃ timing, Descriptor.ofRecord slot.record = .detailedTiming timing ∧
              timing.clock ≠ 0 ∧ 300 < timing.width ∧ 200 < timing.height ∧
              area = .progressive timing.width timing.height) ∧
          ((Descriptor.ofRecord slot.record).kind ≠ .detailedTiming → step.offered? = none))
        slots (DetailedTiming.reading bytes).steps ∧
      (∀ start : ResolutionSet, ((DetailedTiming.reading bytes).enter start).value =
        start.insertAll (slots.filterMap fun slot => (Descriptor.ofRecord slot.record).area?)) ∧
      (∀ slot ∈ slots, ∀ timing, Descriptor.ofRecord slot.record = .detailedTiming timing →
        timing.width.toNat ≤ 4095 ∧ timing.height.toNat ≤ 4095) ∧
      ∀ slot ∈ slots.head?, ∀ timing, Descriptor.ofRecord slot.record = .detailedTiming timing →
        preferred = .progressive timing.width timing.height ∧
        (timing.clock ≠ 0 → 300 < timing.width → 200 < timing.height →
          preferred ∈ set.entries) := by
  refine ⟨Decoded.slots bytes, Decoded.resolutions bytes, Decoded.preferred bytes,
    decodes_slots.served whole, rfl, decodes_descriptors.served whole,
    decodes_resolutions.served whole, decodes_preferred.served whole,
    (DetailedTiming.reading_eq (Nat.le_trans (by decide) whole)).1, ?_, ?_, ?_, ?_⟩
  · rw [DetailedTiming.steps_reading whole, List.forall₂_map_right_iff, List.forall₂_same]
    intro slot _
    rw [DetailedTiming.offered_slotStep_eq]
    refine ⟨fun area => Descriptor.area?_eq_some_iff, fun other => ?_⟩
    rw [Option.eq_none_iff_forall_ne_some]
    intro area found
    obtain ⟨timing, same, -⟩ := Descriptor.area?_eq_some_iff.mp found
    rw [same] at other
    exact other rfl
  · intro start
    rw [Reading.value_enter, DetailedTiming.offers_reading whole]
  · intro slot _ timing found
    obtain ⟨-, rfl⟩ := Descriptor.ofRecord_eq_detailedTiming_iff.mp found
    exact DetailedTiming.area_le slot.record
  · intro slot first timing found
    obtain rfl := Option.some_inj.mp first
    obtain ⟨-, spelled⟩ := Descriptor.ofRecord_eq_detailedTiming_iff.mp found
    have preferred : Decoded.preferred bytes = .progressive timing.width timing.height := by
      rw [spelled]
      rfl
    refine ⟨preferred, fun runs wide high => ?_⟩
    rw [preferred]
    exact DetailedTiming.mem_resolutions_of_area whole List.mem_cons_self
      (Descriptor.area?_eq_some_iff.mpr ⟨timing, found, runs, wide, high, rfl⟩)

/-- The first slot of the sample is a timing, and its area one of the resolutions. -/
theorem timing_slots_agree_sample :
    blockLength ≤ sample.length ∧ ∃ set preferred,
      (BaseBlock.resolutions sample).run.value = .ok set ∧
      BaseBlock.preferred sample = .ok preferred ∧
      preferred = .progressive 1920 1080 ∧ preferred ∈ set.entries := by
  have whole : blockLength ≤ sample.length := by decide +kernel
  obtain ⟨slots, set, preferred, fetched, -, -, listed, read, -, -, -, -, first⟩ :=
    timing_slots_agree whole
  have slotted := decodes_slots.served whole
  rw [fetched] at slotted
  obtain rfl := Except.ok.inj slotted
  obtain ⟨same, member⟩ := first (Decoded.slot sample 0x36) rfl ⟨14850, 1920, 1080⟩
    (by decide +kernel)
  exact ⟨whole, set, preferred, listed, read, same, member (by decide) (by decide) (by decide)⟩

end Edid
