/-
**What a display advertises, as one list.** The four sources of a buffer with a whole base block
are read to their ends, and what they offer is known in numbers: the entries of the established
flags, the areas of the standard pairs, the areas of the plausible slots and the video modes of the
first extension. The resolutions of the display are the first occurrences in the concatenation of
the four lists.

* `advertised_take_prefix`: a buffer that is cut advertises a first part of it;
* `value_resolutions`: the enumeration succeeds and inserts the advertised resolutions;
* `length_eraseDups_advertised_le`: at most 24 of them are distinct, since the flags and the video
  codes together have twelve areas (640x480 belongs to both), the pairs at most eight and the slots
  at most four;
* `resolutions_eq_first_occurrences`: the two together, with nothing lost to the capacity.
-/

import Edid.Proofs.FirstOccurrences
import Edid.Proofs.Timing.Detailed
import Edid.Proofs.Timing.Established
import Edid.Proofs.Timing.Standard
import Edid.Proofs.VideoModes
import Edid.Source

namespace Edid

open FirstOccurrences

/-- Every resolution that a buffer advertises, source by source and with repetitions. -/
def advertised (bytes : Bytes) : List Resolution :=
  Established.setAreas bytes ++ StandardTiming.tableAreas bytes ++
    DetailedTiming.slotAreas bytes ++ Extension.areas bytes

/-- **What is advertised** is the same of buffers that agree on what the four sources read. -/
theorem advertised_congr {first second : Bytes} (length : first.length = second.length)
    (flags : ∀ flag < 17, Established.isSet first flag = Established.isSet second flag)
    (timings : ∀ offset, 0x26 ≤ offset → offset ≤ 0x7E → octet first offset = octet second offset)
    (tag : 2 * blockLength ≤ first.length → octet first 128 = octet second 128)
    (limit : 2 * blockLength ≤ first.length → octet first 130 = octet second 130)
    (blocks : 2 * blockLength ≤ first.length → ∀ offset, 132 ≤ offset →
      offset < min first.length (128 + octet first 130) →
        octet first offset = octet second offset) : advertised first = advertised second := by
  have pairs : StandardTiming.tableAreas first = StandardTiming.tableAreas second :=
    StandardTiming.tableAreas_congr fun offset above below => timings offset above (by omega)
  have slots : DetailedTiming.slotAreas first = DetailedTiming.slotAreas second :=
    DetailedTiming.slotAreas_congr fun offset above below =>
      timings offset (by omega) (by omega)
  have modes : Extension.areas first = Extension.areas second :=
    Extension.areas_congr length (timings 0x7E (by decide) (by decide)) tag limit blocks
  rw [advertised, advertised, Established.setAreas_congr_of_flags flags, pairs, slots, modes]

/-- The base block sources of a buffer that is cut behind the base block are those of the buffer. -/
theorem advertised_take {bytes : Bytes} {length : Nat} (base : blockLength ≤ length) :
    advertised (bytes.take length) =
      Established.setAreas bytes ++ StandardTiming.tableAreas bytes ++
        DetailedTiming.slotAreas bytes ++ Extension.areas (bytes.take length) := by
  have kept : ∀ offset < 128, octet (bytes.take length) offset = octet bytes offset :=
    fun offset early => octet_take (early.trans_le base)
  have flags : Established.setAreas (bytes.take length) = Established.setAreas bytes :=
    Established.setAreas_congr fun offset _ below => kept offset (by omega)
  have pairs : StandardTiming.tableAreas (bytes.take length) = StandardTiming.tableAreas bytes :=
    StandardTiming.tableAreas_congr fun offset _ below => kept offset (by omega)
  have slots : DetailedTiming.slotAreas (bytes.take length) = DetailedTiming.slotAreas bytes :=
    DetailedTiming.slotAreas_congr fun offset _ below => kept offset (by omega)
  unfold advertised
  rw [flags, pairs, slots]

/-- **A cut behind the base block** takes only a tail of what is advertised away. -/
theorem advertised_take_prefix {bytes : Bytes} {length : Nat} (base : blockLength ≤ length) :
    advertised (bytes.take length) <+: advertised bytes := by
  rw [advertised_take base]
  exact (List.prefix_append_right_inj _).mpr (Extension.areas_take_prefix bytes length)

/-! ### The four readings -/

variable {bytes : Bytes}

theorem failure_reading (whole : blockLength ≤ bytes.length) (source : Source) :
    (source.reading bytes).failure = none := by
  have base : 128 ≤ bytes.length := whole
  cases source with
  | established => exact (Established.reading_eq (by omega)).1
  | standard => exact (StandardTiming.reading_eq (by omega)).1
  | detailed => exact (DetailedTiming.reading_eq (by omega)).1
  | extension => exact (Extension.reading_eq whole).1

theorem offers_all (whole : blockLength ≤ bytes.length) :
    Source.offers bytes Source.all = advertised bytes := by
  have base : 128 ≤ bytes.length := whole
  unfold Source.offers Source.all advertised
  simp only [List.flatMap_cons, List.flatMap_nil, List.append_nil, Source.reading]
  rw [(Established.reading_eq (by omega)).2, (StandardTiming.reading_eq (by omega)).2,
    (DetailedTiming.reading_eq (by omega)).2, (Extension.reading_eq whole).2, List.append_assoc,
    List.append_assoc]

theorem require_of_le {length : Nat} (enough : length ≤ bytes.length) :
    Field.require bytes length = .ok () := if_neg (Nat.not_lt_of_le enough)

/-- **The enumeration succeeds** on a buffer with a whole base block, and inserts the advertised
resolutions into the empty set. -/
theorem value_resolutions (whole : blockLength ≤ bytes.length) :
    (resolutions bytes).run.value =
      .ok (ResolutionSet.empty.insertAll (Source.offers bytes Source.all)) := by
  unfold resolutions
  rw [Logged.value_run_bind, require_of_le whole]
  exact Source.value_enterAll .empty fun source _ => failure_reading whole source

/-! ### Counting the distinct resolutions -/

def videoCodeAreas : List Resolution :=
  [ .progressive 640 480, .progressive 720 480, .progressive 1280 720,
    .interlacedArea 1920 1080, .progressive 1920 1080, .progressive 720 576 ]

theorem mem_videoCodeAreas {code : UInt8} {area : Resolution}
    (known : VideoCode.resolution? code = some area) : area ∈ videoCodeAreas := by
  unfold VideoCode.resolution? at known
  split at known <;> cases known
  all_goals decide

theorem areas_subset {area : Resolution} (member : area ∈ Extension.areas bytes) :
    area ∈ videoCodeAreas := by
  unfold Extension.areas at member
  split at member
  · obtain ⟨block, _, inside⟩ := List.mem_flatMap.mp member
    obtain ⟨descriptor, _, known⟩ := List.mem_filterMap.mp inside
    exact mem_videoCodeAreas known
  · exact absurd member List.not_mem_nil

theorem setAreas_subset {area : Resolution} (member : area ∈ Established.setAreas bytes) :
    area ∈ Established.table := by
  obtain ⟨flag, _, entry⟩ := List.mem_filterMap.mp member
  split at entry
  · exact List.mem_of_getElem? entry
  · cases entry

/-- **At most 24 distinct resolutions** are advertised. -/
theorem length_eraseDups_advertised_le (bytes : Bytes) :
    (advertised bytes).eraseDups.length ≤ 24 := by
  have known : (Established.table ++ videoCodeAreas).toFinset.card = 12 := by decide +kernel
  have pairs : (StandardTiming.tableAreas bytes).toFinset.card ≤ 8 :=
    (List.toFinset_card_le _).trans (List.length_filterMap_le _ _)
  have slots : (DetailedTiming.slotAreas bytes).toFinset.card ≤ 4 :=
    (List.toFinset_card_le _).trans (List.length_filterMap_le _ _)
  have cover : (advertised bytes).toFinset ⊆ (Established.table ++ videoCodeAreas).toFinset ∪
      ((StandardTiming.tableAreas bytes).toFinset ∪ (DetailedTiming.slotAreas bytes).toFinset) := by
    intro area member
    simp only [advertised, List.mem_toFinset, List.mem_append, Finset.mem_union] at member ⊢
    rcases member with ((flag | pair) | slot) | mode
    · exact Or.inl (Or.inl (setAreas_subset flag))
    · exact Or.inr (Or.inl pair)
    · exact Or.inr (Or.inr slot)
    · exact Or.inl (Or.inr (areas_subset mode))
  rw [length_eraseDups]
  calc (advertised bytes).toFinset.card
      ≤ (Established.table ++ videoCodeAreas).toFinset.card +
          ((StandardTiming.tableAreas bytes).toFinset.card +
            (DetailedTiming.slotAreas bytes).toFinset.card) :=
        (Finset.card_le_card cover).trans ((Finset.card_union_le _ _).trans
          (Nat.add_le_add_left (Finset.card_union_le _ _) _))
    _ ≤ 24 := by omega

theorem fits_advertised (bytes : Bytes) :
    (ResolutionSet.empty.entries ++ advertised bytes).eraseDups.length ≤ ResolutionSet.capacity :=
  (length_eraseDups_advertised_le bytes).trans (by decide)

/-- The members of the enumeration are the first occurrences of what is advertised. -/
theorem exists_resolutions (whole : blockLength ≤ bytes.length) :
    ∃ set, (resolutions bytes).run.value = .ok set ∧
      set.entries = (advertised bytes).eraseDups := by
  refine ⟨_, value_resolutions whole, ?_⟩
  rw [offers_all whole, ResolutionSet.entries_insertAll_of_fits (fits_advertised bytes)]
  rfl

/-! ### The enumeration -/

/-- A buffer that advertises as many resolutions as there can be: all flags, eight pairs, four
slots and all video codes. -/
def crowded : Bytes :=
  List.replicate 0x23 0 ++ [0xFF, 0xFF, 0] ++
    (List.range 8).flatMap (fun place => [.ofNat (place + 1), 0]) ++
    (List.range 4).flatMap (fun place =>
      [1, 0, .ofNat place, 0, 0x20, 0, 0, 0x10] ++ List.replicate 10 0) ++
    [1, 0, 2, 3, 11, 0, 0x46, 1, 2, 4, 5, 16, 17] ++ List.replicate 117 0

/-- **The resolutions of a display** are the first occurrences in what its four sources advertise.
So they are those that some source advertises, each once, and at most 24 of them, which `crowded`
has; no resolution is ever turned away for want of room. -/
theorem resolutions_eq_first_occurrences :
    (∀ bytes : Bytes, blockLength ≤ bytes.length →
      ∃ set, (resolutions bytes).run.value = .ok set ∧
        set.entries = (Established.setAreas bytes ++ StandardTiming.tableAreas bytes ++
          DetailedTiming.slotAreas bytes ++ Extension.areas bytes).eraseDups ∧
        (∀ resolution, resolution ∈ set.entries ↔
          resolution ∈ Established.setAreas bytes ∨ resolution ∈ StandardTiming.tableAreas bytes ∨
            resolution ∈ DetailedTiming.slotAreas bytes ∨ resolution ∈ Extension.areas bytes) ∧
        set.entries.Nodup ∧ set.size ≤ 24 ∧
        set = ResolutionSet.empty.insertAll (Source.offers bytes Source.all) ∧
        Placement.full ∉ ResolutionSet.empty.placements (Source.offers bytes Source.all)) ∧
      ∃ bytes set, blockLength ≤ bytes.length ∧ (resolutions bytes).run.value = .ok set ∧
        set.size = 24 := by
  constructor
  · intro bytes whole
    obtain ⟨set, found, entries⟩ := exists_resolutions whole
    have inserted : set = ResolutionSet.empty.insertAll (Source.offers bytes Source.all) := by
      rw [value_resolutions whole] at found
      exact (Except.ok.inj found).symm
    refine ⟨set, found, entries, ?_, set.distinct, ?_, inserted, ?_⟩
    · intro resolution
      rw [entries, List.mem_eraseDups]
      simp only [advertised, List.mem_append, or_assoc]
    · rw [ResolutionSet.size, entries]
      exact length_eraseDups_advertised_le bytes
    · rw [offers_all whole]
      exact ResolutionSet.full_notMem_placements (fits_advertised bytes)
  · have whole : blockLength ≤ crowded.length := by decide +kernel
    obtain ⟨set, found, entries⟩ := exists_resolutions whole
    refine ⟨crowded, set, whole, found, ?_⟩
    rw [ResolutionSet.size, entries]
    decide +kernel

/-- The sample advertises fourteen distinct resolutions, from all four sources. -/
theorem resolutions_sample :
    blockLength ≤ sample.length ∧ ∃ set, (resolutions sample).run.value = .ok set ∧
      set.labels =
        ["720x400", "640x480", "800x600", "1024x768", "1280x1024", "1152x870", "1152x864",
          "1280x800", "1600x900", "1920x1080", "1920x1080i", "1280x720", "720x480", "720x576"] ∧
      Placement.full ∉ ResolutionSet.empty.placements (Source.offers sample Source.all) := by
  have whole : blockLength ≤ sample.length := by decide +kernel
  obtain ⟨set, found, entries, _, _, _, _, room⟩ :=
    resolutions_eq_first_occurrences.1 sample whole
  refine ⟨whole, set, found, ?_, room⟩
  rw [ResolutionSet.labels, entries]
  decide +kernel

end Edid
