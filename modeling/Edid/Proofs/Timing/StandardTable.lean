/-
**The table of standard timings, written and read back.** A timing is written as a pair of bytes
when its width is a multiple of eight and its rate is in reach. One timing of that kind has none:
its pair would be `(1, 1)`, which is kept for a slot that is not used.

* `Stores`: the pair of a timing in numbers, which either one determines;
* `decode_eq_some_iff`, `Writable.stores`: reading and writing are both that relation;
* `AspectRatio.eq_lines_iff`: the height of a width is the one integer that is within half a line of
  the exact height, or half a line above it;
* `AspectRatio.lines_injective`: at every width that can be written the four shapes give different
  heights;
* `standard_table_reads_back`: tables are read as they were written, pairs are written as they were
  read, and areas are told apart by the width and the shape.
-/

import Mathlib.Data.List.Forall2
import Mathlib.Data.List.ReduceOption
import Mathlib.Tactic.Linarith
import Mathlib.Tactic.Zify
import Edid.Proofs.FirstOccurrences
import Edid.Proofs.Timing.Standard
import Edid.Sample

namespace Edid

/-! ### Shapes -/

namespace AspectRatio

/-- The two bits of a shape. -/
def bits : AspectRatio → UInt8
  | sixteenByTen => 0
  | fourByThree => 1
  | fiveByFour => 2
  | sixteenByNine => 3

/-- The sides of a shape, across and down. -/
def sides : AspectRatio → Nat × Nat
  | sixteenByTen => (16, 10)
  | fourByThree => (4, 3)
  | fiveByFour => (5, 4)
  | sixteenByNine => (16, 9)

theorem sides_eq (ratio : AspectRatio) :
    ratio.sides = (ratio.across.toNat, ratio.down.toNat) := by
  cases ratio <;> rfl

theorem toNat_lines_eq (ratio : AspectRatio) (width : UInt16) :
    (ratio.lines width).toNat =
      (2 * width.toNat * ratio.sides.2 + ratio.sides.1) / (2 * ratio.sides.1) := by
  rw [toNat_lines, sides_eq]

theorem sides_pos (ratio : AspectRatio) : 0 < ratio.sides.1 := by
  rw [sides_eq]
  exact ratio.across_pos

/-- **The height of a width** is the integer that is nearest to the exact one. -/
theorem eq_lines_iff (ratio : AspectRatio) (width : UInt16) (height : ℤ) :
    height = (ratio.lines width).toNat ↔
      2 * width.toNat * ratio.sides.2 - ratio.sides.1 < 2 * ratio.sides.1 * height ∧
        2 * ratio.sides.1 * height ≤ 2 * width.toNat * ratio.sides.2 + ratio.sides.1 := by
  have positive : (0 : ℤ) < 2 * ratio.sides.1 := by
    have := ratio.sides_pos
    omega
  have quotient : ((ratio.lines width).toNat : ℤ) =
      (2 * width.toNat * ratio.sides.2 + ratio.sides.1) / (2 * ratio.sides.1) := by
    rw [toNat_lines_eq]
    push_cast
    rfl
  rw [eq_comm, quotient, Int.ediv_eq_iff_of_pos positive, mul_comm height]
  constructor
  · rintro ⟨least, greatest⟩
    exact ⟨by omega, least⟩
  · rintro ⟨least, greatest⟩
    exact ⟨greatest, by omega⟩

theorem bits_injective : Function.Injective bits := by
  intro first second same
  cases first <;> cases second <;> first | rfl | exact absurd same (by decide)

/-- The bits of a shape on top of six others. -/
theorem toNat_bits_or (ratio : AspectRatio) {low : UInt8} (small : low.toNat < 64) :
    (ratio.bits <<< 6 ||| low).toNat = 64 * ratio.bits.toNat + low.toNat := by
  have shifted : (ratio.bits <<< 6).toNat = ratio.bits.toNat <<< 6 := by
    cases ratio <;> rfl
  have fits : low.toNat < 2 ^ 6 := small
  rw [UInt8.toNat_or, shifted, ← Nat.shiftLeft_add_eq_or_of_lt fits, Nat.shiftLeft_eq]
  omega

theorem bits_ofByte (byte : UInt8) : (ofByte byte).bits = byte >>> 6 := by
  unfold ofByte
  rcases shiftRight_six_cases byte with zero | one | two | three
  · rw [zero]
    rfl
  · rw [one]
    rfl
  · rw [two]
    rfl
  · rw [three]
    rfl

/-- **The heights of a width** that can be written are different for different shapes. -/
theorem lines_injective {width : UInt16} (wide : 248 ≤ width.toNat) :
    Function.Injective fun ratio : AspectRatio => ratio.lines width := by
  intro first second same
  have heights : (2 * width.toNat * first.sides.2 + first.sides.1) / (2 * first.sides.1) =
      (2 * width.toNat * second.sides.2 + second.sides.1) / (2 * second.sides.1) := by
    rw [← toNat_lines_eq, ← toNat_lines_eq]
    exact congrArg UInt16.toNat same
  -- Exact heights are at least a twentieth of the width apart, which is more than rounding takes.
  cases first <;> cases second <;> simp only [sides] at heights <;>
    first | rfl | (exfalso; omega)

end AspectRatio

namespace StandardTiming

/-! ### Timings and their pairs -/

/-- The timings that have a pair of their own. -/
structure Writable (timing : StandardTiming) : Prop where
  whole : timing.width.toNat % 8 = 0
  narrowest : 248 ≤ timing.width.toNat
  widest : timing.width.toNat ≤ 2288
  slowest : 60 ≤ timing.refresh.toNat
  fastest : timing.refresh.toNat ≤ 123
  unmarked : ¬ (timing.width = 256 ∧ timing.aspect = .sixteenByTen ∧ timing.refresh = 61)

instance (timing : StandardTiming) : Decidable timing.Writable :=
  decidable_of_iff
    (timing.width.toNat % 8 = 0 ∧ 248 ≤ timing.width.toNat ∧ timing.width.toNat ≤ 2288 ∧
      60 ≤ timing.refresh.toNat ∧ timing.refresh.toNat ≤ 123 ∧
      ¬ (timing.width = 256 ∧ timing.aspect = .sixteenByTen ∧ timing.refresh = 61))
    ⟨fun ⟨whole, narrowest, widest, slowest, fastest, unmarked⟩ =>
      ⟨whole, narrowest, widest, slowest, fastest, unmarked⟩,
     fun ⟨whole, narrowest, widest, slowest, fastest, unmarked⟩ =>
      ⟨whole, narrowest, widest, slowest, fastest, unmarked⟩⟩

/-- The pair of a timing. -/
def encode (timing : StandardTiming) : UInt8 × UInt8 :=
  (.ofNat (timing.width.toNat / 8 - 31), timing.aspect.bits <<< 6 ||| (timing.refresh - 60))

/-- What a pair says about its timing, in numbers. -/
structure Stores (first second : UInt8) (timing : StandardTiming) : Prop where
  width : timing.width.toNat = (first.toNat + 31) * 8
  shape : timing.aspect.bits.toNat = second.toNat / 64
  refresh : timing.refresh.toNat = second.toNat % 64 + 60

section Pairs

variable {first second : UInt8} {timing : StandardTiming}

theorem Stores.timing_unique {other : StandardTiming} (one : Stores first second timing)
    (another : Stores first second other) : timing = other := by
  obtain ⟨width, aspect, refresh⟩ := timing
  obtain ⟨otherWidth, otherAspect, otherRefresh⟩ := other
  have widths : width = otherWidth := UInt16.toNat_inj.mp (one.width.trans another.width.symm)
  have shapes : aspect = otherAspect :=
    AspectRatio.bits_injective (UInt8.toNat_inj.mp (one.shape.trans another.shape.symm))
  have rates : refresh = otherRefresh := UInt8.toNat_inj.mp (one.refresh.trans another.refresh.symm)
  rw [widths, shapes, rates]

/-- What is read from a pair is what it stores, even from the pair of the marker. -/
theorem stores_read (first second : UInt8) :
    Stores first second ⟨(first.toUInt16 + 31) * 8, .ofByte second, (second &&& 0x3F) + 60⟩ where
  width := toNat_width first
  shape := by rw [AspectRatio.bits_ofByte, AspectRatio.toNat_shiftRight_six]
  refresh := by
    have low : (second &&& 0x3F).toNat = second.toNat % 64 := by
      rw [UInt8.toNat_and]
      exact Nat.and_two_pow_sub_one_eq_mod second.toNat 6
    rw [UInt8.toNat_add, low]
    show (second.toNat % 64 + 60) % 256 = _
    omega

/-- **Reading a pair** gives the timing that it stores, unless it is the marker. -/
theorem decode_eq_some_iff :
    decode first second = some timing ↔
      ¬ (first = 1 ∧ second = 1) ∧ Stores first second timing := by
  unfold decode
  split_ifs with marker
  · exact ⟨fun none => absurd none (by simp), fun both => absurd marker both.1⟩
  · rw [Option.some_inj]
    constructor
    · rintro rfl
      exact ⟨marker, stores_read first second⟩
    · rintro ⟨-, stores⟩
      exact (stores_read first second).timing_unique stores

/-- The marker is the pair of one timing that is never read. -/
theorem Stores.marker_iff (stores : Stores first second timing) :
    (first = 1 ∧ second = 1) ↔
      timing.width = 256 ∧ timing.aspect = .sixteenByTen ∧ timing.refresh = 61 := by
  have shape : timing.aspect = .sixteenByTen ↔ timing.aspect.bits.toNat = 0 := by
    rw [← AspectRatio.bits_injective.eq_iff, ← UInt8.toNat_inj]
    rfl
  rw [shape, ← UInt8.toNat_inj, ← UInt8.toNat_inj, ← UInt8.toNat_inj, ← UInt16.toNat_inj,
    stores.width, stores.shape, stores.refresh]
  show (first.toNat = 1 ∧ second.toNat = 1) ↔
    (first.toNat + 31) * 8 = 256 ∧ second.toNat / 64 = 0 ∧ second.toNat % 64 + 60 = 61
  omega

theorem Stores.writable (stores : Stores first second timing)
    (used : ¬ (first = 1 ∧ second = 1)) : timing.Writable := by
  obtain ⟨width, -, refresh⟩ := id stores
  have small := first.toNat_lt
  exact
    { whole := by omega
      narrowest := by omega
      widest := by omega
      slowest := by omega
      fastest := by omega
      unmarked := mt stores.marker_iff.mpr used }

/-- **Writing a timing** gives a pair that stores it. -/
theorem Writable.stores (writable : timing.Writable) :
    Stores timing.encode.1 timing.encode.2 timing := by
  obtain ⟨whole, narrowest, widest, slowest, fastest, -⟩ := writable
  have narrow : timing.encode.1.toNat = timing.width.toNat / 8 - 31 := by
    rw [encode, UInt8.toNat_ofNat', Nat.mod_eq_of_lt]
    omega
  have rate : (timing.refresh - 60).toNat = timing.refresh.toNat - 60 :=
    UInt8.toNat_sub_of_le _ _ (UInt8.le_iff_toNat_le.mpr slowest)
  have second : timing.encode.2.toNat =
      64 * timing.aspect.bits.toNat + (timing.refresh.toNat - 60) := by
    rw [encode, AspectRatio.toNat_bits_or _ (by rw [rate]; omega), rate]
  exact
    { width := by omega
      shape := by omega
      refresh := by omega }

/-- A pair that stores a timing is the one that is written for it. -/
theorem Stores.encode_eq (stores : Stores first second timing)
    (writable : timing.Writable) : timing.encode = (first, second) := by
  have written := writable.stores
  have firsts : timing.encode.1.toNat = first.toNat := by
    have width := stores.width
    have again := written.width
    omega
  have seconds : timing.encode.2.toNat = second.toNat := by
    have shape := stores.shape
    have refresh := stores.refresh
    have shapeAgain := written.shape
    have refreshAgain := written.refresh
    omega
  exact Prod.ext (UInt8.toNat_inj.mp firsts) (UInt8.toNat_inj.mp seconds)

theorem decode_encode (writable : timing.Writable) :
    decode timing.encode.1 timing.encode.2 = some timing :=
  decode_eq_some_iff.mpr
    ⟨mt writable.stores.marker_iff.mp writable.unmarked, writable.stores⟩

/-- **A pair that is used** is read as a timing, for which the same pair is written. -/
theorem exists_decode (used : ¬ (first = 1 ∧ second = 1)) :
    ∃ timing, decode first second = some timing ∧ timing.Writable ∧
      timing.encode = (first, second) := by
  have stores := stores_read first second
  have writable := stores.writable used
  exact ⟨_, decode_eq_some_iff.mpr ⟨used, stores⟩, writable, stores.encode_eq writable⟩

/-- **Areas** are told apart by the first byte and by the bits of the shape. -/
theorem resolution_eq_iff {third fourth : UInt8} {other : StandardTiming}
    (one : decode first second = some timing) (another : decode third fourth = some other) :
    timing.resolution = other.resolution ↔ first = third ∧ second >>> 6 = fourth >>> 6 := by
  obtain ⟨-, stores⟩ := decode_eq_some_iff.mp one
  obtain ⟨-, stored⟩ := decode_eq_some_iff.mp another
  have widths : timing.width = other.width ↔ first = third := by
    rw [← UInt16.toNat_inj, stores.width, stored.width, ← UInt8.toNat_inj]
    omega
  have shapes : timing.aspect = other.aspect ↔ second >>> 6 = fourth >>> 6 := by
    rw [← AspectRatio.bits_injective.eq_iff, ← UInt8.toNat_inj, stores.shape, stored.shape,
      ← AspectRatio.toNat_shiftRight_six, ← AspectRatio.toNat_shiftRight_six, UInt8.toNat_inj]
  have areas : timing.resolution = other.resolution ↔
      timing.width = other.width ∧ timing.height = other.height := by
    simp [resolution, Resolution.progressive]
  rw [areas, ← widths, ← shapes]
  refine and_congr_right fun same => ?_
  have wide : 248 ≤ other.width.toNat := by
    rw [stored.width]
    omega
  rw [height, height, same]
  exact (AspectRatio.lines_injective wide).eq_iff

end Pairs

/-! ### Tables -/

/-- The pair of a slot, the marker for one that is not used. -/
def slotPair : Option StandardTiming → UInt8 × UInt8
  | none => (1, 1)
  | some timing => timing.encode

/-- The bytes of slots, one pair after the other. -/
def tableOf : List (Option StandardTiming) → Bytes
  | [] => []
  | slot :: rest => (slotPair slot).1 :: (slotPair slot).2 :: tableOf rest

/-- The area of a timing, its height rounded to the nearest integer, halves up. -/
structure AreaOf (timing : StandardTiming) (area : Resolution) : Prop where
  width : area.width = timing.width
  progressive : area.interlaced = false
  least : 2 * (timing.width.toNat * timing.aspect.sides.2) <
    timing.aspect.sides.1 * (2 * area.height.toNat + 1)
  greatest : timing.aspect.sides.1 * (2 * area.height.toNat) ≤
    2 * (timing.width.toNat * timing.aspect.sides.2) + timing.aspect.sides.1

theorem areaOf_resolution (timing : StandardTiming) : AreaOf timing timing.resolution := by
  obtain ⟨least, greatest⟩ :=
    (timing.aspect.eq_lines_iff timing.width timing.resolution.height.toNat).mp rfl
  refine ⟨rfl, rfl, ?_, ?_⟩
  · zify
    linarith
  · zify
    linarith

section Tables

variable {slots : List (Option StandardTiming)}

theorem length_tableOf (slots : List (Option StandardTiming)) :
    (tableOf slots).length = 2 * slots.length := by
  induction slots with
  | nil => rfl
  | cons slot rest ih =>
      rw [tableOf, List.length_cons, List.length_cons, ih, List.length_cons]
      omega

theorem pairs_tableOf (slots : List (Option StandardTiming)) :
    pairs (tableOf slots) = slots.map slotPair := by
  induction slots with
  | nil => rfl
  | cons slot rest ih => rw [tableOf, pairs, ih, List.map_cons]

theorem decode_slotPair {slot : Option StandardTiming}
    (writable : ∀ timing ∈ slot, timing.Writable) :
    decode (slotPair slot).1 (slotPair slot).2 = slot := by
  cases slot with
  | none => rfl
  | some timing => exact decode_encode (writable timing rfl)

/-- The offers of the pairs of slots are the areas of those that are used. -/
theorem offered_slotPairs (writable : ∀ slot ∈ slots, ∀ timing ∈ slot, timing.Writable) :
    ((slots.map slotPair).flatMap pairSteps).filterMap Step.offered? =
      slots.reduceOption.map resolution := by
  induction slots with
  | nil => rfl
  | cons slot rest ih =>
      have first : (pairSteps (slotPair slot)).filterMap Step.offered? =
          (slot.map resolution).toList := by
        have read := decode_slotPair (writable slot List.mem_cons_self)
        rw [← congrArg (Option.map resolution) read, resolution_decode]
        exact offered_pairSteps _ _
      rw [List.map_cons, List.flatMap_cons, List.filterMap_append, first,
        ih fun other member => writable other (List.mem_cons_of_mem slot member)]
      cases slot <;> rfl

theorem getElem?_tableOf {place : Nat} {slot : Option StandardTiming}
    (found : slots[place]? = some slot) :
    (tableOf slots)[2 * place]? = some (slotPair slot).1 ∧
      (tableOf slots)[2 * place + 1]? = some (slotPair slot).2 := by
  induction slots generalizing place with
  | nil => exact absurd found (by simp)
  | cons first rest ih =>
      cases place with
      | zero =>
          obtain rfl := Option.some.inj found
          exact ⟨rfl, rfl⟩
      | succ place => exact ih found

/-- What a slot of the table of a buffer is read as. -/
def ReadsAs (bytes : Bytes) (place : Nat) (slot : Option StandardTiming) : Prop :=
  ∃ first second, Field.byteAt bytes (0x26 + 2 * place) = .ok first ∧
    Field.byteAt bytes (0x26 + 2 * place + 1) = .ok second ∧ decode first second = slot

/-- **A table** is read as it was written, slot by slot and as a source. -/
theorem reads_table {bytes : Bytes} (long : 0x36 ≤ bytes.length) (eight : slots.length = 8)
    (writable : ∀ slot ∈ slots, ∀ timing ∈ slot, timing.Writable) :
    (∀ place slot, slots[place]? = some slot →
      ReadsAs (overwrite bytes 0x26 (tableOf slots)) place slot) ∧
    ∃ areas, List.Forall₂ AreaOf slots.reduceOption areas ∧
      ∀ set, ((reading (overwrite bytes 0x26 (tableOf slots))).enterOrFail set).run.value =
          .ok (set.insertAll areas) ∧
        (set.insertAll areas).entries =
          (set.entries ++ areas).eraseDups.take ResolutionSet.capacity := by
  have length : (tableOf slots).length = 16 := by rw [length_tableOf, eight]
  have fits : 0x26 + (tableOf slots).length ≤ bytes.length := by
    rw [length]
    exact long
  constructor
  · intro place slot found
    obtain ⟨first, second⟩ := getElem?_tableOf found
    exact ⟨_, _, Field.byteAt_overwrite fits first, Field.byteAt_overwrite fits second,
      decode_slotPair (writable slot (List.mem_of_getElem? found))⟩
  · refine ⟨slots.reduceOption.map resolution, ?_, fun set => ⟨?_, set.entries_insertAll _⟩⟩
    · rw [List.forall₂_map_right_iff, List.forall₂_same]
      exact fun timing _ => areaOf_resolution timing
    · have table : Field.slice (overwrite bytes 0x26 (tableOf slots)) offset (2 * count) =
          .ok (tableOf slots) := by
        have written := Field.slice_overwrite fits
        rw [length] at written
        exact written
      have complete : reading (overwrite bytes 0x26 (tableOf slots)) =
          .complete ((slots.map slotPair).flatMap pairSteps) := by
        rw [reading, table, ← pairs_tableOf]
      rw [complete, Reading.value_enterOrFail, ← offered_slotPairs writable]
      rfl

end Tables

end StandardTiming

open StandardTiming

/-- **The table of standard timings.** Eight slots that are written into a buffer, each of them
unused or a timing that has a pair, are read back one by one, and the source inserts the areas of
the timings among them, in order, into any set: they stand behind its members, each where it occurs
first, as far as there is room. A pair other than the marker is read as a timing for which this pair
is written. Two pairs that are used have the same area exactly when their first bytes and the bits
of their shapes are the same. -/
theorem standard_table_reads_back :
    (∀ (bytes : Bytes) (slots : List (Option StandardTiming)), 0x36 ≤ bytes.length →
      slots.length = 8 → (∀ slot ∈ slots, ∀ timing ∈ slot, timing.Writable) →
      (∀ place slot, slots[place]? = some slot →
        ReadsAs (overwrite bytes 0x26 (tableOf slots)) place slot) ∧
      ∃ areas, List.Forall₂ AreaOf slots.reduceOption areas ∧
        ∀ set, ((reading (overwrite bytes 0x26 (tableOf slots))).enterOrFail set).run.value =
            .ok (set.insertAll areas) ∧
          (set.insertAll areas).entries =
            (set.entries ++ areas).eraseDups.take ResolutionSet.capacity) ∧
    (∀ first second : UInt8, ¬ (first = 1 ∧ second = 1) →
      ∃ timing, decode first second = some timing ∧ timing.Writable ∧
        timing.encode = (first, second)) ∧
    ∀ (first second third fourth : UInt8) (one other : StandardTiming),
      decode first second = some one → decode third fourth = some other →
      (one.resolution = other.resolution ↔ first = third ∧ second >>> 6 = fourth >>> 6) :=
  ⟨fun _ _ long eight writable => reads_table long eight writable,
    fun _ _ used => exists_decode used,
    fun _ _ _ _ _ _ one another => resolution_eq_iff one another⟩

/-- Slots of a table, two of them with the same area. -/
def StandardTiming.mixedSlots : List (Option StandardTiming) :=
  [some ⟨640, .fourByThree, 60⟩, none, some ⟨1920, .sixteenByNine, 60⟩,
    some ⟨640, .fourByThree, 75⟩, some ⟨256, .sixteenByTen, 60⟩, none, none, none]

/-- The table of these slots in the sample, the pair of its fifth one and the areas of two others.
-/
theorem standard_table_reads_back_sample :
    0x36 ≤ sample.length ∧ mixedSlots.length = 8 ∧
      (∀ slot ∈ mixedSlots, ∀ timing ∈ slot, timing.Writable) ∧
      ReadsAs (overwrite sample 0x26 (tableOf mixedSlots)) 1 none ∧
      ReadsAs (overwrite sample 0x26 (tableOf mixedSlots)) 4 (some ⟨256, .sixteenByTen, 60⟩) ∧
      (∃ areas, List.Forall₂ AreaOf mixedSlots.reduceOption areas ∧
        ((reading (overwrite sample 0x26 (tableOf mixedSlots))).enterOrFail .empty).run.value =
          .ok (ResolutionSet.empty.insertAll areas) ∧
        (ResolutionSet.empty.insertAll areas).entries =
          areas.eraseDups.take ResolutionSet.capacity) ∧
      (∃ timing, decode 1 0 = some timing ∧ timing.Writable ∧ timing.encode = (1, 0)) ∧
      (⟨640, .fourByThree, 60⟩ : StandardTiming).resolution =
        (⟨640, .fourByThree, 75⟩ : StandardTiming).resolution := by
  have long : 0x36 ≤ sample.length := by decide +kernel
  have eight : mixedSlots.length = 8 := rfl
  have writable : ∀ slot ∈ mixedSlots, ∀ timing ∈ slot, timing.Writable := by decide +kernel
  obtain ⟨written, read, areas⟩ := standard_table_reads_back
  obtain ⟨slots, offered, areasOf, entered⟩ := written sample mixedSlots long eight writable
  refine ⟨long, eight, writable, slots 1 none rfl, slots 4 _ rfl, ⟨offered, areasOf, entered _⟩,
    read 1 0 (by decide), ?_⟩
  exact (areas 0x31 0x40 0x31 0x4F _ _ (by decide +kernel) (by decide +kernel)).mpr (by decide)

end Edid
