/-
**The video modes of the first extension.** Whatever the extension holds, reading it succeeds on a
buffer that holds the extension count, and what it offers is read off the maximal chain of data
blocks from byte 4 of the extension up to the limit that its third byte declares: the resolutions of
the codes in the payloads of the video data blocks, in order, and nothing of the first incomplete
block or behind it.

* `steps_eq`, `reading_of_counted`: the reading of an extension that is looked into, and of one that
  is not;
* `areas_take`, `areas_take_prefix`: what is left of the modes when the buffer is cut;
* `areas_congr`: what of an extension the modes come from;
* `exists_maximal_video_modes`: the modes against the maximal chain, with the failure of the walk
  and, for blocks that are laid out up to the limit, the round trip.
-/

import Edid.Extension.Video
import Edid.Proofs.BlockChain
import Edid.Proofs.Field
import Edid.Proofs.FirstOccurrences
import Edid.Sample

namespace Edid.Extension

open DataBlock

/-! ### What a chain advertises -/

/-- The resolutions that short video descriptors stand for, whatever their topmost bits. -/
def areasOf (payload : Bytes) : List Resolution :=
  payload.filterMap fun descriptor => VideoCode.resolution? (.ofNat (descriptor.toNat % 128))

/-- The resolutions of the video data blocks among some blocks, in order. -/
def videoAreas (blocks : List DataBlock) : List Resolution :=
  (blocks.filter fun block => block.tag = 2).flatMap fun block => areasOf block.payload

theorem videoAreas_append (first second : List DataBlock) :
    videoAreas (first ++ second) = videoAreas first ++ videoAreas second := by
  unfold videoAreas
  rw [List.filter_append, List.flatMap_append]

theorem ofDescriptor_eq (descriptor : UInt8) :
    VideoCode.ofDescriptor descriptor = .ofNat (descriptor.toNat % 128) := by
  apply UInt8.toNat_inj.mp
  have masked : (descriptor &&& 0x7F).toNat = descriptor.toNat % 128 := by
    rw [UInt8.toNat_and]
    exact Nat.and_two_pow_sub_one_eq_mod descriptor.toNat 7
  rw [VideoCode.ofDescriptor, masked, UInt8.toNat_ofNat']
  omega

theorem offered_descriptorStep (descriptor : UInt8) :
    (descriptorStep descriptor).offered? =
      VideoCode.resolution? (.ofNat (descriptor.toNat % 128)) := by
  rw [← ofDescriptor_eq, descriptorStep]
  cases VideoCode.resolution? (VideoCode.ofDescriptor descriptor) <;> rfl

theorem offered_blockSteps (block : DataBlock) :
    (blockSteps block).filterMap Step.offered? =
      if block.tag = 2 then areasOf block.payload else [] := by
  unfold blockSteps
  rw [List.filterMap_cons_none rfl]
  by_cases video : block.tag = 2
  · have tagged : block.tag = videoTag := video
    rw [if_pos tagged, if_pos video, List.filterMap_map]
    exact congrArg (block.payload.filterMap ·) (funext offered_descriptorStep)
  · have other : ¬ block.tag = videoTag := video
    rw [if_neg other, if_neg video]
    rfl

/-- **What a walk offers** is what its blocks advertise: a failure only adds a warning. -/
theorem offered_walkSteps (walk : Walk) :
    (walkSteps walk).filterMap Step.offered? = videoAreas walk.blocks := by
  have blocks : (walk.blocks.flatMap blockSteps).filterMap Step.offered? =
      videoAreas walk.blocks := by
    unfold videoAreas
    induction walk.blocks with
    | nil => rfl
    | cons block rest ih =>
        rw [List.flatMap_cons, List.filterMap_append, ih, offered_blockSteps]
        by_cases video : block.tag = 2
        · rw [if_pos video, List.filter_cons_of_pos (by simpa using video), List.flatMap_cons]
        · rw [if_neg video, List.filter_cons_of_neg (by simpa using video), List.nil_append]
  rw [walkSteps, List.filterMap_append, blocks]
  cases walk.failure <;> exact List.append_nil _

theorem offered_furtherSteps (declared : UInt8) :
    (furtherSteps declared).filterMap Step.offered? = [] := by
  unfold furtherSteps
  split <;> rfl

/-! ### The reading -/

/-- There is a first extension to look into: the base block declares one, the buffer holds it, and
its tag is that of CTA-861. -/
structure Inspected (bytes : Bytes) : Prop where
  long : 2 * blockLength ≤ bytes.length
  declared : octet bytes 0x7E ≠ 0
  tagged : octet bytes 128 = 2

instance (bytes : Bytes) : Decidable (Inspected bytes) :=
  decidable_of_iff (2 * blockLength ≤ bytes.length ∧ octet bytes 0x7E ≠ 0 ∧ octet bytes 128 = 2)
    ⟨fun ⟨long, declared, tagged⟩ => ⟨long, declared, tagged⟩,
      fun ⟨long, declared, tagged⟩ => ⟨long, declared, tagged⟩⟩

def firstWalk (bytes : Bytes) : Walk := walk bytes (.ofNat (octet bytes 130))

/-- The resolutions that the first extension advertises, if it is looked into. -/
def areas (bytes : Bytes) : List Resolution :=
  if Inspected bytes then videoAreas (firstWalk bytes).blocks else []

theorem ofNat_octet_eq_iff {bytes : Bytes} {offset value : Nat} (small : value < 256) :
    UInt8.ofNat (octet bytes offset) = .ofNat value ↔ octet bytes offset = value := by
  rw [← UInt8.toNat_inj, toNat_ofNat_octet, UInt8.toNat_ofNat', Nat.mod_eq_of_lt small]

theorem firstWalk_eq (bytes : Bytes) :
    firstWalk bytes = DataBlock.walk bytes (128 + octet bytes 130) 132 := by
  unfold firstWalk walk
  rw [toNat_ofNat_octet]
  rfl

/-- What is noted of a buffer without an extension to look into. -/
def absentStep (bytes : Bytes) : Step :=
  .note .debug ("No extension to inspect (" ++ toString (octet bytes 0x7E) ++ " declared, " ++
    toString bytes.length ++ " bytes)")

/-- What is noted of an extension of some other kind. -/
def foreignStep (bytes : Bytes) : Step :=
  .note .debug ("Extension tag 0x" ++ Hexadecimal.padded 2 (octet bytes 128) ++ " is not CTA-861")

/-- **The steps of the first extension**, by the numbers that decide about them. -/
theorem steps_eq {bytes : Bytes} (counted : 0x7F ≤ bytes.length) :
    steps bytes = .ok
      (if octet bytes 0x7E = 0 ∨ bytes.length < 2 * blockLength then [absentStep bytes]
      else furtherSteps (.ofNat (octet bytes 0x7E)) ++
        if octet bytes 128 = 2 then walkSteps (firstWalk bytes) else [foreignStep bytes]) := by
  have zero : UInt8.ofNat (octet bytes 0x7E) = 0 ↔ octet bytes 0x7E = 0 :=
    ofNat_octet_eq_iff (by decide)
  unfold steps countOffset
  rw [Field.byteAt_eq_octet (by omega)]
  show (if _ ∨ _ then _ else _) = _
  by_cases skipped : octet bytes 0x7E = 0 ∨ bytes.length < 2 * blockLength
  · rw [if_pos (skipped.imp_left zero.mpr), if_pos skipped, toNat_ofNat_octet]
    rfl
  · have long : 256 ≤ bytes.length := Nat.le_of_not_lt fun short => skipped (Or.inr short)
    have tag : UInt8.ofNat (octet bytes 128) = ctaTag ↔ octet bytes 128 = 2 :=
      ofNat_octet_eq_iff (by decide)
    rw [if_neg fun either => skipped (either.imp_left zero.mp), if_neg skipped]
    unfold blockLength
    rw [Field.byteAt_eq_octet (by omega)]
    show (if _ ≠ _ then _ else _) = _
    by_cases tagged : octet bytes 128 = 2
    · rw [if_neg (not_not_intro (tag.mpr tagged)), if_pos tagged,
        Field.byteAt_eq_octet (by omega)]
      rfl
    · rw [if_pos fun same => tagged (tag.mp same), if_neg tagged, toNat_ofNat_octet]
      rfl

/-- **The reading of the first extension**: it comes to its end on every buffer that holds the
extension count, and offers what the extension advertises. -/
theorem reading_of_counted {bytes : Bytes} (counted : 0x7F ≤ bytes.length) :
    (reading bytes).failure = none ∧ (reading bytes).offers = areas bytes := by
  unfold reading
  rw [steps_eq counted]
  refine ⟨rfl, ?_⟩
  unfold Reading.offers Reading.complete areas
  dsimp only
  by_cases skipped : octet bytes 0x7E = 0 ∨ bytes.length < 2 * blockLength
  · have unseen : ¬ Inspected bytes := fun ⟨long, declared, _⟩ =>
      skipped.elim declared (Nat.not_lt_of_le long)
    rw [if_pos skipped, if_neg unseen]
    rfl
  · rw [if_neg skipped, List.filterMap_append, offered_furtherSteps, List.nil_append]
    push Not at skipped
    obtain ⟨declared, long⟩ := skipped
    by_cases tagged : octet bytes 128 = 2
    · rw [if_pos tagged, if_pos ⟨long, declared, tagged⟩, offered_walkSteps]
    · rw [if_neg tagged, if_neg fun seen => tagged seen.tagged]
      rfl

theorem reading_eq {bytes : Bytes} (whole : blockLength ≤ bytes.length) :
    (reading bytes).failure = none ∧ (reading bytes).offers = areas bytes :=
  reading_of_counted (Nat.le_trans (by decide) whole)

/-! ### A buffer that is cut -/

section Cut

variable {bytes : Bytes} {length : Nat}

/-- The blocks of the first extension that end before a cut, if the extension is looked into even
so. -/
def blocksBefore (bytes : Bytes) (length : Nat) : List DataBlock :=
  if Inspected bytes ∧ 2 * blockLength ≤ length then
    (firstWalk bytes).blocks.filter fun block => block.stop ≤ length
  else []

/-- The blocks of the first extension, if it is looked into, that end behind a cut. -/
def blocksAfter (bytes : Bytes) (length : Nat) : List DataBlock :=
  if Inspected bytes then (firstWalk bytes).blocks.filter fun block => length < block.stop
  else []

theorem inspected_take_iff (enough : 2 * blockLength ≤ length) :
    Inspected (bytes.take length) ↔ Inspected bytes := by
  have kept : ∀ offset < 256, octet (bytes.take length) offset = octet bytes offset :=
    fun offset early => octet_take (early.trans_le enough)
  have long : 2 * blockLength ≤ (bytes.take length).length ↔ 2 * blockLength ≤ bytes.length := by
    rw [List.length_take, Nat.le_min]
    exact and_iff_right enough
  constructor
  · rintro ⟨held, declared, tagged⟩
    rw [kept _ (by decide)] at declared tagged
    exact ⟨long.mp held, declared, tagged⟩
  · rintro ⟨held, declared, tagged⟩
    refine ⟨long.mpr held, ?_, ?_⟩
    · rwa [kept _ (by decide)]
    · rwa [kept _ (by decide)]

theorem blocks_firstWalk_take (enough : 2 * blockLength ≤ length) :
    (firstWalk (bytes.take length)).blocks =
      (firstWalk bytes).blocks.filter fun block => block.stop ≤ length := by
  have limit : octet (bytes.take length) 130 = octet bytes 130 :=
    octet_take (Nat.lt_of_lt_of_le (by decide) enough)
  rw [firstWalk_eq, firstWalk_eq, limit, blocks_walk_take]

/-- **What is left of the modes** are those of the blocks that end before the cut. -/
theorem areas_take (bytes : Bytes) (length : Nat) :
    areas (bytes.take length) = videoAreas (blocksBefore bytes length) := by
  unfold areas blocksBefore
  by_cases enough : 2 * blockLength ≤ length
  · simp only [inspected_take_iff enough, blocks_firstWalk_take enough, enough, and_true]
    split <;> rfl
  · have unseen : ¬ Inspected (bytes.take length) := fun seen =>
      enough (seen.long.trans (List.length_take_le _ _))
    rw [if_neg unseen, if_neg fun both => enough both.2]
    rfl

/-- A cut behind the first two blocks takes away the modes of the blocks that end behind it. -/
theorem areas_eq_append (enough : 2 * blockLength ≤ length) :
    areas bytes = areas (bytes.take length) ++ videoAreas (blocksAfter bytes length) := by
  rw [areas_take, ← videoAreas_append]
  unfold areas blocksBefore blocksAfter
  by_cases inspected : Inspected bytes
  · rw [if_pos inspected, if_pos ⟨inspected, enough⟩, if_pos inspected, firstWalk_eq,
      filter_append_filter_walk]
  · rw [if_neg inspected, if_neg fun both => inspected both.1, if_neg inspected]
    rfl

/-- **A cut only takes a tail of the modes away**, wherever it falls. -/
theorem areas_take_prefix (bytes : Bytes) (length : Nat) :
    areas (bytes.take length) <+: areas bytes := by
  by_cases enough : 2 * blockLength ≤ length
  · exact ⟨_, (areas_eq_append enough).symm⟩
  · rw [areas_take, blocksBefore, if_neg fun both => enough both.2]
    exact List.nil_prefix

end Cut

/-! ### Buffers alike in what is read of the extension -/

section Alike

variable {first second : Bytes}

theorem inspected_congr (length : first.length = second.length)
    (declared : octet first 0x7E = octet second 0x7E)
    (tag : 2 * blockLength ≤ first.length → octet first 128 = octet second 128) :
    Inspected first ↔ Inspected second := by
  constructor
  · rintro ⟨long, some, tagged⟩
    exact ⟨length ▸ long, declared ▸ some, tag long ▸ tagged⟩
  · rintro ⟨long, some, tagged⟩
    rw [← length] at long
    exact ⟨long, declared.symm ▸ some, (tag long).symm ▸ tagged⟩

theorem firstWalk_congr (length : first.length = second.length)
    (limit : octet first 130 = octet second 130)
    (blocks : ∀ offset, 132 ≤ offset → offset < min first.length (128 + octet first 130) →
      octet first offset = octet second offset) : firstWalk first = firstWalk second := by
  rw [firstWalk_eq, firstWalk_eq, ← limit]
  refine walk_congr length fun offset behind before => ?_
  rcases Nat.lt_or_ge offset first.length with inside | outside
  · exact getElem?_eq_of_octet length (blocks offset behind (Nat.lt_min.mpr ⟨inside, before⟩))
  · rw [List.getElem?_eq_none outside, List.getElem?_eq_none (length ▸ outside)]

/-- **What is read of an extension** are its tag, its limit, and the data blocks up to the limit,
and nothing at all if the first two blocks are not there. -/
theorem areas_congr (length : first.length = second.length)
    (declared : octet first 0x7E = octet second 0x7E)
    (tag : 2 * blockLength ≤ first.length → octet first 128 = octet second 128)
    (limit : 2 * blockLength ≤ first.length → octet first 130 = octet second 130)
    (blocks : 2 * blockLength ≤ first.length → ∀ offset, 132 ≤ offset →
      offset < min first.length (128 + octet first 130) →
        octet first offset = octet second offset) : areas first = areas second := by
  have same := inspected_congr length declared tag
  unfold areas
  by_cases inspected : Inspected first
  · rw [if_pos inspected, if_pos (same.mp inspected),
      firstWalk_congr length (limit inspected.long) (blocks inspected.long)]
  · rw [if_neg inspected, if_neg fun also => inspected (same.mpr also)]

end Alike

/-! ### The modes against the maximal chain -/

theorem videoAreas_layOut (position : Nat) (contents : List Content) :
    videoAreas (Content.layOut position contents) =
      (contents.filter fun content => content.tag = 2).flatMap fun content =>
        areasOf content.payload := by
  unfold videoAreas
  induction contents generalizing position with
  | nil => rfl
  | cons content rest ih =>
      rw [Content.layOut]
      by_cases video : content.tag = 2
      · rw [List.filter_cons_of_pos (by simpa using video),
          List.filter_cons_of_pos (by simpa using video), List.flatMap_cons, List.flatMap_cons, ih]
      · rw [List.filter_cons_of_neg (by simpa using video),
          List.filter_cons_of_neg (by simpa using video), ih]

theorem firstWalk_of_laid {bytes : Bytes} {contents : List Content}
    (laid : Content.encodeAll contents <+: bytes.drop 132)
    (filled : octet bytes 130 = 4 + (Content.encodeAll contents).length) :
    firstWalk bytes = ⟨Content.layOut 132 contents, none⟩ := by
  have maximal : MaximalChain bytes (128 + octet bytes 130) 132 (Content.layOut 132 contents)
      (128 + octet bytes 130) := maximal_layOut laid (by omega)
  rw [firstWalk_eq, walk_of_maximal maximal, breakAt, if_pos (Nat.le_refl _)]

/-- **The video modes of an extension that is looked into.** There is one maximal chain of data
blocks, and reading the extension inserts exactly what its video data blocks advertise: behind the
members of the set come those of the modes that are new, each where it occurs first, as far as there
is room. The walk ends well exactly when the chain reaches the limit, and otherwise with the error
of the first block that is not complete. Blocks that are laid out up to the limit are read back. -/
theorem exists_maximal_video_modes {bytes : Bytes} (inspected : Inspected bytes)
    (set : ResolutionSet) :
    ∃ blocks last,
      (∀ otherBlocks otherLast,
        MaximalChain bytes (128 + octet bytes 130) 132 otherBlocks otherLast ↔
          otherBlocks = blocks ∧ otherLast = last) ∧
      (reading bytes).offers = videoAreas blocks ∧
      ((reading bytes).enterOrFail set).run.value = .ok (set.insertAll (videoAreas blocks)) ∧
      (set.insertAll (videoAreas blocks)).entries =
        (set.entries ++ videoAreas blocks).eraseDups.take ResolutionSet.capacity ∧
      (firstWalk bytes).blocks = blocks ∧
      ((firstWalk bytes).failure = none ↔
        last = 128 + octet bytes 130 ∨ 128 + octet bytes 130 ≤ 132) ∧
      ((firstWalk bytes).failure ≠ none →
        (firstWalk bytes).failure = some (if last < bytes.length then .malformedBlock last
          else .outOfRange last 1 bytes.length)) ∧
      ∀ contents : List Content, Content.encodeAll contents <+: bytes.drop 132 →
        octet bytes 130 = 4 + (Content.encodeAll contents).length →
        firstWalk bytes = ⟨Content.layOut 132 contents, none⟩ ∧
          (reading bytes).offers = (contents.filter fun content => content.tag = 2).flatMap
            fun content => areasOf content.payload := by
  obtain ⟨blocks, last, maximal⟩ := exists_maximal bytes (128 + octet bytes 130) 132
  have walked : firstWalk bytes = ⟨blocks, breakAt bytes (128 + octet bytes 130) last⟩ := by
    rw [firstWalk_eq, walk_of_maximal maximal]
  have whole : blockLength ≤ bytes.length := Nat.le_trans (by decide) inspected.long
  obtain ⟨complete, offered⟩ := reading_eq whole
  rw [areas, if_pos inspected] at offered
  have modes : (reading bytes).offers = videoAreas blocks := by rw [offered, walked]
  refine ⟨blocks, last, ?_, modes, ?_, set.entries_insertAll _, ?_, ?_, ?_, ?_⟩
  · intro otherBlocks otherLast
    constructor
    · exact maximal.unique
    · rintro ⟨rfl, rfl⟩
      exact maximal
  · rw [Reading.value_enterOrFail, complete, modes]
  · rw [walked]
  · rw [walked]
    exact breakAt_eq_none_iff maximal.chain
  · rw [walked]
    exact breakAt_of_ne_none
  · intro contents laid filled
    have same := firstWalk_of_laid laid filled
    rw [offered, same]
    exact ⟨rfl, videoAreas_layOut 132 contents⟩

def sampleContents : List Content :=
  [ ⟨2, [0x90, 0x05, 0x04, 0x03, 0x02, 0x01, 0x11, 0x12, 0x13, 0x14, 0x1F], by decide, by decide⟩,
    ⟨1, [0x09, 0x07, 0x07], by decide, by decide⟩,
    ⟨4, [0x01, 0x00, 0x00], by decide, by decide⟩ ]

/-- The sample is looked into, and its blocks fill the space up to the limit. -/
theorem video_modes_sample :
    Inspected sample ∧ Content.encodeAll sampleContents <+: sample.drop 132 ∧
      octet sample 130 = 4 + (Content.encodeAll sampleContents).length ∧
      (firstWalk sample).failure = none ∧
      ((reading sample).enterOrFail .empty).run.value = .ok (ResolutionSet.empty.insertAll
        [ .progressive 1920 1080, .interlacedArea 1920 1080, .progressive 1280 720,
          .progressive 720 480, .progressive 720 480, .progressive 640 480, .progressive 720 576,
          .progressive 720 576, .progressive 1280 720, .interlacedArea 1920 1080,
          .progressive 1920 1080 ]) ∧
      ∃ set, ((reading sample).enterOrFail .empty).run.value = .ok set ∧
        set.entries = [ .progressive 1920 1080, .interlacedArea 1920 1080, .progressive 1280 720,
          .progressive 720 480, .progressive 640 480, .progressive 720 576 ] := by
  have inspected : Inspected sample := by decide +kernel
  have laid : Content.encodeAll sampleContents <+: sample.drop 132 := by decide +kernel
  have filled : octet sample 130 = 4 + (Content.encodeAll sampleContents).length := by
    decide +kernel
  obtain ⟨blocks, last, _, modes, entered, entries, _, _, _, laidOut⟩ :=
    exists_maximal_video_modes inspected .empty
  obtain ⟨walked, read⟩ := laidOut sampleContents laid filled
  rw [← modes, read] at entered entries
  exact ⟨inspected, laid, filled, by rw [walked], entered, _, entered,
    entries.trans (by decide +kernel)⟩

end Edid.Extension
