/-
**What lies behind the first extension.** The walk through the first extension runs up to a limit
that the extension declares in one byte, and that byte is not checked against the length of a
block. So the walk stays in the first two blocks of a buffer when the byte is at most 128, and may
run on into the blocks behind them when it is not.

* `resolutions_take_two_blocks`: the bytes behind the first two blocks only ever add resolutions at
  the end, and change the enumeration exactly when a video data block that ends behind the second
  block lists a resolution that the first two blocks do not advertise;
* `resolutions_spilled_ne`: they do change it for some buffers.
-/

import Edid.Proofs.Advertised

namespace Edid

open FirstOccurrences Extension

variable {bytes : Bytes}

/-- The blocks that the walk through the first extension finds behind the first two blocks of a
buffer, if there is an extension to look into. -/
def blocksBehind (bytes : Bytes) : List DataBlock :=
  if Inspected bytes then
    (firstWalk bytes).blocks.filter fun block => 2 * blockLength < block.stop
  else []

/-- What a buffer advertises is what its first two blocks advertise, and the video modes behind
them. -/
theorem advertised_eq_append (bytes : Bytes) :
    advertised bytes =
      advertised (bytes.take (2 * blockLength)) ++ videoAreas (blocksBehind bytes) := by
  have modes : areas bytes =
      areas (bytes.take (2 * blockLength)) ++ videoAreas (blocksBehind bytes) :=
    areas_eq_append (Nat.le_refl _)
  rw [advertised_take (by decide), advertised, modes, ← List.append_assoc]

/-- A limit within the first two blocks leaves no block behind them. -/
theorem blocksBehind_of_le (early : octet bytes 130 ≤ blockLength) : blocksBehind bytes = [] := by
  unfold blocksBehind
  split
  · refine List.filter_eq_nil_iff.mpr fun block member => ?_
    rw [firstWalk_eq] at member
    have within := DataBlock.stop_le_of_mem_walk member
    unfold blockLength at early ⊢
    simp only [decide_eq_true_eq]
    omega
  · rfl

/-- **The bytes behind the first two blocks** leave the resolutions of those blocks in front, in
their order, and add what the video data blocks behind them advertise. They change nothing exactly
when each resolution that such a block lists is advertised before, and never when the limit of the
walk lies within the first two blocks. -/
theorem resolutions_take_two_blocks (long : 2 * blockLength ≤ bytes.length) :
    ∃ set cut, (resolutions bytes).run.value = .ok set ∧
      (resolutions (bytes.take (2 * blockLength))).run.value = .ok cut ∧
      cut.entries <+: set.entries ∧
      set.entries = (cut.entries ++ videoAreas (blocksBehind bytes)).eraseDups ∧
      (set = cut ↔ ∀ block ∈ blocksBehind bytes, block.tag = 2 →
        ∀ area ∈ areasOf block.payload, area ∈ cut.entries) ∧
      (octet bytes 130 ≤ blockLength → set = cut) := by
  have whole : blockLength ≤ bytes.length := Nat.le_trans (by decide) long
  have wholeCut : blockLength ≤ (bytes.take (2 * blockLength)).length := by
    rw [List.length_take, Nat.min_eq_left long]
    decide
  obtain ⟨set, found, entries⟩ := exists_resolutions whole
  obtain ⟨cut, foundCut, entriesCut⟩ := exists_resolutions wholeCut
  have joined : set.entries = (cut.entries ++ videoAreas (blocksBehind bytes)).eraseDups := by
    rw [entries, entriesCut, advertised_eq_append bytes, eraseDups_eraseDups_append]
  have same : set = cut ↔ ∀ area ∈ videoAreas (blocksBehind bytes), area ∈ cut.entries := by
    have kept : cut.entries.eraseDups = cut.entries := eraseDups_of_nodup cut.distinct
    rw [← eraseDups_append_eq_left_iff, ← joined, kept]
    exact ⟨fun equal => by rw [equal], ResolutionSet.ext⟩
  refine ⟨set, cut, found, foundCut, ?_, joined, ?_, ?_⟩
  · rw [joined]
    exact cut.entries_prefix _
  · rw [same]
    unfold videoAreas
    constructor
    · intro old block member video area listed
      refine old area (List.mem_flatMap.mpr ⟨block, List.mem_filter.mpr ⟨member, ?_⟩, listed⟩)
      simpa using video
    · intro old area listed
      obtain ⟨block, member, inside⟩ := List.mem_flatMap.mp listed
      obtain ⟨behind, video⟩ := List.mem_filter.mp member
      exact old block behind (by simpa using video) area inside
  · intro early
    rw [same, blocksBehind_of_le early]
    exact fun area listed => absurd listed List.not_mem_nil

/-- Three blocks: the first extension fills itself with blocks of no use and declares its limit six
bytes into the third block, which is a CTA-861 extension of its own with one video mode. -/
def spilled : Bytes :=
  List.replicate 0x7E 0 ++ [2, 0] ++ [2, 3, 0x86, 0] ++
    (List.replicate 3 (0x1F :: List.replicate 31 0)).flatten ++ 0x1F :: List.replicate 27 0 ++
    [2, 3, 6, 0, 0x41, 0x13] ++ List.replicate 122 0

/-- A second extension behind the sample adds nothing: the limit is within the first one. -/
theorem resolutions_sample_append :
    2 * blockLength ≤ (sample ++ spilled.drop 256).length ∧
      octet (sample ++ spilled.drop 256) 130 ≤ blockLength ∧
      ∃ set, (resolutions (sample ++ spilled.drop 256)).run.value = .ok set ∧
        (resolutions ((sample ++ spilled.drop 256).take (2 * blockLength))).run.value =
          .ok set := by
  have long : 2 * blockLength ≤ (sample ++ spilled.drop 256).length := by decide +kernel
  have early : octet (sample ++ spilled.drop 256) 130 ≤ blockLength := by decide +kernel
  obtain ⟨set, cut, found, foundCut, _, _, _, equal⟩ := resolutions_take_two_blocks long
  exact ⟨long, early, set, found, by rw [foundCut, equal early]⟩

/-- **Bytes behind the first two blocks can matter**: the video mode of the third block of
`spilled` is among its resolutions. -/
theorem resolutions_spilled_ne :
    2 * blockLength ≤ spilled.length ∧
      (resolutions spilled).run.value.map ResolutionSet.labels = .ok ["248x155", "1280x720"] ∧
      (resolutions (spilled.take (2 * blockLength))).run.value.map ResolutionSet.labels =
        .ok ["248x155"] ∧
      (resolutions spilled).run.value ≠
        (resolutions (spilled.take (2 * blockLength))).run.value := by
  have whole : (resolutions spilled).run.value.map ResolutionSet.labels =
      .ok ["248x155", "1280x720"] := by decide +kernel
  have cut : (resolutions (spilled.take (2 * blockLength))).run.value.map ResolutionSet.labels =
      .ok ["248x155"] := by decide +kernel
  refine ⟨by decide +kernel, whole, cut, fun equal => ?_⟩
  rw [equal, cut] at whole
  exact absurd whole (by decide)

end Edid
