/-
**A buffer that is cut behind its base block.** A cut loses what stands behind it and changes
nothing before it. The fields of the base block are the same; of the resolutions those of the base
block stay, and those of the extension stay up to the first data block that the cut takes away, so
what is left is a first part of the list, in its order.

* `take_summary`: the summary of a cut buffer differs in its resolutions only;
* `entries_take_prefix`: the resolutions of a cut buffer are a first part of those of the buffer;
* `summary_of_cut`: the two together, for every cut behind the base block.
-/

import Edid.Proofs.BaseBlock
import Edid.Proofs.FirstExtension

namespace Edid

open FirstOccurrences

variable {bytes : Bytes} {length : Nat}

namespace Decoded

/-! ### The fields of the base block -/

/-- **The summary of a cut buffer** differs in its resolutions only. -/
theorem take_summary (base : blockLength ≤ length) :
    summary (bytes.take length) =
      { summary bytes with resolutions := (resolutions (bytes.take length)).labels } := by
  have kept : ∀ offset < 128, octet (bytes.take length) offset = octet bytes offset :=
    fun offset early => octet_take (early.trans_le base)
  have serialSpan : Field.recordAt (bytes.take length) 4 0x0C = Field.recordAt bytes 4 0x0C :=
    Field.recordAt_take (Nat.le_trans (by decide) base)
  have firstSlot : slot (bytes.take length) 0x36 = slot bytes 0x36 :=
    slot_congr fun index inside => kept _ (by omega)
  have everySlot : slots (bytes.take length) = slots bytes :=
    slots_congr fun offset _ below => kept offset (by omega)
  unfold summary
  simp (disch := decide) only [manufacturer, product, serial, isDigital, week, year, version, size,
    extensionCount, modelName, preferred, descriptors, kept, serialSpan, firstSlot,
    everySlot]

/-! ### The resolutions -/

/-- **The resolutions of a cut buffer** are a first part of those of the buffer. -/
theorem entries_take_prefix (base : blockLength ≤ length) :
    (resolutions (bytes.take length)).entries <+: (resolutions bytes).entries := by
  have kept : advertised (bytes.take length) <+: advertised bytes := advertised_take_prefix base
  obtain ⟨lost, whole⟩ := kept
  rw [entries_resolutions, entries_resolutions, ← whole]
  exact eraseDups_prefix _ _

end Decoded

/-- **A cut behind the base block only loses a tail.** What is left of the resolutions is a first
part of them, in their order: those of the base block, and those of the data blocks that end before
the cut if the first two blocks do. Nothing else of the summary changes. -/
theorem summary_of_cut (base : blockLength ≤ length) (within : length ≤ bytes.length) :
    ∃ set cut summary short,
      (resolutions bytes).run.value = .ok set ∧
      (resolutions (bytes.take length)).run.value = .ok cut ∧
      cut.entries <+: set.entries ∧
      cut.entries = (Established.setAreas bytes ++ StandardTiming.tableAreas bytes ++
        DetailedTiming.slotAreas bytes ++
        Extension.videoAreas (Extension.blocksBefore bytes length)).eraseDups ∧
      (Summary.ofBytes bytes).run.value = .ok summary ∧
      (Summary.ofBytes (bytes.take length)).run.value = .ok short ∧
      summary.resolutions = set.labels ∧
      short = { summary with resolutions := cut.labels } := by
  have whole : blockLength ≤ bytes.length := base.trans within
  have wholeCut : blockLength ≤ (bytes.take length).length := by
    rwa [List.length_take, Nat.min_eq_left within]
  refine ⟨Decoded.resolutions bytes, Decoded.resolutions (bytes.take length),
    Decoded.summary bytes, Decoded.summary (bytes.take length),
    decodes_advertised.served whole, decodes_advertised.served wholeCut,
    Decoded.entries_take_prefix base, ?_, decodes_summary.served whole,
    decodes_summary.served wholeCut, rfl, Decoded.take_summary base⟩
  rw [Decoded.entries_resolutions, advertised_take base, Extension.areas_take]

/-- A cut between the header and the payload of the last data block of `spilled` loses the one mode
of that block, and no more. -/
theorem summary_of_cut_spilled :
    blockLength ≤ 261 ∧ 261 ≤ spilled.length ∧
      ∃ summary short, (Summary.ofBytes spilled).run.value = .ok summary ∧
        (Summary.ofBytes (spilled.take 261)).run.value = .ok short ∧
        summary.resolutions = ["248x155", "1280x720"] ∧
        short = { summary with resolutions := ["248x155"] } := by
  have base : blockLength ≤ 261 := by decide
  have within : 261 ≤ spilled.length := by decide +kernel
  obtain ⟨set, cut, summary, short, found, foundCut, _, _, summarised, summarisedCut, listed,
    same⟩ := summary_of_cut base within
  have labels : (resolutions spilled).run.value.map ResolutionSet.labels =
      .ok ["248x155", "1280x720"] := by decide +kernel
  have labelsCut : (resolutions (spilled.take 261)).run.value.map ResolutionSet.labels =
      .ok ["248x155"] := by decide +kernel
  rw [found] at labels
  rw [foundCut] at labelsCut
  refine ⟨base, within, summary, short, summarised, summarisedCut, ?_, ?_⟩
  · rw [listed]
    exact Except.ok.inj labels
  · rw [same]
    exact congrArg (fun labels => { summary with resolutions := labels })
      (Except.ok.inj labelsCut)

end Edid
