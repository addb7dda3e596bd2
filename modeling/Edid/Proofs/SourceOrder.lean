/-
**The sources in any order.** The four sources of a buffer may be read in any order and as often
as one likes. Together they never advertise more resolutions than a set has room for, so none of
them takes the room of another: what a source has on offer is in the set once it has been read, and
stays there. The order decides where a resolution stands, and nothing else.

* `Source.exists_enterAll`: the set that a sequence of sources leaves;
* `Source.enterOrFail_of_mem`: a source that was read before changes nothing;
* `sources_in_any_order`: a sequence with all four sources against the enumeration.
-/

import Edid.Proofs.Advertised

namespace Edid

open FirstOccurrences

variable {bytes : Bytes}

namespace Source

theorem mem_all (source : Source) : source ∈ all := by
  cases source <;> decide

/-- More sources have more on offer. -/
theorem offers_subset {sources others : List Source} (fewer : sources ⊆ others) :
    offers bytes sources ⊆ offers bytes others := by
  intro resolution member
  obtain ⟨source, listed, offered⟩ := List.mem_flatMap.mp member
  exact List.mem_flatMap.mpr ⟨source, fewer listed, offered⟩

theorem offers_subset_advertised (whole : blockLength ≤ bytes.length) (sources : List Source) :
    offers bytes sources ⊆ advertised bytes := by
  rw [← offers_all whole]
  exact offers_subset fun source _ => mem_all source

/-- Whatever sources are read, there is room for all that they have on offer. -/
theorem length_eraseDups_offers_le (whole : blockLength ≤ bytes.length) (sources : List Source) :
    (offers bytes sources).eraseDups.length ≤ 24 :=
  (length_eraseDups_le_of_subset (offers_subset_advertised whole sources)).trans
    (length_eraseDups_advertised_le bytes)

/-- **Sources that are read one after the other** leave the first occurrences of what they have on
offer. -/
theorem exists_enterAll (whole : blockLength ≤ bytes.length) (sources : List Source) :
    ∃ set, (enterAll bytes .empty sources).run.value = .ok set ∧
      set.entries = (offers bytes sources).eraseDups := by
  refine ⟨_, value_enterAll .empty fun source _ => failure_reading whole source, ?_⟩
  have room := (length_eraseDups_offers_le whole sources).trans (by decide : 24 ≤ 32)
  exact ResolutionSet.entries_insertAll_of_fits room

/-- **A source that was read before** changes nothing: what it has on offer is in the set. -/
theorem enterOrFail_of_mem (whole : blockLength ≤ bytes.length) {sources : List Source}
    {set : ResolutionSet} (entries : set.entries = (offers bytes sources).eraseDups)
    {source : Source} (read : source ∈ sources) :
    ((source.reading bytes).enterOrFail set).run.value = .ok set := by
  have old : (source.reading bytes).offers ⊆ set.entries := by
    intro resolution offered
    rw [entries, List.mem_eraseDups]
    exact List.mem_flatMap.mpr ⟨source, read, offered⟩
  rw [Reading.value_enterOrFail, failure_reading whole source]
  exact congrArg Except.ok (ResolutionSet.insertAll_of_subset old)

end Source

/-- **The order of the sources** decides where a resolution stands, and nothing else. However the
sources of a buffer with a whole base block are read one after the other, no reading fails, the set
holds the first occurrences of what they have on offer, and to read one of them again leaves the
set as it is. Once all four have been read the set has the members of the enumeration, and as many
of them. -/
theorem sources_in_any_order (whole : blockLength ≤ bytes.length) :
    ∃ listed, (resolutions bytes).run.value = .ok listed ∧
      ∀ sources : List Source, ∃ set,
        (Source.enterAll bytes .empty sources).run.value = .ok set ∧
        set.entries = (Source.offers bytes sources).eraseDups ∧
        (∀ source ∈ sources, ((source.reading bytes).enterOrFail set).run.value = .ok set) ∧
        ((∀ source, source ∈ sources) →
          (∀ resolution, resolution ∈ set.entries ↔ resolution ∈ listed.entries) ∧
            set.size = listed.size) := by
  obtain ⟨listed, found, members⟩ := exists_resolutions whole
  refine ⟨listed, found, fun sources => ?_⟩
  obtain ⟨set, left, entries⟩ := Source.exists_enterAll whole sources
  refine ⟨set, left, entries, fun source read => Source.enterOrFail_of_mem whole entries read, ?_⟩
  intro complete
  have same : ∀ resolution, resolution ∈ set.entries ↔ resolution ∈ listed.entries := by
    intro resolution
    rw [entries, members, List.mem_eraseDups, List.mem_eraseDups]
    constructor
    · exact fun offered => Source.offers_subset_advertised whole sources offered
    · rw [← offers_all whole]
      exact fun offered => Source.offers_subset (fun source _ => complete source) offered
  have shuffled := (List.perm_ext_iff_of_nodup set.distinct listed.distinct).mpr same
  exact ⟨same, shuffled.length_eq⟩

/-- The sources from the last one to the first one, with the last one read again on the way. -/
def backwards : List Source := [.extension, .detailed, .extension, .standard, .established]

/-- The sources of the sample backwards: the same fourteen resolutions as in the enumeration, those
of the extension first. -/
theorem sources_in_any_order_sample :
    blockLength ≤ sample.length ∧ (∀ source, source ∈ backwards) ∧
      ∃ listed set, (resolutions sample).run.value = .ok listed ∧
        (Source.enterAll sample .empty backwards).run.value = .ok set ∧
        set.labels =
          ["1920x1080", "1920x1080i", "1280x720", "720x480", "640x480", "720x576", "1152x864",
            "1280x800", "1280x1024", "1600x900", "720x400", "800x600", "1024x768", "1152x870"] ∧
        set.size = listed.size := by
  have whole : blockLength ≤ sample.length := by decide +kernel
  have complete : ∀ source, source ∈ backwards := by
    intro source
    cases source <;> decide
  obtain ⟨listed, found, left⟩ := sources_in_any_order whole
  obtain ⟨set, read, entries, -, same⟩ := left backwards
  refine ⟨whole, complete, listed, set, found, read, ?_, (same complete).2⟩
  rw [ResolutionSet.labels, entries]
  decide +kernel

end Edid
