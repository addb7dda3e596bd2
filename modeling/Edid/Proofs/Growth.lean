/-
**How a set of resolutions grows.** A set starts empty and is changed in two ways: a resolution is
inserted, or a source of some buffer is read into it. A reading may fail, and what it had on offer
before stays in the set; a full set turns resolutions away without a failure. Neither makes a
difference to the law of growth: members are never moved nor removed, and a history of changes
leaves the first occurrences of all that was ever on offer, up to the capacity.

* `apply_eq_insertAll`: a change inserts what it has on offer;
* `entries_prefix_apply`, `entries_prefix_applyAll`: a change, and a history, only append;
* `entries_after_changes`: what a history leaves, and what can be done to the set then.
-/

import Edid.Proofs.FirstOccurrences
import Edid.Sample
import Edid.Source

namespace Edid

open FirstOccurrences

/-- Something that is done to a set of resolutions. -/
inductive Change where
  | insert (resolution : Resolution)
  /-- A source of a buffer is read into the set, as far as it can be read. -/
  | read (source : Source) (bytes : Bytes)

namespace Change

def apply (set : ResolutionSet) : Change → ResolutionSet
  | insert resolution => (set.offer resolution).value
  | read source bytes => ((source.reading bytes).enter set).value

/-- Makes changes one after the other, the first one first. -/
def applyAll (set : ResolutionSet) : List Change → ResolutionSet
  | [] => set
  | change :: rest => applyAll (change.apply set) rest

/-- The resolutions that a change has on offer, in order. -/
def offers : Change → List Resolution
  | insert resolution => [resolution]
  | read source bytes => (source.reading bytes).offers

variable (set : ResolutionSet)

/-- **A change inserts what it has on offer**, whether it fails or not. -/
theorem apply_eq_insertAll (change : Change) : change.apply set = set.insertAll change.offers := by
  cases change with
  | insert resolution => rfl
  | read source bytes => exact Reading.value_enter _ set

theorem applyAll_append (earlier later : List Change) :
    applyAll set (earlier ++ later) = applyAll (applyAll set earlier) later := by
  induction earlier generalizing set with
  | nil => rfl
  | cons change rest ih => exact ih (change.apply set)

theorem applyAll_eq_insertAll (changes : List Change) :
    applyAll set changes = set.insertAll (changes.flatMap offers) := by
  induction changes generalizing set with
  | nil => rfl
  | cons change rest ih =>
      rw [applyAll, ih, apply_eq_insertAll, List.flatMap_cons, ResolutionSet.insertAll_append]

/-! ### Only at the end -/

/-- **A change only appends**: the members before it begin the members after it. -/
theorem entries_prefix_apply (change : Change) :
    set.entries <+: (change.apply set).entries := by
  rw [apply_eq_insertAll, ResolutionSet.entries_insertAll]
  exact List.prefix_take_iff.mpr ⟨set.entries_prefix _, set.bounded⟩

/-- **A history only appends.** -/
theorem entries_prefix_applyAll (changes : List Change) :
    set.entries <+: (applyAll set changes).entries := by
  induction changes generalizing set with
  | nil => exact List.prefix_rfl
  | cons change rest ih => exact (entries_prefix_apply set change).trans (ih _)

/-! ### What a history leaves -/

theorem entries_applyAll_empty (changes : List Change) :
    (applyAll .empty changes).entries =
      (changes.flatMap offers).eraseDups.take ResolutionSet.capacity := by
  rw [applyAll_eq_insertAll, ResolutionSet.entries_insertAll]
  rfl

/-- **A set after any changes** holds the first occurrences of what was on offer, up to 32, so it
holds none of them twice. Further changes only append. A reading reports its own failure, and the
same set is left whether there is one or not. An insertion answers that the resolution was added
exactly when it is new and there is room, and then appends it; it leaves the set as it is otherwise.
A list that is inserted leaves the first occurrences of the members and the list, up to 32. -/
theorem entries_after_changes (changes : List Change) :
    let set := applyAll .empty changes
    set.entries = (changes.flatMap offers).eraseDups.take 32 ∧
      set.entries.Nodup ∧ set.entries.length ≤ 32 ∧
      (∀ change : Change, set.entries <+: (change.apply set).entries) ∧
      (∀ later, set.entries <+: (applyAll .empty (changes ++ later)).entries) ∧
      (∀ (source : Source) (bytes : Bytes), ((source.reading bytes).enterOrFail set).run.value =
        match (source.reading bytes).failure with
        | some failure => .error failure
        | none => .ok ((read source bytes).apply set)) ∧
      (∀ resolution,
        (set.placement resolution = .added ↔
          resolution ∉ set.entries ∧ set.entries.length < 32) ∧
        (set.insert resolution).entries =
          if resolution ∉ set.entries ∧ set.entries.length < 32 then set.entries ++ [resolution]
          else set.entries) ∧
      ∀ resolutions, (set.insertAll resolutions).entries =
        (set.entries ++ resolutions).eraseDups.take 32 := by
  intro set
  have left : set.entries = (changes.flatMap offers).eraseDups.take 32 :=
    entries_applyAll_empty changes
  refine ⟨left, ?_, ?_, entries_prefix_apply set, ?_, ?_, ?_, set.entries_insertAll⟩
  · rw [left]
    exact (nodup_eraseDups _).sublist (List.take_sublist _ _)
  · rw [left]
    exact List.length_take_le _ _
  · intro later
    rw [applyAll_append]
    exact entries_prefix_applyAll set later
  · intro source bytes
    rw [Reading.value_enterOrFail, apply_eq_insertAll]
    rfl
  · intro resolution
    exact ⟨set.placement_added_iff resolution, set.entries_insert resolution⟩

/-- A buffer that ends behind its first slot fails there, and the area of that slot is kept. -/
example : (Source.detailed.reading (sample.take 0x50)).failure = some (.outOfRange 0x48 18 0x50) ∧
    (applyAll .empty [read .detailed (sample.take 0x50)]).labels = ["1920x1080"] := by
  decide +kernel

end Change

end Edid
