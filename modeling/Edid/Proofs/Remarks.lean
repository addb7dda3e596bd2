/-
**What the sources note.** Reading a source makes records on the way, apart from those of the
insertions. None of them can be taken for one of an insertion or for one of the counts between the
sources: those have a `u` in them, and the record of a resolution that is lost has an `R`, and the
notes of the sources have neither. The one exception is the warning about a chain of data blocks
that breaks off, and it is the only warning.

* `Established.plain_steps`, `StandardTiming.plain_steps`, `DetailedTiming.plain_steps`: all notes
  of three sources are plain;
* `Extension.exists_steps_eq_append`: so are those of the extension, up to the warning at their end.
-/

import Edid.Proofs.Characters
import Edid.Proofs.VideoModes
import Edid.Source

namespace Edid

/-- A text with neither a `u` nor an `R`. -/
def Clear (text : String) : Prop := Lacks 'u' text ∧ Lacks 'R' text

instance (text : String) : Decidable (Clear text) :=
  inferInstanceAs (Decidable (Lacks 'u' text ∧ Lacks 'R' text))

@[simp]
theorem clear_append {first second : String} :
    Clear (first ++ second) ↔ Clear first ∧ Clear second := by
  unfold Clear
  rw [lacks_append, lacks_append, and_and_and_comm]

@[simp]
theorem clear_toString (number : Nat) : Clear (toString number) :=
  ⟨lacks_toString rfl number, lacks_toString rfl number⟩

@[simp]
theorem clear_padded (width number : Nat) : Clear (Hexadecimal.padded width number) :=
  ⟨lacks_padded rfl width number, lacks_padded rfl width number⟩

@[simp]
theorem clear_label (resolution : Resolution) : Clear resolution.label :=
  ⟨resolution.lacks_label rfl (by decide) (by decide),
    resolution.lacks_label rfl (by decide) (by decide)⟩

/-- A record that no other one is to be mistaken for. -/
structure Record.Plain (record : Record) : Prop where
  calm : record.level ≠ .warn
  clear : Clear record.message

namespace Step

/-- A step that makes no record of its own, or a plain one. -/
def Plain : Step → Prop
  | note level message => (Record.mk level message).Plain
  | offer _ => True

/-- The record of a note. -/
def remark? : Step → Option Record
  | note level message => some ⟨level, message⟩
  | offer _ => none

theorem plain_note {level : Level} {message : String} (calm : level ≠ .warn)
    (clear : Clear message) : (note level message).Plain := ⟨calm, clear⟩

theorem Plain.remark {step : Step} (plain : step.Plain) {record : Record}
    (remarked : step.remark? = some record) : record.Plain := by
  cases step with
  | note level message =>
      cases remarked
      exact plain
  | offer resolution => cases remarked

end Step

/-- The records that a reading makes whatever set it is carried out on. -/
def Reading.remarks (reading : Reading) : List Record := reading.steps.filterMap Step.remark?

theorem plain_of_mem_remarks {steps : List Step} (plain : ∀ step ∈ steps, step.Plain)
    {record : Record} (member : record ∈ steps.filterMap Step.remark?) : record.Plain := by
  obtain ⟨step, listed, remarked⟩ := List.mem_filterMap.mp member
  exact (plain step listed).remark remarked

/-! ### The base block -/

theorem Established.plain_steps (bytes : Bytes) : ∀ step ∈ (reading bytes).steps, step.Plain := by
  unfold reading
  cases Field.array bytes 3 offset with
  | error failure => exact fun step member => absurd member List.not_mem_nil
  | ok flags =>
      refine List.forall_mem_cons.mpr ⟨Step.plain_note (by decide) ?_, ?_⟩
      · simp only [clear_append, clear_padded, and_true]
        decide
      · intro step member
        obtain ⟨area, _, rfl⟩ := List.mem_map.mp member
        trivial

theorem StandardTiming.plain_pairSteps (pair : UInt8 × UInt8) :
    ∀ step ∈ pairSteps pair, step.Plain := by
  obtain ⟨first, second⟩ := pair
  rw [pairSteps]
  cases decode first second with
  | none => exact fun step member => absurd member List.not_mem_nil
  | some timing =>
      refine List.forall_mem_cons.mpr ⟨Step.plain_note (by decide) ?_, ?_⟩
      · simp only [clear_append, clear_padded, clear_toString, clear_label, and_true]
        decide
      · intro step member
        rw [List.mem_singleton.mp member]
        trivial

theorem StandardTiming.plain_steps (bytes : Bytes) :
    ∀ step ∈ (reading bytes).steps, step.Plain := by
  unfold reading
  cases Field.slice bytes offset (2 * count) with
  | error failure => exact fun step member => absurd member List.not_mem_nil
  | ok table =>
      intro step member
      obtain ⟨pair, _, inside⟩ := List.mem_flatMap.mp member
      exact plain_pairSteps pair step inside

theorem DetailedTiming.plain_slotStep (offset : Nat) (timing : DetailedTiming) :
    (slotStep offset timing).Plain := by
  unfold slotStep
  dsimp only
  split
  · refine Step.plain_note (by decide) ?_
    simp only [clear_append, clear_padded, and_true]
    decide
  · split
    · trivial
    · refine Step.plain_note (by decide) ?_
      simp only [clear_append, clear_padded, clear_toString, and_true]
      decide

theorem DetailedTiming.plain_readingAt (bytes : Bytes) (offsets : List Nat) :
    ∀ step ∈ (readingAt bytes offsets).steps, step.Plain := by
  induction offsets with
  | nil => exact fun step member => absurd member List.not_mem_nil
  | cons offset rest ih =>
      rw [readingAt]
      cases Slot.fetch bytes offset with
      | error failure => exact fun step member => absurd member List.not_mem_nil
      | ok slot => exact List.forall_mem_cons.mpr ⟨plain_slotStep offset _, ih⟩

theorem DetailedTiming.plain_steps (bytes : Bytes) :
    ∀ step ∈ (reading bytes).steps, step.Plain := plain_readingAt bytes Slot.offsets

/-! ### The first extension -/

theorem ReadError.lacks_message (failure : ReadError) : Lacks 'R' failure.message := by
  cases failure with
  | outOfRange offset length available =>
      unfold message
      simp only [lacks_append, @lacks_toString 'R' rfl, @lacks_padded 'R' rfl, and_true]
      decide
  | malformedBlock offset =>
      exact lacks_append.mpr ⟨by decide, lacks_padded rfl 2 offset⟩

namespace Extension

/-- The record of a chain of data blocks that breaks off. -/
def warning (failure : ReadError) : Record :=
  ⟨.warn, "Stopped CTA-861 data block walk: " ++ failure.message⟩

/-- The warning about the first extension, if it is looked into and its chain breaks off. -/
def warnings (bytes : Bytes) : List Record :=
  if Inspected bytes then ((firstWalk bytes).failure.map warning).toList else []

theorem plain_descriptorStep (descriptor : UInt8) : (descriptorStep descriptor).Plain := by
  unfold descriptorStep
  dsimp only
  split
  · trivial
  · refine Step.plain_note (by decide) ?_
    simp only [clear_append, clear_toString, and_true]
    decide

theorem plain_blockSteps (block : DataBlock) : ∀ step ∈ blockSteps block, step.Plain := by
  refine List.forall_mem_cons.mpr ⟨Step.plain_note (by decide) ?_, ?_⟩
  · simp only [clear_append, clear_padded, clear_toString, and_true]
    decide
  · intro step member
    split at member
    · obtain ⟨descriptor, _, rfl⟩ := List.mem_map.mp member
      exact plain_descriptorStep descriptor
    · exact absurd member List.not_mem_nil

theorem plain_furtherSteps (declared : UInt8) : ∀ step ∈ furtherSteps declared, step.Plain := by
  intro step member
  unfold furtherSteps at member
  split at member
  · rw [List.mem_singleton.mp member]
    refine Step.plain_note (by decide) ?_
    simp only [clear_append, clear_toString, true_and]
    decide
  · exact absurd member List.not_mem_nil

theorem plain_absentStep (bytes : Bytes) : (absentStep bytes).Plain := by
  refine Step.plain_note (by decide) ?_
  simp only [clear_append, clear_toString, and_true]
  decide

theorem plain_foreignStep (bytes : Bytes) : (foreignStep bytes).Plain := by
  refine Step.plain_note (by decide) ?_
  simp only [clear_append, clear_padded, and_true]
  decide

/-- **The notes of the extension** are plain, but for the warning at their end. -/
theorem exists_steps_eq_append {bytes : Bytes} (counted : 0x7F ≤ bytes.length) :
    ∃ front, (∀ step ∈ front, step.Plain) ∧
      (reading bytes).steps = front ++
        (warnings bytes).map fun record => .note record.level record.message := by
  unfold reading warnings
  rw [steps_eq counted]
  by_cases skipped : octet bytes 0x7E = 0 ∨ bytes.length < 2 * blockLength
  · have unseen : ¬ Inspected bytes := fun seen =>
      skipped.elim seen.declared (Nat.not_lt_of_le seen.long)
    rw [if_pos skipped, if_neg unseen]
    exact ⟨[absentStep bytes], List.forall_mem_singleton.mpr (plain_absentStep bytes), rfl⟩
  · rw [if_neg skipped]
    push Not at skipped
    obtain ⟨declared, long⟩ := skipped
    have further := plain_furtherSteps (.ofNat (octet bytes 0x7E))
    by_cases tagged : octet bytes 128 = 2
    · rw [if_pos tagged, if_pos ⟨long, declared, tagged⟩]
      refine ⟨furtherSteps (.ofNat (octet bytes 0x7E)) ++
        (firstWalk bytes).blocks.flatMap blockSteps, ?_, ?_⟩
      · refine List.forall_mem_append.mpr ⟨further, fun step member => ?_⟩
        obtain ⟨block, _, inside⟩ := List.mem_flatMap.mp member
        exact plain_blockSteps block step inside
      · rw [List.append_assoc]
        show furtherSteps _ ++ walkSteps (firstWalk bytes) = _
        rw [walkSteps]
        cases (firstWalk bytes).failure <;> rfl
    · rw [if_neg tagged, if_neg fun seen => tagged seen.tagged]
      exact ⟨furtherSteps (.ofNat (octet bytes 0x7E)) ++ [foreignStep bytes],
        List.forall_mem_append.mpr
          ⟨further, List.forall_mem_singleton.mpr (plain_foreignStep bytes)⟩,
        (List.append_nil _).symm⟩

end Extension

end Edid
