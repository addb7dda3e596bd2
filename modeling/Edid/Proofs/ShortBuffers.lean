/-
**Sources of a short buffer.** The four sources and the slots are also read on their own, and then
none of them asks for a whole base block. Each has its own least length: a shorter buffer makes it
fail, with the span it missed first, and a buffer of that length or more never does.

Three of the sources read one field before they offer anything, so their failure leaves the set as
it was. The slots are read one by one: what the slots before the missing one have on offer stays in
the set.

* `Reading.ends`: how a reading ends, by its failure and what it offers;
* `sources_of_short_buffer`: the four sources and the slots, on a buffer of any length.
-/

import Edid.Proofs.BaseBlock

namespace Edid

/-- How a reading ends that is carried out on a set: the error it fails with, if it does, and the
set that it leaves either way. -/
structure Reading.Ends (reading : Reading) (set : ResolutionSet) (failure : Option ReadError)
    (left : ResolutionSet) : Prop where
  answer : (reading.enterOrFail set).run.value = match failure with
    | some failure => .error failure
    | none => .ok left
  left : (reading.enter set).value = left

theorem Reading.ends {reading : Reading} {failure : Option ReadError} {offers : List Resolution}
    (failed : reading.failure = failure) (offered : reading.offers = offers)
    (set : ResolutionSet) : reading.Ends set failure (set.insertAll offers) where
  answer := by
    have entered := reading.value_enterOrFail set
    rw [failed, offered] at entered
    cases failure <;> exact entered
  left := by rw [value_enter, offered]

/-- A source that fails before it offers anything leaves the set as it was. -/
theorem Reading.ends_failed (failure : ReadError) (set : ResolutionSet) :
    (Reading.failed failure).Ends set (some failure) set :=
  Reading.ends rfl rfl set

variable {bytes : Bytes}

/-! ### The sources that read one field first -/

theorem Established.reading_of_short (short : bytes.length < 0x26) :
    reading bytes = .failed (.outOfRange 0x23 3 bytes.length) := by
  rw [reading, offset, Field.array_of_overruns short]

theorem StandardTiming.reading_of_short (short : bytes.length < 0x36) :
    reading bytes = .failed (.outOfRange 0x26 16 bytes.length) := by
  rw [reading, offset, count, Field.slice_of_overruns short]

theorem Extension.reading_of_short (short : bytes.length < 0x7F) :
    reading bytes = .failed (.outOfRange 0x7E 1 bytes.length) := by
  rw [reading, steps, countOffset, Field.byteAt_of_le (Nat.le_of_lt_succ short)]
  rfl

/-! ### All sources -/

/-- **What is missing decides the error.** On a buffer of any length each source, read on its own
into any set, fails exactly when the buffer is shorter than the source needs, and the error names
the span that the source asked for first of those that are not there. The flags, the pairs and the
extension leave the set as it was when they fail; the slots leave what those before the missing one
have on offer. What is inserted stands behind the members of the set, each resolution where it
occurs first, as far as there is room. The slots fetched together fail like the slots that are read
as timings. -/
theorem sources_of_short_buffer (bytes : Bytes) (set : ResolutionSet) :
    (Established.reading bytes).Ends set
      (if 0x26 ≤ bytes.length then none else some (.outOfRange 0x23 3 bytes.length))
      (if 0x26 ≤ bytes.length then set.insertAll (Established.setAreas bytes) else set) ∧
    (StandardTiming.reading bytes).Ends set
      (if 0x36 ≤ bytes.length then none else some (.outOfRange 0x26 16 bytes.length))
      (if 0x36 ≤ bytes.length then set.insertAll (StandardTiming.tableAreas bytes) else set) ∧
    (Extension.reading bytes).Ends set
      (if 0x7F ≤ bytes.length then none else some (.outOfRange 0x7E 1 bytes.length))
      (if 0x7F ≤ bytes.length then set.insertAll (Extension.areas bytes) else set) ∧
    (DetailedTiming.reading bytes).Ends set
      ((Slot.missing? bytes Slot.offsets).map fun offset => .outOfRange offset 18 bytes.length)
      (set.insertAll
        ((Slot.held bytes Slot.offsets).filterMap (DetailedTiming.slotArea? bytes))) ∧
    (∀ areas, (set.insertAll areas).entries =
      (set.entries ++ areas).eraseDups.take ResolutionSet.capacity) ∧
    (Slot.missing? bytes Slot.offsets = none ↔ 0x7E ≤ bytes.length) ∧
    Slot.fetchAll bytes = match Slot.missing? bytes Slot.offsets with
      | some offset => .error (.outOfRange offset 18 bytes.length)
      | none => .ok (Decoded.slots bytes) := by
  refine ⟨?_, ?_, ?_, ?_, set.entries_insertAll, Slot.missing?_eq_none_iff,
    mapM_fetch bytes Slot.offsets⟩
  · by_cases long : 0x26 ≤ bytes.length
    · rw [if_pos long, if_pos long]
      exact Reading.ends (Established.reading_eq long).1 (Established.reading_eq long).2 set
    · rw [if_neg long, if_neg long, Established.reading_of_short (Nat.lt_of_not_le long)]
      exact Reading.ends_failed _ set
  · by_cases long : 0x36 ≤ bytes.length
    · rw [if_pos long, if_pos long]
      exact Reading.ends (StandardTiming.reading_eq long).1 (StandardTiming.reading_eq long).2 set
    · rw [if_neg long, if_neg long, StandardTiming.reading_of_short (Nat.lt_of_not_le long)]
      exact Reading.ends_failed _ set
  · by_cases long : 0x7F ≤ bytes.length
    · obtain ⟨complete, offered⟩ := Extension.reading_of_counted long
      rw [if_pos long, if_pos long]
      exact Reading.ends complete offered set
    · rw [if_neg long, if_neg long, Extension.reading_of_short (Nat.lt_of_not_le long)]
      exact Reading.ends_failed _ set
  · obtain ⟨failed, offered⟩ := DetailedTiming.readingAt_eq bytes Slot.offsets
    exact Reading.ends failed offered set

/-- A buffer that ends within the third slot: the areas of the first two are kept. -/
example : Slot.missing? (crowded.take 0x6B) Slot.offsets = some 0x5A ∧
    ((DetailedTiming.reading (crowded.take 0x6B)).enter .empty).value.labels =
      ["512x256", "513x256"] := by
  decide +kernel

end Edid
