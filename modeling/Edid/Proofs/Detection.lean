/-
**Telling the two forms of a file apart.** Whether a file counts as a dump is seen from its bytes
one by one, and whether it is one is known only when it has been read. The two never contradict each
other: a file that is read as at least one byte counts as a dump, one that is read as no byte at all
has nothing but separators and does not count as one, and one with a byte that no dump has is taken
as it is. So an EDID that has been decoded and still has its header decodes to itself.

Not every file that counts as a dump can be read, since the letter of a mark may stand anywhere in
it: such a file is refused for the first run that spells nothing.

* `rendering_nil_iff`: only separators render no bytes;
* `StandsFor.not_invalidHex`: a file that stands for bytes is never refused as a broken dump;
* `dumps_told_apart`: what counts as a dump against what is read, and decoding after decoding.
-/

import Edid.Proofs.FileForms

namespace Edid

open HexText

namespace HexText

variable {run group text : Bytes}

/-- A run that spells bytes spells at least one. -/
theorem Spells.group_ne_nil (spelled : Spells run group) : group ≠ [] := by
  obtain ⟨mark, -, numerals, -, filled, pairs⟩ := spelled
  rintro rfl
  cases pairs
  exact filled rfl

/-- **Only separators** render no bytes. -/
theorem rendering_nil_iff : Rendering text [] ↔ ∀ byte ∈ text, byte ∈ separators := by
  constructor
  · intro rendering
    generalize none : ([] : Bytes) = bytes at rendering
    cases rendering with
    | blank separate => exact separate
    | group separate spelled apart others =>
        exact absurd (List.append_eq_nil_iff.mp none.symm).1 spelled.group_ne_nil
  · exact .blank

/-- Separators alone do not count as a dump. -/
theorem not_isHexText_of_separate (separate : ∀ byte ∈ text, byte ∈ separators) :
    isHexText text = false := by
  rw [← Bool.not_eq_true, isHexText_iff]
  rintro ⟨⟨byte, inside, value, digit⟩, -⟩
  exact not_digit_separator (separate byte inside) digit

end HexText

namespace Contents

variable {contents bytes : Bytes}

theorem StandsFor.not_invalidHex (stands : StandsFor contents bytes) (fault : Fault) :
    (decode contents).run.value ≠ .error (.invalidHex fault) := by
  rcases Nat.lt_or_ge bytes.length blockLength with short | whole
  · rw [stands.refused short]
    exact nofun
  · rw [stands.decoded whole]
    exact nofun

end Contents

/-- **The two forms of a file are told apart.** What is read as at least one byte counts as a dump
and stands for what is read; what is read as no byte are the separators alone, which do not count as
one; and a file with a byte that no dump has, such as any with the header, stands for itself and is
never refused as a broken dump. Bytes with the header that a file is decoded to decode to
themselves. -/
theorem dumps_told_apart (contents : Bytes) :
    (∀ bytes, parse contents = .ok bytes → bytes ≠ [] →
      isHexText contents = true ∧ Contents.StandsFor contents bytes) ∧
    (parse contents = .ok [] ↔ ∀ byte ∈ contents, byte ∈ separators) ∧
    (parse contents = .ok [] → isHexText contents = false) ∧
    ((∃ byte ∈ contents, ¬ OfAlphabet byte) →
      Contents.StandsFor contents contents ∧
        ∀ fault, (Contents.decode contents).run.value ≠ .error (.invalidHex fault)) ∧
    (BaseBlock.hasHeader contents = true → ∃ byte ∈ contents, ¬ OfAlphabet byte) ∧
    ∀ bytes, (Contents.decode contents).run.value = .ok bytes → BaseBlock.hasHeader bytes = true →
      (Contents.decode bytes).run.value = .ok bytes := by
  have separate : parse contents = .ok [] ↔ ∀ byte ∈ contents, byte ∈ separators :=
    parse_eq_ok_iff.trans rendering_nil_iff
  refine ⟨fun bytes read filled => ?_, separate, fun read => ?_, fun foreign => ?_,
    foreign_of_hasHeader, fun bytes decoded header => ?_⟩
  · have rendering := parse_eq_ok_iff.mp read
    exact ⟨isHexText_of_rendering rendering filled,
      Contents.standsFor_of_rendering filled rendering⟩
  · exact not_isHexText_of_separate (separate.mp read)
  · have stands := Contents.standsFor_of_foreign foreign
    exact ⟨stands, stands.not_invalidHex⟩
  · exact Contents.value_decode_of_foreign (Contents.le_length_of_decode decoded)
      (foreign_of_hasHeader header)

/-- A dump of the items of the sample is decoded to the sample, which decodes to itself, and a dump
of its first byte alone is refused as too short. -/
theorem dumps_told_apart_sample :
    parse (itemised sample) = .ok sample ∧ isHexText (itemised sample) = true ∧
      (Contents.decode (itemised sample)).run.value = .ok sample ∧
      (Contents.decode sample).run.value = .ok sample ∧
      parse (itemised [0]) = .ok [0] ∧
      (Contents.decode (itemised [0])).run.value = .error (.tooShort 1) := by
  have read : ∀ bytes, parse (itemised bytes) = .ok bytes :=
    fun bytes => parse_eq_ok_iff.mpr (rendering_itemised bytes)
  have whole : blockLength ≤ sample.length := by decide +kernel
  have header : BaseBlock.hasHeader sample = true := by decide +kernel
  obtain ⟨dumps, -, -, -, -, again⟩ := dumps_told_apart (itemised sample)
  obtain ⟨counts, stands⟩ := dumps sample (read sample) (List.cons_ne_nil _ _)
  have decoded := stands.decoded whole
  have single := ((dumps_told_apart (itemised [0])).1 [0] (read [0]) (List.cons_ne_nil _ _)).2
  exact ⟨read sample, counts, decoded, again sample decoded header, read [0],
    single.refused (by decide)⟩

/-- Not all that counts as a dump is read: here the letter of a mark stands behind the digits. -/
example : isHexText [0x30, 0x61, 0x31, 0x78] = true ∧
    parse [0x30, 0x61, 0x31, 0x78] = .error ⟨0, "0a1x"⟩ := by
  decide +kernel

end Edid
