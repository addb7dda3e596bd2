/-
**Characters that a text lacks.** Most texts are put together from fixed words, numbers and
hexadecimal digits. A character that is none of these can stand in such a text only if one of the
fixed words has it, so a text is searched for it part by part.

* `lacks_append`: a text lacks a character if all of its parts do;
* `lacks_toString`, `lacks_padded`, `lacks_lower`, `lacks_dump`: numbers and bytes have figures
  only;
* `Resolution.lacks_label`: labels of resolutions have two letters besides.
-/

import Edid.Resolution
import Edid.Text.Hexadecimal

namespace Edid

/-- The character stands nowhere in the text. -/
def Lacks (character : Char) (text : String) : Prop := character ∉ text.toList

instance (character : Char) (text : String) : Decidable (Lacks character text) :=
  inferInstanceAs (Decidable (character ∉ text.toList))

/-- A digit of a decimal or a hexadecimal number, in either case. -/
def isFigure (character : Char) : Bool :=
  character.isDigit || decide ('A' ≤ character ∧ character ≤ 'F') ||
    decide ('a' ≤ character ∧ character ≤ 'f')

variable {character : Char}

@[simp]
theorem lacks_append {first second : String} :
    Lacks character (first ++ second) ↔ Lacks character first ∧ Lacks character second := by
  unfold Lacks
  rw [String.toList_append, List.mem_append, not_or]

theorem lacks_ofList {characters : List Char} :
    Lacks character (String.ofList characters) ↔ character ∉ characters := by
  rw [Lacks, String.toList_ofList]

theorem lacks_join {texts : List String} (each : ∀ text ∈ texts, Lacks character text) :
    Lacks character (String.join texts) := by
  induction texts with
  | nil =>
      rw [String.join_nil]
      exact List.not_mem_nil
  | cons first rest ih =>
      rw [String.join_cons, lacks_append]
      exact ⟨each first List.mem_cons_self,
        ih fun text member => each text (List.mem_cons_of_mem _ member)⟩

/-! ### Numbers and bytes -/

theorem notMem_toDigits (letter : character.isDigit = false) (number : Nat) :
    character ∉ Nat.toDigits 10 number := by
  intro member
  have digit := Nat.isDigit_of_mem_toDigits (by decide) (by decide) member
  exact Bool.false_ne_true (letter.symm.trans digit)

theorem exists_digitChar_of_mem_toDigits {number : Nat}
    (member : character ∈ Nat.toDigits 16 number) :
    ∃ value < 16, character = Nat.digitChar value := by
  induction number using Nat.strongRecOn with
  | ind number ih =>
      rw [Nat.toDigits_eq_if (by decide)] at member
      split at member
      · exact ⟨number, ‹_›, List.mem_singleton.mp member⟩
      · rcases List.mem_append.mp member with early | last
        · exact ih (number / 16) (Nat.div_lt_self (by omega) (by decide)) early
        · exact ⟨number % 16, Nat.mod_lt _ (by decide), List.mem_singleton.mp last⟩

section Figures

variable (other : isFigure character = false)

include other

theorem ne_of_isFigure {figure : Char} (known : isFigure figure = true) : character ≠ figure := by
  rintro rfl
  exact Bool.false_ne_true (other.symm.trans known)

theorem lacks_toString (number : Nat) : Lacks character (toString number) := by
  have letter : character.isDigit = false := by
    rw [isFigure, Bool.or_eq_false_iff, Bool.or_eq_false_iff] at other
    exact other.1.1
  rw [Nat.toString_eq_ofList_toDigits, lacks_ofList]
  exact notMem_toDigits letter number

theorem lacks_toString_int (unsigned : character ≠ '-') (number : Int) :
    Lacks character (toString number) := by
  have digits := lacks_toString other
  cases number with
  | ofNat value => exact digits value
  | negSucc value =>
      show Lacks character ("-" ++ toString (value + 1))
      exact lacks_append.mpr ⟨by simpa [Lacks] using unsigned, digits _⟩

theorem lacks_lower (number : Nat) : Lacks character (Hexadecimal.lower number) := by
  rw [Hexadecimal.lower, lacks_ofList]
  intro member
  obtain ⟨value, small, same⟩ := exists_digitChar_of_mem_toDigits member
  have figures : ∀ value < 16, isFigure (Nat.digitChar value) = true := by decide
  exact ne_of_isFigure other (figures value small) same

theorem lacks_padded (width number : Nat) : Lacks character (Hexadecimal.padded width number) := by
  rw [Hexadecimal.padded, lacks_ofList, List.mem_append, not_or]
  have figures : ∀ value < 16, isFigure (Nat.digitChar value).toUpper = true := by decide
  constructor
  · intro filler
    exact ne_of_isFigure other rfl (List.eq_of_mem_replicate filler)
  · intro member
    obtain ⟨digit, listed, raised⟩ := List.mem_map.mp member
    obtain ⟨value, small, same⟩ := exists_digitChar_of_mem_toDigits listed
    exact ne_of_isFigure other (figures value small) (raised.symm.trans (same ▸ rfl))

theorem notMem_ofByte (byte : UInt8) : character ∉ Hexadecimal.ofByte byte := by
  have figures : ∀ value < 16, isFigure (Hexadecimal.digit value) = true := by decide
  have small := byte.toNat_lt
  rw [Hexadecimal.ofByte, List.mem_cons, List.mem_singleton, not_or]
  exact ⟨ne_of_isFigure other (figures _ (by omega)), ne_of_isFigure other (figures _ (by omega))⟩

theorem lacks_dump (bytes : List UInt8) : Lacks character (Hexadecimal.dump bytes) := by
  rw [Lacks, Hexadecimal.toList_dump]
  intro member
  obtain ⟨byte, _, inside⟩ := List.mem_flatMap.mp member
  exact notMem_ofByte other byte inside

/-- **Labels** have figures and two letters. -/
theorem Resolution.lacks_label (across : character ≠ 'x') (interlaced : character ≠ 'i')
    (resolution : Resolution) : Lacks character resolution.label := by
  have mark : Lacks character (if resolution.interlaced then "i" else "") := by
    split
    · simpa [Lacks] using interlaced
    · exact List.not_mem_nil
  rw [label, lacks_append, lacks_append, lacks_append]
  exact ⟨⟨⟨lacks_toString other _, by simpa [Lacks] using across⟩, lacks_toString other _⟩, mark⟩

end Figures

end Edid
