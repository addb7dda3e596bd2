/-
**The model name.** The name of a display is the text of the first slot that is tagged as a name,
and its model name is the last word of that text. A text is trimmed of all bytes up to `0x20`, and
its words are parted by fewer characters than that, the blank and those from `0x09` to `0x0D`. So
the end of a text never parts words, and the last word is nothing only if the text is.

* `nameSlot?_append_cons`, `nameSlot?_eq_none_iff`: the slot of the name by the kinds of the slots;
* `trimmedText_characters`: what is left of a payload when it is trimmed;
* `isLastWord_lastWord`: the last word is the longest end of a text that nothing parts;
* `model_name_of_first_name`: the model name of a buffer by its descriptors.
-/

import Mathlib.Data.List.DropRight
import Mathlib.Data.List.Forall2
import Edid.Proofs.BaseBlock
import Edid.Proofs.Descriptor.Encoding

namespace Edid

/-! ### The slot of the name -/

namespace Descriptor

variable {record : SlotRecord}

theorem typeCode_eq_monitorNameTag_iff :
    (typeCode record == monitorNameTag) = true ↔ (ofRecord record).kind = .monitorName := by
  rw [beq_iff_eq, ← UInt32.toNat_inj, toNat_typeCode, kind_eq_iff]
  rfl

theorem eq_textOf_of_monitorName {text : String} (name : ofRecord record = monitorName text) :
    text = textOf record := by
  rw [ofRecord_eq] at name
  split_ifs at name
  exact (monitorName.inj name).symm

end Descriptor

/-- **No slot has the name** exactly when none is of its kind. -/
theorem nameSlot?_eq_none_iff {slots : List Slot} :
    BaseBlock.nameSlot? slots = none ↔
      ∀ slot ∈ slots, (Descriptor.ofRecord slot.record).kind ≠ .monitorName := by
  unfold BaseBlock.nameSlot?
  rw [List.find?_eq_none]
  exact forall₂_congr fun _ _ => not_congr Descriptor.typeCode_eq_monitorNameTag_iff

/-- **The slot of the name** is the first one of its kind. -/
theorem nameSlot?_append_cons {before after : List Slot} {slot : Slot}
    (others : ∀ slot ∈ before, (Descriptor.ofRecord slot.record).kind ≠ .monitorName)
    (name : (Descriptor.ofRecord slot.record).kind = .monitorName) :
    BaseBlock.nameSlot? (before ++ slot :: after) = some slot := by
  refine List.find?_eq_some_iff_append.mpr
    ⟨Descriptor.typeCode_eq_monitorNameTag_iff.mpr name, before, after, rfl, fun other member => ?_⟩
  rw [Bool.not_eq_true', ← Bool.not_eq_true, Descriptor.typeCode_eq_monitorNameTag_iff]
  exact others other member

theorem offsets_eq_map_range :
    Slot.offsets = (List.range 4).map fun place => 54 + Slot.length * place :=
  rfl

/-- A slot stands eighteen bytes behind the one before it. -/
theorem Decoded.eq_slot_of_slots {bytes : Bytes} {before after : List Slot} {slot : Slot}
    (split : slots bytes = before ++ slot :: after) :
    before.length < 4 ∧ slot = Decoded.slot bytes (54 + 18 * before.length) := by
  have found : (slots bytes)[before.length]? = some slot := by
    rw [split, List.getElem?_append_right (Nat.le_refl _), Nat.sub_self]
    rfl
  rw [slots, offsets_eq_map_range, List.map_map, List.getElem?_map, Option.map_eq_some_iff] at found
  obtain ⟨place, listed, same⟩ := found
  obtain ⟨inside, rfl⟩ := List.getElem?_eq_some_iff.mp listed
  rw [List.getElem_range] at same
  exact ⟨by simpa using inside, same.symm⟩

/-! ### Trimmed texts -/

namespace Descriptor

/-- A byte of a text and the character that is shown for it. -/
inductive Shows : UInt8 → Char → Prop
  | ascii {byte : UInt8} {letter : Char} (small : byte.toNat < 0x80)
      (same : letter.toNat = byte.toNat) : Shows byte letter
  | other {byte : UInt8} (large : 0x80 ≤ byte.toNat) : Shows byte '\uFFFD'

theorem shows_character (byte : UInt8) : Shows byte (character byte) := by
  rcases Nat.lt_or_ge byte.toNat 0x80 with small | large
  · refine .ascii small ?_
    rw [character, if_pos (UInt8.lt_iff_toNat_lt.mpr small)]
    have each : ∀ value < 0x80, (Char.ofNat value).toNat = value := by decide
    exact each byte.toNat small
  · rw [character, if_neg fun small => Nat.not_lt_of_le large (UInt8.lt_iff_toNat_lt.mp small)]
    exact .other large

/-- What is left of a payload without the bytes up to `0x20` at its front, as many as there are, and
those at its back. -/
def TrimmedText (payload : Bytes) (text : List Char) : Prop :=
  ∃ before middle after, payload = before ++ middle ++ after ∧
    (∀ byte ∈ before ++ after, byte.toNat ≤ 0x20) ∧ (∀ byte ∈ middle.head?, 0x20 < byte.toNat) ∧
    (∀ byte ∈ middle.getLast?, 0x20 < byte.toNat) ∧ List.Forall₂ Shows middle text

/-- Whether a byte is trimmed at the ends of a text. -/
def isBlank (byte : UInt8) : Bool := decide (byte.toNat ≤ 0x20)

/-- Characters are trimmed as their bytes are. -/
theorem trimmed_map_character (payload : Bytes) :
    trimmed (payload.map character) =
      ((payload.dropWhile isBlank).rdropWhile isBlank).map character := by
  have same : isPadding ∘ character = isBlank := funext isPadding_character_eq
  unfold trimmed List.rdropWhile
  rw [List.dropWhile_map, ← List.map_reverse, List.dropWhile_map, ← List.map_reverse, same]

/-- **The text of a record** is what is left of its payload. -/
theorem trimmedText_characters (record : SlotRecord) :
    TrimmedText (payload record) (characters record) := by
  let rest := (payload record).dropWhile isBlank
  refine ⟨(payload record).takeWhile isBlank, rest.rdropWhile isBlank, rest.rtakeWhile isBlank,
    ?_, ?_, ?_, ?_, ?_⟩
  · rw [List.append_assoc, List.rdropWhile_append_rtakeWhile, List.takeWhile_append_dropWhile]
  · intro byte inside
    rcases List.mem_append.mp inside with front | back
    · have blank : isBlank byte = true := List.mem_takeWhile_imp front
      exact of_decide_eq_true blank
    · have blank : isBlank byte = true := List.mem_rtakeWhile_imp back
      exact of_decide_eq_true blank
  · intro byte first
    have begins := List.head?_dropWhile_not isBlank (payload record)
    obtain ⟨others, whole⟩ := List.rdropWhile_prefix isBlank (l := rest)
    have opening : rest.head? = some byte := by
      rw [← whole, List.head?_append, Option.mem_def.mp first]
      rfl
    rw [opening] at begins
    simpa [isBlank] using begins
  · intro byte last
    obtain ⟨filled, rfl⟩ := List.mem_getLast?_eq_getLast last
    have shown := List.rdropWhile_last_not isBlank rest filled
    simpa [isBlank] using shown
  · rw [characters, trimmed_map_character, List.forall₂_map_right_iff, List.forall₂_same]
    exact fun byte _ => shows_character byte

theorem payload_recordAt {bytes : Bytes} {start : Nat} (fits : start + 18 ≤ bytes.length) :
    payload (Field.recordAt bytes 18 start) = (bytes.drop (start + 4)).take 14 := by
  rw [payload, Field.toList_recordAt fits, List.drop_take, List.drop_drop]

end Descriptor

/-! ### Last words -/

/-- A character that parts words. -/
def PartsWords (character : Char) : Prop :=
  character.toNat = 0x20 ∨ 0x09 ≤ character.toNat ∧ character.toNat ≤ 0x0D

theorem isWordBreak_iff {character : Char} :
    BaseBlock.isWordBreak character = true ↔ PartsWords character :=
  decide_eq_true_iff

/-- The longest end of a text that nothing parts. -/
structure IsLastWord (text word : List Char) : Prop where
  ends : word <:+ text
  unparted : ∀ character ∈ word, ¬ PartsWords character
  longest : ∀ other, other <:+ text → (∀ character ∈ other, ¬ PartsWords character) →
    other <:+ word

section Words

variable {text word : List Char}

theorem suffix_rtakeWhile {test : Char → Bool} {other : List Char} (ends : other <:+ text)
    (passes : ∀ character ∈ other, test character = true) : other <:+ text.rtakeWhile test := by
  obtain ⟨before, rfl⟩ := ends
  unfold List.rtakeWhile
  rw [List.reverse_append, List.takeWhile_append_of_pos fun character inside =>
    passes character (List.mem_reverse.mp inside), List.reverse_append, List.reverse_reverse]
  exact List.suffix_append _ _

/-- **The last word** of a text whose end does not part words. -/
theorem isLastWord_lastWord (closed : ∀ character ∈ text.getLast?, ¬ PartsWords character) :
    IsLastWord text (BaseBlock.lastWord text) := by
  -- Words are looked for from the end, and there is nothing to skip there.
  have kept : text.rdropWhile BaseBlock.isWordBreak = text := by
    refine List.rdropWhile_eq_self_iff.mpr fun filled => mt isWordBreak_iff.mp ?_
    exact closed _ (List.getLast?_eq_getLast_of_ne_nil filled)
  have word : BaseBlock.lastWord text =
      text.rtakeWhile fun character => !BaseBlock.isWordBreak character := by
    rw [BaseBlock.lastWord, List.reverse_eq_iff.mp kept]
    rfl
  have passes {character : Char} :
      (!BaseBlock.isWordBreak character) = true ↔ ¬ PartsWords character := by
    rw [Bool.not_eq_true', ← Bool.not_eq_true, isWordBreak_iff]
  rw [word]
  refine ⟨List.rtakeWhile_suffix _ _, fun character inside => ?_, fun other ends unparted => ?_⟩
  · have whole : (!BaseBlock.isWordBreak character) = true :=
      List.mem_rtakeWhile_imp (p := fun character => !BaseBlock.isWordBreak character) inside
    exact passes.mp whole
  · exact suffix_rtakeWhile ends fun character inside => passes.mpr (unparted character inside)

/-- The last word is nothing only if the text is. -/
theorem IsLastWord.eq_nil_iff (last : IsLastWord text word)
    (closed : ∀ character ∈ text.getLast?, ¬ PartsWords character) : word = [] ↔ text = [] := by
  constructor
  · rintro rfl
    by_contra filled
    have ending := List.getLast?_eq_getLast_of_ne_nil filled
    have short : [text.getLast filled] <:+ [] :=
      last.longest _ ⟨text.dropLast, List.dropLast_append_getLast filled⟩ fun character inside =>
        List.mem_singleton.mp inside ▸ closed _ ending
    exact List.cons_ne_nil _ _ (List.suffix_nil.mp short)
  · rintro rfl
    exact List.suffix_nil.mp last.ends

end Words

/-- The end of a trimmed text does not part words. -/
theorem not_partsWords_of_getLast? (record : SlotRecord) :
    ∀ character ∈ (Descriptor.characters record).getLast?, ¬ PartsWords character := by
  intro character last
  obtain ⟨filled, rfl⟩ := List.mem_getLast?_eq_getLast last
  have shown : ¬ Descriptor.isPadding ((Descriptor.characters record).getLast filled) = true :=
    List.rdropWhile_last_not Descriptor.isPadding _ filled
  unfold Descriptor.isPadding at shown
  rw [decide_eq_true_eq] at shown
  unfold PartsWords
  omega

/-! ### The model name of a buffer -/

/-- **The model name** of a buffer with a whole base block. There is none exactly when no descriptor
is a name. Otherwise it is the last word of the first name among the descriptors, whose text is what
is left of the fourteen bytes of its slot when they are trimmed; it is empty only if that text is.
-/
theorem model_name_of_first_name {bytes : Bytes} (whole : blockLength ≤ bytes.length) :
    ∃ model descriptors, BaseBlock.modelName bytes = .ok model ∧
      (BaseBlock.descriptors bytes).run.value = .ok descriptors ∧
      (model = none ↔ ∀ descriptor ∈ descriptors, descriptor.kind ≠ .monitorName) ∧
      ∀ before text after, descriptors = before ++ .monitorName text :: after →
        (∀ descriptor ∈ before, descriptor.kind ≠ .monitorName) →
        Descriptor.TrimmedText ((bytes.drop (58 + 18 * before.length)).take 14) text.toList ∧
        ∃ name, model = some name ∧ IsLastWord text.toList name.toList ∧
          (name = "" ↔ text = "") := by
  refine ⟨Decoded.modelName bytes, Decoded.descriptors bytes, decodes_modelName.served whole,
    decodes_descriptors.served whole, ?_, fun before text after split others => ?_⟩
  · rw [Decoded.modelName, Option.map_eq_none_iff, nameSlot?_eq_none_iff, Decoded.descriptors,
      List.forall_mem_map]
  · obtain ⟨front, rest, cut, rfl, tail⟩ := List.map_eq_append_iff.mp split
    obtain ⟨slot, back, rfl, name, -⟩ := List.map_eq_cons_iff.mp tail
    obtain ⟨inside, place⟩ := Decoded.eq_slot_of_slots cut
    obtain rfl := Descriptor.eq_textOf_of_monitorName name
    have characters : (Descriptor.textOf slot.record).toList = Descriptor.characters slot.record :=
      String.toList_ofList
    have earlier : ∀ slot ∈ front, (Descriptor.ofRecord slot.record).kind ≠ .monitorName :=
      fun slot member => others _ (List.mem_map_of_mem member)
    have closed := not_partsWords_of_getLast? slot.record
    have last := isLastWord_lastWord closed
    have model : Decoded.modelName bytes =
        some (String.ofList (BaseBlock.lastWord (Descriptor.characters slot.record))) := by
      rw [Decoded.modelName, cut, nameSlot?_append_cons earlier
        (congrArg Descriptor.kind name)]
      rfl
    refine ⟨?_, _, model, ?_, ?_⟩
    · have fits : 54 + 18 * front.length + 18 ≤ bytes.length := by
        have long : 128 ≤ bytes.length := whole
        omega
      have payload : Descriptor.payload slot.record =
          (bytes.drop (58 + 18 * front.length)).take 14 := by
        rw [place, Decoded.slot, Descriptor.payload_recordAt fits, Nat.add_right_comm]
      rw [characters, List.length_map, ← payload]
      exact Descriptor.trimmedText_characters slot.record
    · rw [characters, String.toList_ofList]
      exact last
    · rw [← String.toList_inj, String.toList_ofList, ← String.toList_inj, characters]
      exact last.eq_nil_iff closed

/-- The third slot of the sample is its name, of which the last word is the model name. -/
theorem model_name_of_first_name_sample :
    blockLength ≤ sample.length ∧
      BaseBlock.modelName sample = .ok (some "P2418HT") ∧
      IsLastWord "DELL P2418HT".toList "P2418HT".toList := by
  have whole : blockLength ≤ sample.length := by decide +kernel
  obtain ⟨model, descriptors, read, listed, -, named⟩ := model_name_of_first_name whole
  have name : BaseBlock.modelName sample = .ok (some "P2418HT") := by decide +kernel
  have kinds : descriptors = (Decoded.descriptors sample).take 2 ++
      .monitorName "DELL P2418HT" :: (Decoded.descriptors sample).drop 3 := by
    rw [decodes_descriptors.served whole] at listed
    rw [← Except.ok.inj listed]
    decide +kernel
  obtain ⟨-, word, found, last, -⟩ := named _ _ _ kinds (by decide +kernel)
  rw [read, found] at name
  rw [Option.some.inj (Except.ok.inj name)] at last
  exact ⟨whole, read.trans (congrArg Except.ok (found.trans (Except.ok.inj name))), last⟩

end Edid
