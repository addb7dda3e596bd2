/-
**The lines of the report.** A report has one part for the identity, one for the size, one for each
slot, one for the name if there is one, and two for the resolutions. The parts stand one below the
other, so each of them is a line of the report unless it has a line feed itself.

Only the text of a slot can have one. It is trimmed at its ends, where line feeds are padding, and
nowhere else: a line feed between two characters that are no padding stays, and parts the text.

* `mem_trimmed_iff`: which padding is left inside a text that is trimmed;
* `lacks_line_iff`: which slots have a line feed in the report;
* `textLines_intercalate`, `textLines_report`: the lines of texts that are put one below the other;
* `lines_of_report`: the lines of the report of a buffer.
-/

import Mathlib.Data.List.Forall2
import Mathlib.Data.List.TakeWhile
import Edid.Proofs.Characters
import Edid.Proofs.Descriptor.Encoding
import Edid.Proofs.Views

namespace Edid

/-! ### Lines -/

/-- The lines of a text, which its line feeds part. -/
def textLines (text : String) : List String := (text.toList.splitOn '\n').map String.ofList

theorem textLines_of_lacks {text : String} (single : Lacks '\n' text) :
    textLines text = [text] := by
  rw [textLines, List.splitOn_eq_singleton single, List.map_singleton, String.ofList_toList]

theorem textLines_append (first second : String) :
    textLines (first ++ ("\n" ++ second)) = textLines first ++ textLines second := by
  unfold textLines
  rw [String.toList_append, String.toList_append]
  show ((first.toList ++ '\n' :: second.toList).splitOn '\n').map String.ofList = _
  rw [List.splitOn_append_cons_self, List.map_append]

/-- Texts without line feeds are their own lines. -/
theorem flatMap_textLines {lines : List String} (each : ∀ line ∈ lines, Lacks '\n' line) :
    lines.flatMap textLines = lines := by
  induction lines with
  | nil => rfl
  | cons first rest ih =>
      obtain ⟨one, others⟩ := List.forall_mem_cons.mp each
      rw [List.flatMap_cons, textLines_of_lacks one, ih others, List.singleton_append]

/-- **Texts one below the other** have their lines, the first text's first. -/
theorem textLines_intercalate (first : String) (rest : List String) :
    textLines ("\n".intercalate (first :: rest)) = (first :: rest).flatMap textLines := by
  induction rest generalizing first with
  | nil => rw [String.intercalate_singleton, List.flatMap_singleton]
  | cons second rest ih =>
      rw [String.intercalate_cons_cons, String.append_assoc, textLines_append, ih]
      rfl

/-- Texts that each have a line to themselves, and nothing behind the last line feed. -/
theorem textLines_join {lines : List String} (each : ∀ line ∈ lines, Lacks '\n' line) :
    textLines (String.join (lines.map (· ++ "\n"))) = lines ++ [""] := by
  induction lines with
  | nil => rfl
  | cons first rest ih =>
      obtain ⟨one, others⟩ := List.forall_mem_cons.mp each
      rw [List.map_cons, String.join_cons, String.append_assoc, textLines_append, ih others,
        textLines_of_lacks one]
      rfl

theorem length_splitOn (character : Char) (text : List Char) :
    (text.splitOn character).length = text.count character + 1 := by
  induction text with
  | nil => rw [List.splitOn_nil]; rfl
  | cons first rest ih =>
      rw [List.splitOn_cons_eq_if_modifyHead]
      by_cases same : first = character
      · subst same
        rw [if_pos (beq_self_eq_true first), List.length_cons, ih, List.count_cons_self]
      · rw [if_neg (by simpa using same), List.length_modifyHead, ih, List.count_cons_of_ne same]

/-- A text has one line more than line feeds. -/
theorem length_textLines (text : String) :
    (textLines text).length = text.toList.count '\n' + 1 := by
  rw [textLines, List.length_map, length_splitOn]

/-! ### Texts that are trimmed -/

namespace Descriptor

/-- A text that does not only consist of padding keeps all that follows it. -/
theorem dropWhile_append_of_exists {text : List Char}
    (visible : ∃ character ∈ text, isPadding character = false) (rest : List Char) :
    (text ++ rest).dropWhile isPadding = text.dropWhile isPadding ++ rest := by
  rw [List.dropWhile_append, if_neg]
  rw [List.isEmpty_iff, List.dropWhile_eq_nil_iff]
  obtain ⟨character, inside, shown⟩ := visible
  intro padding
  exact Bool.false_ne_true (shown.symm.trans (padding character inside))

/-- Padding that is not trimmed in front stands behind a character that is no padding. -/
theorem exists_before_of_dropWhile {padding : Char} (trims : isPadding padding = true)
    {text front after : List Char} (left : text.dropWhile isPadding = front ++ padding :: after) :
    ∃ before, text = before ++ padding :: after ∧
      ∃ character ∈ before, isPadding character = false := by
  have opening := List.head?_dropWhile_not isPadding text
  rw [left] at opening
  cases front with
  | nil => simp [trims] at opening
  | cons first rest =>
      refine ⟨text.takeWhile isPadding ++ first :: rest, ?_, first,
        List.mem_append_right _ List.mem_cons_self, by simpa using opening⟩
      rw [List.append_assoc, ← left, List.takeWhile_append_dropWhile]

/-- **Padding inside a text** is left exactly when it stands between two characters that are no
padding. -/
theorem mem_trimmed_iff {padding : Char} (trims : isPadding padding = true) {text : List Char} :
    padding ∈ trimmed text ↔ ∃ before after, text = before ++ padding :: after ∧
      (∃ character ∈ before, isPadding character = false) ∧
      ∃ character ∈ after, isPadding character = false := by
  rw [trimmed, List.mem_reverse]
  constructor
  · intro member
    obtain ⟨front, after, split⟩ := List.append_of_mem member
    obtain ⟨behind, turned, last, inside, shown⟩ := exists_before_of_dropWhile trims split
    have left : text.dropWhile isPadding = after.reverse ++ padding :: behind.reverse := by
      rw [List.reverse_eq_iff.mp turned, List.reverse_append, List.reverse_cons,
        List.append_assoc, List.singleton_append]
    obtain ⟨before, whole, visible⟩ := exists_before_of_dropWhile trims left
    exact ⟨before, behind.reverse, whole, visible, last, List.mem_reverse.mpr inside, shown⟩
  · rintro ⟨before, after, rfl, visible, shown⟩
    have behind : ∃ character ∈ after.reverse, isPadding character = false := by
      obtain ⟨character, inside, seen⟩ := shown
      exact ⟨character, List.mem_reverse.mpr inside, seen⟩
    rw [dropWhile_append_of_exists visible, List.reverse_append, List.reverse_cons,
      List.append_assoc, dropWhile_append_of_exists behind]
    simp

theorem character_eq_feed_iff {byte : UInt8} : character byte = '\n' ↔ byte = 0x0A := by
  have each : ∀ value < 256, character (.ofNat value) = '\n' → value = 0x0A := by decide +kernel
  constructor
  · intro feed
    exact UInt8.toNat_inj.mp (each byte.toNat byte.toNat_lt (by rwa [UInt8.ofNat_toNat]))
  · rintro rfl
    rfl

/-- The text of a record has a line feed inside: one that stands between two bytes that are not
trimmed. -/
def PartedText (record : SlotRecord) : Prop :=
  ∃ before after, payload record = before ++ 0x0A :: after ∧
    (∃ byte ∈ before, 0x20 < byte.toNat) ∧ ∃ byte ∈ after, 0x20 < byte.toNat

theorem exists_map_character_iff {bytes : Bytes} :
    (∃ letter ∈ bytes.map character, isPadding letter = false) ↔
      ∃ byte ∈ bytes, 0x20 < byte.toNat := by
  simp [isPadding_character_eq]

/-- **Line feeds in a text** are those inside the payload. -/
theorem lacks_textOf_iff {record : SlotRecord} :
    Lacks '\n' (textOf record) ↔ ¬ PartedText record := by
  rw [textOf, lacks_ofList, characters, not_iff_not, mem_trimmed_iff (by decide)]
  constructor
  · rintro ⟨front, back, split, visible, shown⟩
    obtain ⟨before, rest, cut, rfl, others⟩ := List.map_eq_append_iff.mp split
    obtain ⟨byte, after, rfl, feed, rfl⟩ := List.map_eq_cons_iff.mp others
    obtain rfl := character_eq_feed_iff.mp feed
    exact ⟨before, after, cut, exists_map_character_iff.mp visible,
      exists_map_character_iff.mp shown⟩
  · rintro ⟨before, after, cut, visible, shown⟩
    refine ⟨before.map character, after.map character, ?_, exists_map_character_iff.mpr visible,
      exists_map_character_iff.mpr shown⟩
    rw [cut, List.map_append, List.map_cons]
    rfl

/-! ### Descriptors in the report -/

theorem lacks_limits (limits : RangeLimits) : Lacks '\n' limits.text := by
  unfold RangeLimits.text
  simp only [lacks_append, @lacks_toString '\n' rfl, and_true]
  decide

theorem lacks_timing (timing : DetailedTiming) : Lacks '\n' timing.text := by
  unfold DetailedTiming.text
  simp only [lacks_append, @lacks_toString '\n' rfl, and_true]
  decide

theorem lacks_label (descriptor : Descriptor) : Lacks '\n' descriptor.label := by
  cases descriptor <;> rw [label] <;> decide

/-- Only the text of a descriptor can have a line feed. -/
theorem lacks_line_iff (descriptor : Descriptor) :
    Lacks '\n' descriptor.line ↔ ∀ text ∈ descriptor.text?, Lacks '\n' text := by
  have mark : Lacks '\n' ": " := by decide
  have dump := @lacks_dump '\n' rfl
  rw [line, lacks_append, lacks_append, and_iff_right ⟨lacks_label descriptor, mark⟩]
  cases descriptor with
  | serialNumber text | unspecifiedText text | monitorName text => simp [body, text?]
  | rangeLimits limits => simp [body, text?, lacks_limits]
  | whitePoint record | standardTimings record => simp [body, text?, dump record.toList]
  | manufacturerSpecific tag record => simp [body, text?, dump record.toList]
  | detailedTiming timing => simp [body, text?, lacks_timing]

/-- A record is parted if it is tagged as a text that has a line feed inside. -/
def Parted (record : SlotRecord) : Prop :=
  (number record = 0xFF ∨ number record = 0xFE ∨ number record = 0xFC) ∧ PartedText record

/-- **A slot has a line feed in the report** exactly when it is parted. -/
theorem lacks_line_ofRecord_iff {record : SlotRecord} :
    Lacks '\n' (ofRecord record).line ↔ ¬ Parted record := by
  have text := @lacks_textOf_iff record
  rw [lacks_line_iff, ofRecord_eq, Parted, not_and]
  split_ifs <;> simp_all [text?]

end Descriptor

/-! ### The other parts of the report -/

theorem ManufacturerId.lacks_text (maker : ManufacturerId) : Lacks '\n' maker.text := by
  rw [text, lacks_ofList]
  intro member
  obtain ⟨value, listed, letter⟩ := List.mem_filterMap.mp member
  have small : value < 32 := by
    simp only [List.mem_cons, List.not_mem_nil, or_false] at listed
    omega
  have letters : ∀ value < 32, letter? value ≠ some '\n' := by decide +kernel
  exact letters value small letter

theorem SerialCode.lacks_text (serial : SerialCode) : Lacks '\n' serial.text := by
  rw [text, lacks_ofList]
  intro member
  obtain ⟨byte, _, inside⟩ := List.mem_flatMap.mp member
  unfold byteText at inside
  dsimp only at inside
  split at inside
  · rename_i letter
    rw [← List.mem_singleton.mp inside] at letter
    exact absurd letter (by decide)
  · exact notMem_ofByte rfl byte inside

theorem ManufactureDate.lacks_text (date : ManufactureDate) : Lacks '\n' date.text := by
  have year := @lacks_toString_int '\n' rfl (by decide) date.year
  unfold text
  simp only [lacks_append, @lacks_toString '\n' rfl, year, true_and, and_true]
  decide

theorem Version.lacks_text (version : Version) : Lacks '\n' version.text := by
  have number := @lacks_toString_int '\n' rfl (by decide)
  unfold text
  simp only [lacks_append, number version.major.toInt, number version.minor.toInt, true_and,
    and_true]
  decide

theorem Single.lacks_text (number : Single) : Lacks '\n' number.text := by
  have sign : Lacks '\n' (if number.negative then "-" else "") := by
    split <;> decide
  unfold text
  simp only [lacks_append, @lacks_toString '\n' rfl, sign, true_and, and_true]
  decide

theorem PhysicalSize.lacks_text (size : PhysicalSize) : Lacks '\n' size.text := by
  have number := @lacks_toString_int '\n' rfl (by decide)
  unfold text
  simp only [lacks_append, number size.horizontal.toInt, number size.vertical.toInt,
    Single.lacks_text, true_and, and_true]
  decide

/-- The last word of a text has none of the characters that part words. -/
theorem notMem_lastWord {text : List Char} {character : Char}
    (breaks : BaseBlock.isWordBreak character = true) :
    character ∉ BaseBlock.lastWord text := by
  unfold BaseBlock.lastWord
  rw [List.mem_reverse]
  intro member
  have inside := List.mem_takeWhile_imp member
  rw [breaks] at inside
  exact Bool.false_ne_true inside

theorem lacks_intercalate {character : Char} {separator : String}
    (apart : Lacks character separator) {texts : List String}
    (each : ∀ text ∈ texts, Lacks character text) :
    Lacks character (separator.intercalate texts) := by
  cases texts with
  | nil =>
      rw [String.intercalate_nil]
      exact List.not_mem_nil
  | cons first rest =>
      obtain ⟨one, others⟩ := List.forall_mem_cons.mp each
      rw [intercalate_cons, lacks_append]
      refine ⟨one, lacks_join fun text member => ?_⟩
      obtain ⟨other, listed, rfl⟩ := List.mem_map.mp member
      exact lacks_append.mpr ⟨apart, others other listed⟩

namespace Decoded

variable (bytes : Bytes)

theorem lacks_identityLine : Lacks '\n' (summary bytes).identityLine := by
  have kind : Lacks '\n' (if (summary bytes).digital then "Digital" else "Analog") := by
    split <;> decide
  have maker : Lacks '\n' (summary bytes).manufacturer := (manufacturer bytes).lacks_text
  have product : Lacks '\n' (summary bytes).product := lacks_lower rfl _
  have serial : Lacks '\n' (summary bytes).serial := (serial bytes).lacks_text
  have version : Lacks '\n' (summary bytes).version := (version bytes).lacks_text
  unfold Summary.identityLine
  simp only [lacks_append, kind, maker, product, serial, version, ManufactureDate.lacks_text,
    and_true]
  decide

theorem lacks_sizeLine : Lacks '\n' ("  " ++ (summary bytes).size.text) :=
  lacks_append.mpr ⟨by decide, PhysicalSize.lacks_text _⟩

theorem lacks_modelLines : ∀ line ∈ (summary bytes).modelLines, Lacks '\n' line := by
  intro line member
  unfold Summary.modelLines at member
  cases named : (summary bytes).modelName with
  | none =>
      rw [named] at member
      exact absurd member List.not_mem_nil
  | some name =>
      rw [named] at member
      obtain ⟨slot, _, rfl⟩ :=
        Option.map_eq_some_iff.mp (show Option.map _ _ = some name from named)
      have word : Lacks '\n'
          (String.ofList (BaseBlock.lastWord (Descriptor.characters slot.record))) :=
        lacks_ofList.mpr (notMem_lastWord (by decide))
      exact List.mem_singleton.mp member ▸ lacks_append.mpr ⟨by decide, word⟩

theorem lacks_preferredLine :
    Lacks '\n' ("  Preferred Resolution: " ++ (summary bytes).preferred) :=
  lacks_append.mpr ⟨by decide, (preferred bytes).lacks_label rfl (by decide) (by decide)⟩

theorem lacks_resolutionsLine :
    Lacks '\n' ("  Resolutions: " ++ ", ".intercalate (summary bytes).resolutions) := by
  refine lacks_append.mpr ⟨by decide, lacks_intercalate (by decide) fun label member => ?_⟩
  obtain ⟨resolution, _, rfl⟩ := List.mem_map.mp member
  exact resolution.lacks_label rfl (by decide) (by decide)

/-! ### The report of a buffer -/

theorem descriptors_summary : (summary bytes).descriptors =
    Slot.offsets.map fun offset => (Descriptor.ofRecord (slot bytes offset).record).line := by
  have lines : (summary bytes).descriptors = (descriptors bytes).map Descriptor.line := rfl
  rw [lines, descriptors, slots, List.map_map, List.map_map]
  rfl

theorem lacks_descriptor_iff {offset : Nat} :
    Lacks '\n' (Descriptor.ofRecord (slot bytes offset).record).line ↔
      ¬ Descriptor.Parted (slot bytes offset).record :=
  Descriptor.lacks_line_ofRecord_iff

/-- **The lines of the report**: only a slot can have more than one. -/
theorem textLines_report :
    textLines (summary bytes).report =
      [(summary bytes).identityLine, "  " ++ (summary bytes).size.text] ++
        (summary bytes).descriptors.flatMap (fun line => textLines ("  " ++ line)) ++
        (summary bytes).modelLines ++
        ["  Preferred Resolution: " ++ (summary bytes).preferred,
          "  Resolutions: " ++ ", ".intercalate (summary bytes).resolutions] := by
  have opening : ∀ line ∈ [(summary bytes).identityLine, "  " ++ (summary bytes).size.text],
      Lacks '\n' line :=
    List.forall_mem_cons.mpr
      ⟨lacks_identityLine bytes, List.forall_mem_singleton.mpr (lacks_sizeLine bytes)⟩
  have closing : ∀ line ∈ ["  Preferred Resolution: " ++ (summary bytes).preferred,
      "  Resolutions: " ++ ", ".intercalate (summary bytes).resolutions], Lacks '\n' line :=
    List.forall_mem_cons.mpr
      ⟨lacks_preferredLine bytes, List.forall_mem_singleton.mpr (lacks_resolutionsLine bytes)⟩
  have parts : textLines (summary bytes).report =
      (summary bytes).reportLines.flatMap textLines :=
    textLines_intercalate _ _
  rw [parts, Summary.reportLines, List.flatMap_append, List.flatMap_append, List.flatMap_append,
    flatMap_textLines opening, flatMap_textLines closing,
    flatMap_textLines (lacks_modelLines bytes), List.flatMap_map]

theorem length_textLines_report :
    (textLines (summary bytes).report).length =
      (summary bytes).reportLines.length +
        ((summary bytes).descriptors.map fun line => line.toList.count '\n').sum := by
  have more (lines : List String) :
      (lines.flatMap fun line => textLines ("  " ++ line)).length =
        lines.length + (lines.map fun line => line.toList.count '\n').sum := by
    induction lines with
    | nil => rfl
    | cons first rest ih =>
        have indent : ("  " ++ first).toList.count '\n' = first.toList.count '\n' := by
          rw [String.toList_append, List.count_append]
          exact Nat.zero_add _
        rw [List.flatMap_cons, List.length_append, length_textLines, indent, ih, List.length_cons,
          List.map_cons, List.sum_cons]
        omega
  rw [textLines_report, Summary.reportLines]
  simp only [List.length_append, more, List.length_map]
  omega

theorem length_reportLines :
    (summary bytes).reportLines.length =
      8 + if (summary bytes).modelName.isSome then 1 else 0 := by
  have slots : (summary bytes).descriptors.length = 4 := rfl
  have model : (summary bytes).modelLines.length =
      if (summary bytes).modelName.isSome then 1 else 0 := by
    unfold Summary.modelLines
    cases (summary bytes).modelName <;> rfl
  unfold Summary.reportLines
  simp only [List.length_append, List.length_map, slots, model, List.length_cons, List.length_nil]
  omega

/-- The parts of the report are its lines exactly when no slot is parted. -/
theorem textLines_report_eq_iff :
    textLines (summary bytes).report = (summary bytes).reportLines ↔
      ∀ offset ∈ Slot.offsets, ¬ Descriptor.Parted (slot bytes offset).record := by
  constructor
  · intro same offset listed
    have length := length_textLines_report bytes
    rw [same] at length
    have none : ((summary bytes).descriptors.map fun line => line.toList.count '\n').sum = 0 := by
      omega
    have member : (Descriptor.ofRecord (slot bytes offset).record).line ∈
        (summary bytes).descriptors := by
      rw [descriptors_summary]
      exact List.mem_map_of_mem listed
    have zero := List.sum_eq_zero_iff_forall_eq_nat.mp none _ (List.mem_map_of_mem member)
    exact (lacks_descriptor_iff bytes).mp (List.count_eq_zero.mp zero)
  · intro whole
    have each : ∀ line ∈ (summary bytes).descriptors.map ("  " ++ ·), Lacks '\n' line := by
      intro line member
      rw [descriptors_summary, List.map_map] at member
      obtain ⟨offset, listed, rfl⟩ := List.mem_map.mp member
      exact lacks_append.mpr ⟨by decide, (lacks_descriptor_iff bytes).mpr (whole offset listed)⟩
    rw [textLines_report, ← List.flatMap_map, flatMap_textLines each]
    rfl

end Decoded

/-- **The lines of a report** are its parts, as long as no slot is parted. The line of a slot has a
line feed exactly when the slot is tagged as a text whose payload has one between two bytes that are
not trimmed, and then the report has a line more for each of them. No other part of the report ever
has one: eight lines, or nine with a name, are all there is without such a slot. -/
theorem lines_of_report {bytes : Bytes} (whole : blockLength ≤ bytes.length) :
    ∃ info : Summary, (Summary.ofBytes bytes).run.value = .ok info ∧
      List.Forall₂ (fun offset line => ¬ Lacks '\n' line ↔
        Descriptor.Parted (Decoded.slot bytes offset).record) Slot.offsets info.descriptors ∧
      textLines info.report =
        [info.identityLine, "  " ++ info.size.text] ++
          info.descriptors.flatMap (fun line => textLines ("  " ++ line)) ++ info.modelLines ++
          ["  Preferred Resolution: " ++ info.preferred,
            "  Resolutions: " ++ ", ".intercalate info.resolutions] ∧
      (textLines info.report).length = 8 + (if info.modelName.isSome then 1 else 0) +
        (info.descriptors.map fun line => line.toList.count '\n').sum ∧
      (textLines info.report = info.reportLines ↔
        ∀ offset ∈ Slot.offsets, ¬ Descriptor.Parted (Decoded.slot bytes offset).record) := by
  refine ⟨Decoded.summary bytes, decodes_summary.served whole, ?_,
    Decoded.textLines_report bytes, ?_, Decoded.textLines_report_eq_iff bytes⟩
  · rw [Decoded.descriptors_summary, List.forall₂_map_right_iff, List.forall₂_same]
    exact fun offset _ => not_iff_comm.mp (Decoded.lacks_descriptor_iff bytes).symm
  · rw [Decoded.length_textLines_report, Decoded.length_reportLines]

/-- The report of the sample has nine lines, the eighth of which is on its name. -/
theorem lines_of_report_sample :
    blockLength ≤ sample.length ∧ ∃ info : Summary, (Summary.ofBytes sample).run.value = .ok info ∧
      textLines info.report = info.reportLines ∧ (textLines info.report).length = 9 ∧
      info.modelLines = ["  Model: P2418HT"] := by
  have whole : blockLength ≤ sample.length := by decide +kernel
  have each : ∀ offset ∈ Slot.offsets,
      Lacks '\n' (Descriptor.ofRecord (Decoded.slot sample offset).record).line := by
    decide +kernel
  obtain ⟨info, summed, _, _, length, same⟩ := lines_of_report whole
  have known : info = Decoded.summary sample :=
    Except.ok.inj (summed.symm.trans (decodes_summary.served whole))
  refine ⟨whole, info, summed, ?_, ?_, ?_⟩
  · exact same.mpr fun offset listed => Descriptor.lacks_line_ofRecord_iff.mp (each offset listed)
  · rw [length, known]
    decide +kernel
  · rw [known]
    decide +kernel

/-- A buffer whose first slot has a text of two lines. -/
def forged : Bytes :=
  List.replicate 0x36 0 ++
    [0x00, 0x00, 0x00, 0xFE, 0x00, 0x41, 0x0A, 0x20, 0x20, 0x4D, 0x6F, 0x64, 0x65, 0x6C, 0x3A, 0x20,
      0x42, 0x0A] ++
    List.replicate 56 0

/-- The text of that slot adds a line to the report that looks like the one on the name of a
display, and the display has no name. -/
theorem report_of_forged :
    blockLength ≤ forged.length ∧ ∃ info : Summary, (Summary.ofBytes forged).run.value = .ok info ∧
      "Unspecified Text: A\n  Model: B" ∈ info.descriptors ∧ info.modelName = none ∧
      (textLines info.report).length = 9 ∧ "  Model: B" ∈ textLines info.report := by
  have whole : blockLength ≤ forged.length := by decide +kernel
  have text : "Unspecified Text: A\n  Model: B" ∈ (Decoded.summary forged).descriptors := by
    decide +kernel
  have line : "  Model: B" ∈ textLines ("  " ++ "Unspecified Text: A\n  Model: B") := by
    decide +kernel
  refine ⟨whole, Decoded.summary forged, decodes_summary.served whole, text, by decide +kernel, ?_,
    ?_⟩
  · rw [Decoded.length_textLines_report, Decoded.length_reportLines]
    decide +kernel
  · rw [Decoded.textLines_report]
    exact List.mem_append_left _ (List.mem_append_left _ (List.mem_append_right _
      (List.mem_flatMap.mpr ⟨_, text, line⟩)))

end Edid
