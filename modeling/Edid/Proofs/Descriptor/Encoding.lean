/-
**Records that are written and read back.** A descriptor is written into eighteen bytes in one of
four forms: a text behind its tag, with padding before and behind it; range limits behind theirs;
bytes that are kept as they are; and a timing, which shares some of its bytes with the blanking and
leaves the rest of the record to others. Reading the record gives back what was written, whatever
stands in the bytes that the form leaves free.

* `trimmed_padded`: padding around a text is taken away, and nothing else is;
* `ofRecord_encode`: a timing is read back;
* `form_eq_iff`: the form of a record is seen from its first four bytes;
* `ofRecord_of_written`: all forms together.
-/

import Mathlib.Data.List.TakeWhile
import Edid.Proofs.Descriptor.Kind
import Edid.Sample

namespace Edid

/-! ### The four forms -/

/-- The bytes of a record with a tag. -/
def SlotRecord.tagged (tag : UInt8) (content : Bytes) : Bytes := [0, 0, 0, tag] ++ content

/-- The first eight bytes of a record with a timing. The upper nibbles of the area share their bytes
with those of the blanking, `across` beside the lines and `down` below them. -/
def DetailedTiming.encode (timing : DetailedTiming) (across down : Nat) : Bytes :=
  [ .ofNat (timing.clock.toNat % 256), .ofNat (timing.clock.toNat / 256),
    .ofNat (timing.width.toNat % 256), .ofNat (across % 256),
    .ofNat (16 * (timing.width.toNat / 256) + across / 256),
    .ofNat (timing.height.toNat % 256), .ofNat (down % 256),
    .ofNat (16 * (timing.height.toNat / 256) + down / 256) ]

namespace Descriptor

/-- The tags of the texts, each with the descriptor that its text becomes. -/
def textTags : List (UInt8 × (String → Descriptor)) :=
  [(0xFF, serialNumber), (0xFE, unspecifiedText), (0xFC, monitorName)]

/-- A text of ASCII characters that neither begins nor ends with padding. -/
structure Plain (text : List Char) : Prop where
  ascii : ∀ character ∈ text, character.toNat < 128
  opening : ∀ character ∈ text.head?, 0x20 < character.toNat
  closing : ∀ character ∈ text.getLast?, 0x20 < character.toNat

theorem plain_iff {text : List Char} :
    Plain text ↔ text.all (fun character => decide (character.toNat < 128)) = true ∧
      text.head?.all (fun character => decide (0x20 < character.toNat)) = true ∧
      text.getLast?.all (fun character => decide (0x20 < character.toNat)) = true := by
  simp only [List.all_eq_true, Option.all_eq_true, decide_eq_true_eq]
  exact ⟨fun ⟨ascii, opening, closing⟩ => ⟨ascii, opening, closing⟩,
    fun ⟨ascii, opening, closing⟩ => ⟨ascii, opening, closing⟩⟩

instance : DecidablePred Plain := fun _ => decidable_of_iff _ plain_iff.symm

/-- The forms in which descriptors are written. -/
inductive Form where
  | text
  | limits
  | raw
  | timing
deriving DecidableEq

def Kind.form : Kind → Form
  | serialNumber => .text
  | unspecifiedText => .text
  | rangeLimits => .limits
  | monitorName => .text
  | whitePoint => .raw
  | standardTimings => .raw
  | manufacturerSpecific => .raw
  | detailedTiming => .timing

/-- What the first four bytes of a record say about its form. -/
def Form.Fits (record : SlotRecord) : Form → Prop
  | text => ∃ entry ∈ textTags, Tagged entry.1 record
  | limits => Tagged 0xFD record
  | raw => ∃ tag : UInt8, (tag = 0xFB ∨ tag = 0xFA ∨ tag ≤ 0x0F) ∧ Tagged tag record
  | timing => ¬ (number record ≤ 0x0F ∨ 0xFA ≤ number record ∧ number record ≤ 0xFF)

/-! ### Texts and their padding -/

variable {record : SlotRecord} {tag : UInt8} {content before after : Bytes}

theorem dropWhile_isPadding {text : List Char}
    (opening : ∀ character ∈ text.head?, isPadding character = false) :
    text.dropWhile isPadding = text := by
  cases text with
  | nil => rfl
  | cons first rest => exact List.dropWhile_cons_of_neg (by simp [opening first rfl])

/-- **Padding around a text** is taken away, and nothing else is. -/
theorem trimmed_padded {before after text : List Char}
    (filled : ∀ character ∈ before ++ after, isPadding character = true)
    (opening : ∀ character ∈ text.head?, isPadding character = false)
    (closing : ∀ character ∈ text.getLast?, isPadding character = false) :
    trimmed (before ++ text ++ after) = text := by
  obtain ⟨front, back⟩ := List.forall_mem_append.mp filled
  have behind : ∀ character ∈ after.reverse, isPadding character = true :=
    fun character inside => back character (List.mem_reverse.mp inside)
  unfold trimmed
  rw [List.append_assoc, List.dropWhile_append_of_pos front]
  by_cases empty : text = []
  · subst empty
    rw [List.nil_append, List.dropWhile_eq_nil_iff.mpr back]
    rfl
  · have starts : ∀ character ∈ (text ++ after).head?, isPadding character = false := by
      rwa [List.head?_append_of_ne_nil _ empty]
    have ends : ∀ character ∈ text.reverse.head?, isPadding character = false := by
      rwa [List.head?_reverse]
    rw [dropWhile_isPadding starts, List.reverse_append, List.dropWhile_append_of_pos behind,
      dropWhile_isPadding ends, List.reverse_reverse]

theorem isPadding_character_eq (byte : UInt8) :
    isPadding (character byte) = decide (byte.toNat ≤ 0x20) := by
  have each : ∀ value < 256, isPadding (character (.ofNat value)) = decide (value ≤ 0x20) := by
    decide +kernel
  simpa using each byte.toNat byte.toNat_lt

theorem isPadding_character {byte : UInt8} (small : byte ≤ 0x20) :
    isPadding (character byte) = true := by
  rw [isPadding_character_eq]
  exact decide_eq_true (UInt8.le_iff_toNat_le.mp small)

theorem character_toUInt8 {letter : Char} (ascii : letter.toNat < 128) :
    character letter.toUInt8 = letter := by
  have each : ∀ value < 128, character (Char.ofNat value).toUInt8 = Char.ofNat value := by decide
  have same := each letter.toNat ascii
  rwa [Char.ofNat_toNat] at same

/-! ### Bytes of a record -/

theorem byte_eq_getD (record : SlotRecord) (place : Nat) :
    record.byte place = record.toList.getD place 0 := by
  rw [SlotRecord.byte, List.getD_eq_getElem?_getD, Vector.getElem?_toList]

theorem tagged_of_toList (written : record.toList = SlotRecord.tagged tag content) :
    Tagged tag record := by
  refine ⟨?_, ?_, ?_, ?_⟩ <;> rw [byte_eq_getD, written] <;> rfl

theorem payload_of_toList (written : record.toList = SlotRecord.tagged tag content) :
    payload record = content := by
  rw [payload, written]
  rfl

/-- A plain text is read back from the padding around it. -/
theorem textOf_of_padded {text : String} (plain : Plain text.toList)
    (filled : ∀ byte ∈ before ++ after, byte ≤ 0x20)
    (padded : payload record = before ++ text.toList.map Char.toUInt8 ++ after) :
    textOf record = text := by
  have letters : (text.toList.map Char.toUInt8).map character = text.toList := by
    rw [List.map_map]
    calc text.toList.map (character ∘ Char.toUInt8)
        = text.toList.map id :=
          List.map_congr_left fun letter inside => character_toUInt8 (plain.ascii letter inside)
      _ = text.toList := List.map_id _
  have shown : ∀ letter : Char, 0x20 < letter.toNat → isPadding letter = false := by
    intro letter above
    simpa [isPadding] using above
  have blank : ∀ letter ∈ before.map character ++ after.map character, isPadding letter = true := by
    rw [← List.map_append]
    intro letter inside
    obtain ⟨byte, member, rfl⟩ := List.mem_map.mp inside
    exact isPadding_character (filled byte member)
  rw [textOf, characters, padded, List.map_append, List.map_append, letters,
    trimmed_padded blank (fun letter first => shown letter (plain.opening letter first))
      (fun letter last => shown letter (plain.closing letter last)), String.ofList_toList]

/-! ### Reading the forms with a tag -/

theorem ofRecord_of_textTag {entry : UInt8 × (String → Descriptor)} (known : entry ∈ textTags)
    (tagged : Tagged entry.1 record) : ofRecord record = entry.2 (textOf record) := by
  simp only [textTags, List.mem_cons, List.not_mem_nil, or_false] at known
  rw [ofRecord_eq, tagged_iff.mp tagged]
  rcases known with rfl | rfl | rfl <;> rfl

theorem ofRecord_of_limitsTag (tagged : Tagged 0xFD record) :
    ofRecord record = .rangeLimits (.ofRecord record) := by
  rw [ofRecord_eq, tagged_iff.mp tagged]
  rfl

theorem ofRecord_of_whitePointTag (tagged : Tagged 0xFB record) :
    ofRecord record = .whitePoint record := by
  rw [ofRecord_eq, tagged_iff.mp tagged]
  rfl

theorem ofRecord_of_standardTag (tagged : Tagged 0xFA record) :
    ofRecord record = .standardTimings record := by
  rw [ofRecord_eq, tagged_iff.mp tagged]
  rfl

theorem ofRecord_of_makerTag (low : tag ≤ 0x0F) (tagged : Tagged tag record) :
    ofRecord record = .manufacturerSpecific tag record := by
  have small : tag.toNat ≤ 0x0F := UInt8.le_iff_toNat_le.mp low
  rw [ofRecord_eq, tagged_iff.mp tagged, tagged.fourth]
  split_ifs <;> first | rfl | omega

/-- Ten times a byte fits into a word. -/
theorem toNat_maxClock (record : SlotRecord) :
    (RangeLimits.ofRecord record).maxClock.toNat = 10 * (record.byte 9).toNat := by
  have small := (record.byte 9).toNat_lt
  show ((record.byte 9).toUInt16 * 10).toNat = _
  rw [UInt16.toNat_mul, UInt8.toNat_toUInt16]
  show (record.byte 9).toNat * 10 % 65536 = _
  omega

/-! ### Reading a timing -/

variable {timing : DetailedTiming} {across down : Nat} {rest : Bytes}

/-- **A timing is read back** from the bytes that it shares with the blanking. -/
theorem ofRecord_encode (narrow : timing.width.toNat < 4096) (low : timing.height.toNat < 4096)
    (beside : across < 4096) (below : down < 4096)
    (written : record.toList = timing.encode across down ++ rest) :
    DetailedTiming.ofRecord record = timing := by
  have clock : (DetailedTiming.ofRecord record).clock = timing.clock := by
    have small := timing.clock.toNat_lt
    rw [← UInt16.toNat_inj, DetailedTiming.toNat_clock, byte_eq_getD, byte_eq_getD, written]
    simp [DetailedTiming.encode]
    omega
  have width : (DetailedTiming.ofRecord record).width = timing.width := by
    rw [← UInt16.toNat_inj, DetailedTiming.toNat_width, byte_eq_getD, byte_eq_getD, written]
    simp [DetailedTiming.encode]
    omega
  have height : (DetailedTiming.ofRecord record).height = timing.height := by
    rw [← UInt16.toNat_inj, DetailedTiming.toNat_height, byte_eq_getD, byte_eq_getD, written]
    simp [DetailedTiming.encode]
    omega
  show DetailedTiming.mk (DetailedTiming.ofRecord record).clock
    (DetailedTiming.ofRecord record).width (DetailedTiming.ofRecord record).height = timing
  rw [clock, width, height]

/-! ### Telling the forms apart -/

theorem fits_text_iff : Form.text.Fits record ↔
    number record = 0xFF ∨ number record = 0xFE ∨ number record = 0xFC := by
  simp only [Form.Fits, textTags, List.exists_mem_cons_iff, tagged_iff]
  simp

theorem fits_limits_iff : Form.limits.Fits record ↔ number record = 0xFD := tagged_iff

theorem fits_raw_iff : Form.raw.Fits record ↔
    number record = 0xFB ∨ number record = 0xFA ∨ number record ≤ 0x0F := by
  simp only [Form.Fits, tagged_iff]
  constructor
  · rintro ⟨tag, rfl | rfl | low, equal⟩
    · exact Or.inl equal
    · exact Or.inr (Or.inl equal)
    · have small : tag.toNat ≤ 0x0F := UInt8.le_iff_toNat_le.mp low
      omega
  · rintro (white | standard | low)
    · exact ⟨0xFB, Or.inl rfl, white⟩
    · exact ⟨0xFA, Or.inr (Or.inl rfl), standard⟩
    · have kept : (UInt8.ofNat (number record)).toNat = number record := by
        rw [UInt8.toNat_ofNat']
        omega
      refine ⟨.ofNat (number record), Or.inr (Or.inr ?_), kept.symm⟩
      rw [UInt8.le_iff_toNat_le, kept]
      exact low

/-- The form of a kind fits every record whose number the kind admits. -/
theorem fits_of_admits {kind : Kind} (admitted : kind.Admits (number record)) :
    kind.form.Fits record := by
  cases kind with
  | serialNumber => exact fits_text_iff.mpr (Or.inl admitted)
  | unspecifiedText => exact fits_text_iff.mpr (Or.inr (Or.inl admitted))
  | monitorName => exact fits_text_iff.mpr (Or.inr (Or.inr admitted))
  | rangeLimits => exact fits_limits_iff.mpr admitted
  | whitePoint => exact fits_raw_iff.mpr (Or.inl admitted)
  | standardTimings => exact fits_raw_iff.mpr (Or.inr (Or.inl admitted))
  | manufacturerSpecific => exact fits_raw_iff.mpr (Or.inr (Or.inr admitted))
  | detailedTiming => exact admitted

theorem exists_admits_of_fits {form : Form} (fits : form.Fits record) :
    ∃ kind : Kind, kind.form = form ∧ kind.Admits (number record) := by
  cases form with
  | text =>
      rcases fits_text_iff.mp fits with serial | unspecified | name
      · exact ⟨.serialNumber, rfl, serial⟩
      · exact ⟨.unspecifiedText, rfl, unspecified⟩
      · exact ⟨.monitorName, rfl, name⟩
  | limits => exact ⟨.rangeLimits, rfl, fits_limits_iff.mp fits⟩
  | raw =>
      rcases fits_raw_iff.mp fits with white | standard | maker
      · exact ⟨.whitePoint, rfl, white⟩
      · exact ⟨.standardTimings, rfl, standard⟩
      · exact ⟨.manufacturerSpecific, rfl, maker⟩
  | timing => exact ⟨.detailedTiming, rfl, fits⟩

theorem Form.eq_of_fits {first second : Form} (one : first.Fits record)
    (other : second.Fits record) : first = second := by
  obtain ⟨kind, rfl, admitted⟩ := exists_admits_of_fits one
  obtain ⟨_, rfl, alike⟩ := exists_admits_of_fits other
  rw [Kind.eq_of_admits admitted alike]

/-- **The form of a record** is seen from its first four bytes. -/
theorem form_eq_iff {form : Form} : (ofRecord record).kind.form = form ↔ form.Fits record := by
  have fitting := fits_of_admits (admits_kind record)
  constructor
  · rintro rfl
    exact fitting
  · exact Form.eq_of_fits fitting

/-! ### All forms -/

/-- **Reading a record undoes writing it**, in each of the four forms. A plain text is read back
from any padding around it, with the kind of its tag; range limits are read back whatever stands
beside them, their clock in tens; the other tags keep the record as it is; and a timing is read back
whatever the blanking and the bytes behind it are, unless its clock is zero and its first bytes are
a tag. The first four bytes of a record fit exactly one form, and they alone decide its kind. -/
theorem ofRecord_of_written :
    (∀ entry ∈ textTags, ∀ (text : String) (before after : Bytes) (record : SlotRecord),
      Plain text.toList → (∀ byte ∈ before ++ after, byte ≤ 0x20) →
      record.toList =
        SlotRecord.tagged entry.1 (before ++ text.toList.map Char.toUInt8 ++ after) →
      ofRecord record = entry.2 text) ∧
    (∀ (first verticalMin verticalMax horizontalMin horizontalMax tens : UInt8) (rest : Bytes)
      (record : SlotRecord),
      record.toList = SlotRecord.tagged 0xFD
        ([first, verticalMin, verticalMax, horizontalMin, horizontalMax, tens] ++ rest) →
      ∃ maxClock : UInt16, maxClock.toNat = 10 * tens.toNat ∧ ofRecord record =
        .rangeLimits ⟨verticalMin, verticalMax, horizontalMin, horizontalMax, maxClock⟩) ∧
    (∀ (tag : UInt8) (content : Bytes) (record : SlotRecord),
      record.toList = SlotRecord.tagged tag content →
      (tag = 0xFB → ofRecord record = .whitePoint record) ∧
        (tag = 0xFA → ofRecord record = .standardTimings record) ∧
        (tag ≤ 0x0F → ofRecord record = .manufacturerSpecific tag record)) ∧
    (∀ (timing : DetailedTiming) (across down : Nat) (rest : Bytes) (record : SlotRecord),
      timing.width.toNat < 4096 → timing.height.toNat < 4096 → across < 4096 → down < 4096 →
      record.toList = timing.encode across down ++ rest →
      (Form.timing.Fits record → ofRecord record = .detailedTiming timing) ∧
        (timing.clock ≠ 0 → Form.timing.Fits record)) ∧
    ∀ record : SlotRecord, (∃! form : Form, form.Fits record) ∧
      (∀ form, (ofRecord record).kind.form = form ↔ form.Fits record) ∧
      ∀ kind, (ofRecord record).kind = kind ↔ kind.Admits (number record) := by
  refine ⟨?_, ?_, ?_, ?_, fun record => ⟨?_, fun form => form_eq_iff, fun kind => kind_eq_iff⟩⟩
  · intro entry known text before after record plain filled written
    rw [ofRecord_of_textTag known (tagged_of_toList written),
      textOf_of_padded plain filled (payload_of_toList written)]
  · intro first verticalMin verticalMax horizontalMin horizontalMax tens rest record written
    have byte : ∀ place, record.byte place = (SlotRecord.tagged 0xFD ([first, verticalMin,
        verticalMax, horizontalMin, horizontalMax, tens] ++ rest)).getD place 0 := by
      intro place
      rw [byte_eq_getD, written]
    refine ⟨_, (toNat_maxClock record).trans (congrArg (10 * UInt8.toNat ·) (byte 9)), ?_⟩
    rw [ofRecord_of_limitsTag (tagged_of_toList written)]
    show rangeLimits ⟨record.byte 5, record.byte 6, record.byte 7, record.byte 8, _⟩ = _
    rw [byte 5, byte 6, byte 7, byte 8]
    rfl
  · intro tag content record written
    have tagged := tagged_of_toList written
    refine ⟨?_, ?_, fun low => ofRecord_of_makerTag low tagged⟩
    · rintro rfl
      exact ofRecord_of_whitePointTag tagged
    · rintro rfl
      exact ofRecord_of_standardTag tagged
  · intro timing across down rest record narrow low beside below written
    obtain rfl := ofRecord_encode narrow low beside below written
    exact ⟨fun fits => ofRecord_eq_detailedTiming_iff.mpr ⟨fits, rfl⟩, admits_of_clock⟩
  · exact ⟨_, form_eq_iff.mp rfl, fun other fits => (form_eq_iff.mpr fits).symm⟩

/-- The name, the limits and the timing of the sample, and a record of its maker's own. -/
theorem ofRecord_of_written_sample :
    Plain "DELL P2418HT".toList ∧
      ofRecord (Field.recordAt sample 18 0x5A) = .monitorName "DELL P2418HT" ∧
      (∃ maxClock : UInt16, maxClock.toNat = 170 ∧
        ofRecord (Field.recordAt sample 18 0x6C) = .rangeLimits ⟨50, 76, 30, 83, maxClock⟩) ∧
      ofRecord (Field.recordAt [0, 0, 0, 0x0F, 0xAB] 18 0) =
        .manufacturerSpecific 0x0F (Field.recordAt [0, 0, 0, 0x0F, 0xAB] 18 0) ∧
      ofRecord (Field.recordAt sample 18 0x36) = .detailedTiming ⟨14850, 1920, 1080⟩ := by
  obtain ⟨texts, limits, kept, timings, -⟩ := ofRecord_of_written
  have plain : Plain "DELL P2418HT".toList := by decide +kernel
  have timing := timings ⟨14850, 1920, 1080⟩ 280 45
    [0x58, 0x2C, 0x45, 0x00, 0x0F, 0x28, 0x21, 0x00, 0x00, 0x1E] (Field.recordAt sample 18 0x36)
    (by decide) (by decide) (by decide) (by decide) (by decide +kernel)
  refine ⟨plain, ?_, ?_, ?_, timing.1 (timing.2 (by decide))⟩
  · exact texts (0xFC, monitorName) (by simp [textTags]) _ [0] [0x0A] _ plain
      (by decide +kernel) (by decide +kernel)
  · exact limits 0 50 76 30 83 17 [0x00, 0x0A, 0x20, 0x20, 0x20, 0x20, 0x20, 0x20] _
      (by decide +kernel)
  · exact (kept 0x0F (0xAB :: List.replicate 13 0) _ (by decide +kernel)).2.2 (by decide)

end Descriptor

end Edid
