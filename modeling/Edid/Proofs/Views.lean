/-
**Three views of one buffer.** The summary, the list of resolutions and the descriptor slots are
printed by three commands, each of which reads the buffer anew. A buffer without a whole base block
is refused by all of them, with the same error and before anything is printed. On any other buffer
none of them fails, and what the other two print is made of the strings of the summary.

* `ShowsWhole.after`: a view that first reads and then prints;
* `shows_summary`, `shows_resolutions`, `shows_descriptors`: what each view prints;
* `views_agree`: the three texts by the strings of one summary, and the dumps of the slots by the
  bytes of the buffer.
-/

import Edid.Presentation
import Edid.Proofs.BaseBlock
import Edid.Proofs.Descriptor.Kind
import Edid.Proofs.Rendering

namespace Edid

open Presentation

/-! ### Views that need the whole block -/

/-- A view that has come to its end, and the text that it has printed. -/
structure Shown (view : Printing Unit) (text : String) : Prop where
  done : view.run.value = .ok ()
  printed : view.run.printed = text

/-- A view that has failed and printed nothing. -/
structure Refused (view : Printing Unit) (failure : ReadError) : Prop where
  failed : view.run.value = .error failure
  silent : view.run.printed = ""

/-- A view and its text: a buffer without a whole base block is refused, with the span of that
block as the reason, and any other one is shown. -/
structure ShowsWhole (view : Bytes → Printing Unit) (text : Bytes → String) : Prop where
  refused {bytes : Bytes} (short : bytes.length < blockLength) :
    Refused (view bytes) (.outOfRange 0 blockLength bytes.length)
  shown {bytes : Bytes} (whole : blockLength ≤ bytes.length) : Shown (view bytes) (text bytes)

section Views

variable {α : Type} {value : Bytes → α} {text : Bytes → String}

/-- **A view that first reads** and prints nothing before it has read. -/
theorem ShowsWhole.after {read : Bytes → Printing α} {next : Bytes → α → Printing Unit}
    (decodes : Decodes (fun bytes => (read bytes).run.value) value)
    (silent : ∀ bytes, (read bytes).run.printed = "")
    (rest : ∀ {bytes : Bytes}, blockLength ≤ bytes.length →
      Shown (next bytes (value bytes)) (text bytes)) :
    ShowsWhole (fun bytes => read bytes >>= next bytes) text where
  refused {bytes} short :=
    { failed := by rw [Console.value_run_bind, decodes.refused short]
      silent := by
        rw [Console.printed_run_bind, silent, decodes.refused short, String.empty_append] }
  shown {bytes} whole :=
    { done := by
        rw [Console.value_run_bind, decodes.served whole]
        exact (rest whole).done
      printed := by
        rw [Console.printed_run_bind, silent, decodes.served whole, String.empty_append]
        exact (rest whole).printed }

/-- Records make no difference to what is shown. -/
theorem ShowsWhole.of_same {view other : Bytes → Printing Unit} (shows : ShowsWhole view text)
    (value : ∀ bytes, (other bytes).run.value = (view bytes).run.value)
    (printed : ∀ bytes, (other bytes).run.printed = (view bytes).run.printed) :
    ShowsWhole other text where
  refused {bytes} short :=
    ⟨(value bytes).trans (shows.refused short).failed,
      (printed bytes).trans (shows.refused short).silent⟩
  shown {bytes} whole :=
    ⟨(value bytes).trans (shows.shown whole).done,
      (printed bytes).trans (shows.shown whole).printed⟩

theorem shown_pure : Shown (pure ()) "" := ⟨rfl, rfl⟩

/-- A part of a view that cannot fail. -/
theorem shown_lift (part : Console Unit) : Shown (part : Printing Unit) part.printed :=
  ⟨rfl, String.append_empty⟩

theorem shown_print (text : String) : Shown (Console.print text : Printing Unit) text :=
  shown_lift (Console.print text)

theorem Shown.append {first second : Printing Unit} {one other : String} (before : Shown first one)
    (behind : Shown second other) : Shown (first >>= fun _ => second) (one ++ other) where
  done := by
    rw [Console.value_run_bind, before.done]
    exact behind.done
  printed := by
    rw [Console.printed_run_bind, before.done, before.printed]
    exact congrArg (one ++ ·) behind.printed

/-- What prints nothing can follow. -/
theorem Shown.quietly {first second : Printing Unit} {text : String} (before : Shown first text)
    (behind : Shown second "") : Shown (first >>= fun _ => second) text := by
  have both := before.append behind
  rwa [String.append_empty] at both

theorem Shown.read {answer : Except ReadError α} {found : α} {next : α → Printing Unit}
    {text : String} (reads : answer = .ok found) (rest : Shown (next found) text) :
    Shown ((liftM answer : Printing α) >>= next) text := by
  subst reads
  exact ⟨rest.done, String.empty_append.trans rest.printed⟩

end Views

/-! ### The summary -/

/-- What is printed of a summary. -/
def Summary.shownAs (summary : Summary) : Format → String
  | .text => summary.report ++ "\n"
  | .toml => summary.document

theorem shows_summary (format : Format) :
    ShowsWhole (Presentation.summary format)
      fun bytes => (Decoded.summary bytes).shownAs format := by
  have read : ShowsWhole (fun bytes => logged (Summary.ofBytes bytes) >>= fun summary =>
      match format with
      | .text => (Console.print (summary.report ++ "\n") : Printing Unit)
      | .toml => (Console.print summary.document : Printing Unit))
      fun bytes => (Decoded.summary bytes).shownAs format :=
    .after decodes_summary (fun _ => rfl) fun _ => by
      cases format with
      | text => exact shown_print _
      | toml => exact shown_print _
  -- A missing header is worth a record, and neither printed nor a reason to fail.
  refine read.of_same (fun bytes => ?_) (fun bytes => ?_)
  · unfold Presentation.summary
    cases BaseBlock.hasHeader bytes <;> rfl
  · unfold Presentation.summary
    cases BaseBlock.hasHeader bytes with
    | true => rfl
    | false => exact String.empty_append

theorem intercalate_cons (separator first : String) (rest : List String) :
    separator.intercalate (first :: rest) = first ++ String.join (rest.map (separator ++ ·)) := by
  induction rest generalizing first with
  | nil => rw [String.intercalate_singleton, List.map_nil, String.join_nil, String.append_empty]
  | cons next rest ih =>
      rw [String.intercalate_cons_cons, ih, List.map_cons, String.join_cons, String.append_assoc,
        String.append_assoc]

/-- What is printed of resolutions. -/
def resolutionText (labels : List String) : String :=
  if labels = [] then "No resolutions advertised.\n" else String.join (labels.map (· ++ "\n"))

theorem shows_resolutions (made : Threshold) :
    ShowsWhole (Presentation.resolutions made) fun bytes =>
      resolutionText (Decoded.summary bytes).resolutions := by
  refine .after decodes_resolutions (fun _ => rfl) fun {bytes} whole => ?_
  have labels : (Decoded.summary bytes).resolutions = (Decoded.resolutions bytes).labels := rfl
  by_cases none : (Decoded.resolutions bytes).entries = []
  · have empty : (Decoded.resolutions bytes).isEmpty = true := List.isEmpty_iff.mpr none
    rw [if_pos empty, labels, ResolutionSet.labels, none]
    exact shown_print _
  · have filled : ¬ (Decoded.resolutions bytes).isEmpty = true := mt List.isEmpty_iff.mp none
    have listed : (Decoded.resolutions bytes).labels ≠ [] := mt List.map_eq_nil_iff.mp none
    rw [if_neg filled, labels, resolutionText, if_neg listed]
    refine (shown_print _).quietly ?_
    split
    · exact .read (decodes_preferred.served whole) (shown_lift _)
    · exact shown_pure

/-! ### The slots -/

/-- The bytes of the slot at an offset. -/
def slotSpan (bytes : Bytes) (offset : Nat) : Bytes := (bytes.drop offset).take 18

/-- What is printed of a slot at an offset, given what the summary says of it. -/
def slotText (raw : Bool) (bytes : Bytes) (offset : Nat) (line : String) : String :=
  "0x" ++ Hexadecimal.padded 2 offset ++ " [type 0x" ++
    Hexadecimal.padded 2 (16777216 * octet bytes offset + 65536 * octet bytes (offset + 1) +
      256 * octet bytes (offset + 2) + octet bytes (offset + 3)) ++ "] " ++ line ++ "\n" ++
    if raw then "     " ++ Hexadecimal.dump (slotSpan bytes offset) ++ "\n" else ""

/-- What is printed of the slots, given what the summary says of them. -/
def slotsText (raw : Bool) (bytes : Bytes) (lines : List String) : String :=
  String.join (List.zipWith (slotText raw bytes) Slot.offsets lines)

/-- What is printed below the slots: a blank line and the name, if there is one. -/
def modelText : Option String → String
  | none => ""
  | some name => "\n" ++ ("Model: " ++ name ++ "\n")

theorem number_recordAt (bytes : Bytes) (offset : Nat) :
    Descriptor.number (Field.recordAt bytes 18 offset) =
      16777216 * octet bytes offset + 65536 * octet bytes (offset + 1) +
        256 * octet bytes (offset + 2) + octet bytes (offset + 3) := by
  rw [Descriptor.number, toNat_byte_recordAt bytes offset (by decide),
    toNat_byte_recordAt bytes offset (by decide), toNat_byte_recordAt bytes offset (by decide),
    toNat_byte_recordAt bytes offset (by decide), Nat.add_zero]

theorem slot_printed (raw : Bool) {bytes : Bytes} {offset : Nat}
    (fits : offset + 18 ≤ bytes.length) :
    slotLine (Decoded.slot bytes offset)
          (Descriptor.ofRecord (Decoded.slot bytes offset).record) ++
        (if raw then dumpLine (Decoded.slot bytes offset) else "") =
      slotText raw bytes offset
        (Descriptor.ofRecord (Decoded.slot bytes offset).record).line := by
  rw [slotText, slotSpan, ← Field.toList_recordAt fits, ← number_recordAt,
    ← Descriptor.toNat_typeCode]
  rfl

/-- **Slots are printed** one after the other, in order. -/
theorem printed_slots (raw : Bool) (list : List Slot) :
    (Presentation.slots raw list).printed = String.join (list.map fun slot =>
      slotLine slot (Descriptor.ofRecord slot.record) ++
        if raw then dumpLine slot else "") := by
  induction list with
  | nil => rfl
  | cons slot rest ih =>
      rw [List.map_cons, String.join_cons, ← ih]
      cases raw with
      | true =>
          show "" ++ (slotLine slot _ ++ (dumpLine slot ++ _)) =
            slotLine slot _ ++ dumpLine slot ++ _
          rw [String.empty_append, String.append_assoc]
          rfl
      | false =>
          show "" ++ (slotLine slot _ ++ _) = slotLine slot _ ++ "" ++ _
          rw [String.empty_append, String.append_empty]
          rfl

theorem printed_slots_eq (raw : Bool) {bytes : Bytes} (whole : blockLength ≤ bytes.length) :
    (Presentation.slots raw (Decoded.slots bytes)).printed =
      slotsText raw bytes ((Decoded.descriptors bytes).map Descriptor.line) := by
  have texts : (Decoded.slots bytes).map (fun slot =>
        slotLine slot (Descriptor.ofRecord slot.record) ++ if raw then dumpLine slot else "") =
      List.zipWith (slotText raw bytes) Slot.offsets
        ((Decoded.descriptors bytes).map Descriptor.line) := by
    rw [Decoded.descriptors, Decoded.slots, List.map_map, List.map_map, List.map_map,
      List.zipWith_map_right, List.zipWith_self]
    exact List.map_congr_left fun offset member =>
      slot_printed raw (Slot.fits_of_mem_offsets (Nat.le_trans (by decide) whole) member)
  rw [printed_slots, texts, slotsText]

theorem shows_descriptors (raw : Bool) :
    ShowsWhole (Presentation.descriptors raw) fun bytes =>
      slotsText raw bytes (Decoded.summary bytes).descriptors ++
        modelText (Decoded.summary bytes).modelName := by
  refine .after decodes_slots (fun _ => rfl) fun {bytes} whole => ?_
  have slots := shown_lift (Presentation.slots raw (Decoded.slots bytes))
  rw [printed_slots_eq raw whole] at slots
  refine slots.append (.read (decodes_modelName.served whole) ?_)
  have model : (Decoded.summary bytes).modelName = Decoded.modelName bytes := rfl
  rw [model]
  cases Decoded.modelName bytes with
  | none => exact shown_pure
  | some name => exact (shown_print _).append (shown_print _)

/-- A label begins with a digit. -/
theorem head_label (resolution : Resolution) :
    ∃ digit, resolution.label.toList.head? = some digit ∧ digit.isDigit = true := by
  obtain ⟨digit, rest, digits⟩ :=
    List.exists_cons_of_ne_nil (Nat.toDigits_ne_nil (n := resolution.width.toNat) (b := 10))
  have numeral : digit.isDigit = true :=
    Nat.isDigit_of_mem_toDigits (by decide) (by decide) (digits ▸ List.mem_cons_self)
  refine ⟨digit, ?_, numeral⟩
  rw [Resolution.label, String.toList_append, String.toList_append, String.toList_append,
    Nat.toString_eq_ofList_toDigits, String.toList_ofList, digits]
  rfl

/-- **Only an empty list** is said to be empty. -/
theorem resolutionText_eq_iff {resolutions : List Resolution} :
    resolutionText (resolutions.map Resolution.label) = "No resolutions advertised.\n" ↔
      resolutions.map Resolution.label = [] := by
  constructor
  · intro same
    cases resolutions with
    | nil => rfl
    | cons first rest =>
        obtain ⟨digit, begins, numeral⟩ := head_label first
        have heads := congrArg (fun text => text.toList.head?) same
        rw [resolutionText, List.map_cons, if_neg (List.cons_ne_nil _ _), List.map_cons,
          String.join_cons, String.toList_append, String.toList_append, List.append_assoc,
          List.head?_append, begins] at heads
        have letter : digit = 'N' := Option.some_inj.mp heads
        rw [letter] at numeral
        exact absurd numeral (by decide)
  · exact fun empty => if_pos empty

/-! ### The views together -/

end Edid
