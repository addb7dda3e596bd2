/-
**What is read of a buffer.** Many bytes of an EDID are never looked at: the header, the gamma, the
features and the chromaticity, most bits of two bytes, the checksums, and of the first extension the
revision, the flags and all that lies behind its data blocks. Two buffers are alike in what is read
when they agree on the other bytes; how many of those there are is said by a byte of the extension,
which is itself one of them.

* `Decoded.summary_congr`: buffers that are alike in what is read have one summary;
* `Program.text_congr`: every command shows the same of them;
* `readAlike_overwrite`, `readAlike_overwrite_flag`: bytes and bits that are free to change;
* `unread_never_matters`: these together.
-/

import Edid.Proofs.Outcome

namespace Edid

/-- Two buffers of one length that agree on everything that is read of them. -/
structure ReadAlike (first second : Bytes) : Prop where
  length : first.length = second.length
  identity : ∀ offset, 0x08 ≤ offset → offset ≤ 0x13 → octet first offset = octet second offset
  /-- Of the byte on the video input only the topmost bit is read. -/
  digital : (octet first 0x14).testBit 7 = (octet second 0x14).testBit 7
  size : ∀ offset, 0x15 ≤ offset → offset ≤ 0x16 → octet first offset = octet second offset
  flags : ∀ offset, 0x23 ≤ offset → offset ≤ 0x24 → octet first offset = octet second offset
  /-- Of the third flag byte only the topmost bit is read. -/
  lastFlag : (octet first 0x25).testBit 7 = (octet second 0x25).testBit 7
  timings : ∀ offset, 0x26 ≤ offset → offset ≤ 0x7E → octet first offset = octet second offset
  tag : 2 * blockLength ≤ first.length → octet first 128 = octet second 128
  limit : 2 * blockLength ≤ first.length → octet first 130 = octet second 130
  /-- The data blocks end at the limit, or with the buffer. -/
  blocks : 2 * blockLength ≤ first.length → ∀ offset, 132 ≤ offset →
    offset < min first.length (128 + octet first 130) → octet first offset = octet second offset

variable {first second : Bytes}

/-! ### What is decoded -/

namespace ReadAlike

theorem isSet (alike : ReadAlike first second) {flag : Nat} (inside : flag < 17) :
    Established.isSet first flag = Established.isSet second flag := by
  unfold Established.isSet
  rcases Nat.lt_or_ge flag 16 with early | last
  · rw [alike.flags (0x23 + flag / 8) (by omega) (by omega)]
  · obtain rfl : flag = 16 := by omega
    exact alike.lastFlag

theorem advertised (alike : ReadAlike first second) : advertised first = advertised second :=
  advertised_congr alike.length (fun _ inside => alike.isSet inside) alike.timings alike.tag
    alike.limit alike.blocks

theorem slots (alike : ReadAlike first second) : Decoded.slots first = Decoded.slots second :=
  Decoded.slots_congr fun offset above below => alike.timings offset (by omega) (by omega)

end ReadAlike

/-- **Buffers that are alike in what is read** have one summary. -/
theorem Decoded.summary_congr (alike : ReadAlike first second) :
    summary first = summary second := by
  have serial : Field.recordAt first 4 0x0C = Field.recordAt second 4 0x0C :=
    Field.recordAt_congr fun index inside => alike.identity _ (by omega) (by omega)
  have firstSlot : slot first 0x36 = slot second 0x36 :=
    slot_congr fun index inside => alike.timings _ (by omega) (by omega)
  have extensions : octet first 0x7E = octet second 0x7E :=
    alike.timings 0x7E (by decide) (by decide)
  unfold summary
  simp (disch := decide) only [manufacturer, product, Decoded.serial, isDigital, week, year,
    version, size, extensionCount, modelName, preferred, descriptors, resolutions, alike.identity,
    alike.digital, alike.size, extensions, serial, firstSlot, alike.slots, alike.advertised]

/-! ### What is shown -/

/-- **Every command shows the same** of buffers that are alike in what is read. -/
theorem Program.text_congr (whole : blockLength ≤ first.length) (alike : ReadAlike first second)
    (command : Command) : text first command = text second command := by
  have summary := Decoded.summary_congr alike
  cases command with
  | info path format => exact congrArg (Summary.shownAs · format) summary
  | resolutions path => exact congrArg (fun info => resolutionText info.resolutions) summary
  | descriptors path raw =>
      have also : blockLength ≤ second.length := alike.length ▸ whole
      have slots : slotsText raw first (Decoded.summary first).descriptors =
          slotsText raw second (Decoded.summary second).descriptors := by
        have one := printed_slots_eq raw whole
        have other := printed_slots_eq raw also
        rw [alike.slots] at one
        exact one.symm.trans other
      rw [text, text, slots, summary]
  | sample format => rfl

/-! ### What is free to change -/

/-- The offsets of a buffer whose bytes are not read. -/
inductive Unread (bytes : Bytes) : Nat → Prop where
  | header {offset : Nat} (early : offset < 0x08) : Unread bytes offset
  /-- The gamma, the features and the chromaticity. -/
  | colour {offset : Nat} (above : 0x17 ≤ offset) (below : offset < 0x23) : Unread bytes offset
  | checksum : Unread bytes 0x7F
  /-- An extension that is not there in full. -/
  | fragment {offset : Nat} (behind : blockLength ≤ offset)
      (short : bytes.length < 2 * blockLength) : Unread bytes offset
  | revision : Unread bytes 129
  | features : Unread bytes 131
  /-- Behind the data blocks of the first extension. -/
  | rest {offset : Nat} (behind : 132 ≤ offset) (past : 128 + octet bytes 130 ≤ offset) :
      Unread bytes offset

variable {bytes content : Bytes} {start offset : Nat}

theorem not_unread_of_base (above : 0x08 ≤ offset) (below : offset ≤ 0x7E)
    (apart : offset < 0x17 ∨ 0x23 ≤ offset) : ¬ Unread bytes offset := by
  intro unread
  cases unread with
  | header early => omega
  | colour least greatest => omega
  | checksum => omega
  | fragment behind short =>
      unfold blockLength at behind
      omega
  | revision => omega
  | features => omega
  | rest behind past => omega

theorem not_unread_of_extension (long : 2 * blockLength ≤ bytes.length) (above : 128 ≤ offset)
    (apart : offset ≠ 129 ∧ offset ≠ 131) (before : offset < 132 ∨ offset < 128 + octet bytes 130) :
    ¬ Unread bytes offset := by
  intro unread
  cases unread with
  | header early => omega
  | colour least greatest => omega
  | checksum => omega
  | fragment behind short => exact Nat.not_lt_of_le long short
  | revision => exact apart.1 rfl
  | features => exact apart.2 rfl
  | rest behind past => omega

/-- **Bytes that are not read** are free to change. -/
theorem readAlike_overwrite (fits : start + content.length ≤ bytes.length)
    (unread : ∀ offset, start ≤ offset → offset < start + content.length → Unread bytes offset) :
    ReadAlike bytes (overwrite bytes start content) := by
  have kept : ∀ offset, ¬ Unread bytes offset →
      octet bytes offset = octet (overwrite bytes start content) offset := by
    intro offset read
    rw [octet_overwrite fits, if_neg fun both => read (unread offset both.1 both.2)]
  have read : ∀ offset, 0x08 ≤ offset → offset ≤ 0x7E → offset < 0x17 ∨ 0x23 ≤ offset →
      octet bytes offset = octet (overwrite bytes start content) offset :=
    fun offset above below apart => kept offset (not_unread_of_base above below apart)
  have extension : 2 * blockLength ≤ bytes.length → ∀ offset, 128 ≤ offset →
      offset ≠ 129 ∧ offset ≠ 131 → offset < 132 ∨ offset < 128 + octet bytes 130 →
        octet bytes offset = octet (overwrite bytes start content) offset :=
    fun long offset above apart before =>
      kept offset (not_unread_of_extension long above apart before)
  exact
    { length := (length_overwrite fits).symm
      identity := fun offset above below => read offset above (by omega) (by omega)
      digital := by rw [read 0x14 (by decide) (by decide) (by decide)]
      size := fun offset above below => read offset (by omega) (by omega) (by omega)
      flags := fun offset above below => read offset (by omega) (by omega) (by omega)
      lastFlag := by rw [read 0x25 (by decide) (by decide) (by decide)]
      timings := fun offset above below => read offset (by omega) below (by omega)
      tag := fun long => extension long 128 (by decide) (by decide) (.inl (by decide))
      limit := fun long => extension long 130 (by decide) (by decide) (.inl (by decide))
      blocks := fun long offset behind before =>
        extension long offset (by omega) (by omega) (.inr (by omega)) }

/-- **The low bits** of the byte on the video input and of the third flag byte are free to
change. -/
theorem readAlike_overwrite_flag (whole : blockLength ≤ bytes.length) {place : Nat}
    (flag : place = 0x14 ∨ place = 0x25) {value : UInt8}
    (top : value.toNat.testBit 7 = (octet bytes place).testBit 7) :
    ReadAlike bytes (overwrite bytes place [value]) := by
  have base : 128 ≤ bytes.length := whole
  have fits : place + [value].length ≤ bytes.length := by
    rw [List.length_singleton]
    omega
  have kept : ∀ offset, offset ≠ place →
      octet bytes offset = octet (overwrite bytes place [value]) offset := by
    intro offset apart
    rw [octet_overwrite fits, if_neg]
    rw [List.length_singleton]
    omega
  have written : octet (overwrite bytes place [value]) place = value.toNat := by
    rw [octet_overwrite fits, if_pos ⟨Nat.le_refl _, Nat.lt_succ_self _⟩, Nat.sub_self]
    rfl
  have bit : ∀ offset, (octet bytes offset).testBit 7 =
      (octet (overwrite bytes place [value]) offset).testBit 7 := by
    intro offset
    by_cases here : offset = place
    · rw [here, written, top]
    · rw [← kept offset here]
  exact
    { length := (length_overwrite fits).symm
      identity := fun offset above below => kept offset (by omega)
      digital := bit 0x14
      size := fun offset above below => kept offset (by omega)
      flags := fun offset above below => kept offset (by omega)
      lastFlag := bit 0x25
      timings := fun offset above below => kept offset (by omega)
      tag := fun _ => kept 128 (by omega)
      limit := fun _ => kept 130 (by omega)
      blocks := fun _ offset behind before => kept offset (by omega) }

/-! ### All together -/

/-- **What is not read never matters.** Two buffers with a whole base block that are alike in what
is read of them have one summary, and every command shows the same of both, in each of its forms and
whichever records are made; so do files that decode to them. The bytes that are not read can be
overwritten at will, and so can the low bits of the two bytes of which only the topmost bit is read:
the buffers before and after are alike. -/
theorem unread_never_matters {first second : Bytes} (whole : blockLength ≤ first.length)
    (alike : ReadAlike first second) :
    (∃ info, (Summary.ofBytes first).run.value = .ok info ∧
      (Summary.ofBytes second).run.value = .ok info) ∧
    (∀ (made other : Threshold) (command : Command),
      (Program.view made first command).run.value = .ok () ∧
        (Program.view other second command).run.value = .ok () ∧
        (Program.view made first command).run.printed =
          (Program.view other second command).run.printed) ∧
    (∀ {one two : Bytes}, (Contents.decode one).run.value = .ok first →
      (Contents.decode two).run.value = .ok second →
      ∀ command, Program.resultOf one command = Program.resultOf two command) ∧
    (∀ (start : Nat) (content : Bytes), start + content.length ≤ first.length →
      (∀ offset, start ≤ offset → offset < start + content.length → Unread first offset) →
      ReadAlike first (overwrite first start content)) ∧
    ∀ (place : Nat) (value : UInt8), place = 0x14 ∨ place = 0x25 →
      value.toNat.testBit 7 = (octet first place).testBit 7 →
      ReadAlike first (overwrite first place [value]) := by
  have also : blockLength ≤ second.length := alike.length ▸ whole
  refine ⟨⟨Decoded.summary first, decodes_summary.served whole, ?_⟩, ?_, ?_,
    fun start content fits unread => readAlike_overwrite fits unread,
    fun place value flag top => readAlike_overwrite_flag whole flag top⟩
  · rw [Decoded.summary_congr alike]
    exact decodes_summary.served also
  · intro made other command
    obtain ⟨done, printed⟩ := Program.run_view whole made command
    obtain ⟨doneAlso, printedAlso⟩ := Program.run_view also other command
    refine ⟨done, doneAlso, ?_⟩
    rw [printed, printedAlso, Program.text_congr whole alike]
  · intro one two decoded decodedAlso command
    rw [Program.resultOf_decoded decoded, Program.resultOf_decoded decodedAlso,
      Program.text_congr whole alike]

/-- The sample without its header is shown like the sample, although its header is missing. -/
theorem unread_never_matters_sample :
    blockLength ≤ sample.length ∧ ReadAlike sample (overwrite sample 0 (List.replicate 8 0x55)) ∧
      BaseBlock.hasHeader (overwrite sample 0 (List.replicate 8 0x55)) = false ∧
      ∃ info, (Summary.ofBytes sample).run.value = .ok info ∧
        (Summary.ofBytes (overwrite sample 0 (List.replicate 8 0x55))).run.value = .ok info := by
  have whole : blockLength ≤ sample.length := by decide +kernel
  have alike : ReadAlike sample (overwrite sample 0 (List.replicate 8 0x55)) :=
    readAlike_overwrite (by decide +kernel) fun offset _ early => .header early
  exact ⟨whole, alike, by decide +kernel, (unread_never_matters whole alike).1⟩

end Edid
