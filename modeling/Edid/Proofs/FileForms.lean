/-
**The two forms of a file.** An EDID is kept as it is or as a dump, and which of them a file holds
is seen from its bytes alone. Every rendering of an EDID is recognised as a dump and decoded to the
EDID; a file with a byte that no dump has is taken as it is. So what a command prints does not
depend on the form of its input.

* `value_bytes`, `value_decode`: decoding without its records;
* `Contents.StandsFor`: what a file is decoded to when its bytes are known, and how it is refused;
* `execute_of_decode`: what a command does to a file is what it does to the decoded bytes;
* `decode_rendering`: all renderings of an EDID decode to it, and the commands print the same.
-/

import Edid.Program
import Edid.Proofs.Rendering

namespace Edid

open HexText

/-! ### Decoding -/

namespace Contents

variable {contents bytes : Bytes}

/-- A dump is parsed, and anything else is taken as it is. -/
theorem value_bytes (contents : Bytes) :
    (Contents.bytes contents).run.value =
      if isHexText contents then (parse contents).mapError .invalidHex else .ok contents := by
  unfold Contents.bytes
  by_cases dump : isHexText contents = true
  · rw [if_pos dump, if_pos dump, Logged.value_run_bind]
    cases parse contents <;> rfl
  · rw [if_neg dump, if_neg dump]
    rfl

/-- Decoded bytes hold a whole base block. -/
theorem value_decode (contents : Bytes) :
    (decode contents).run.value = (Contents.bytes contents).run.value.bind fun bytes =>
      if bytes.length < blockLength then .error (.tooShort bytes.length) else .ok bytes := by
  unfold decode
  rw [Logged.value_run_bind]
  cases (Contents.bytes contents).run.value with
  | error failure => rfl
  | ok bytes =>
      by_cases short : bytes.length < blockLength
      · simp only [Except.bind, if_pos short]
        rfl
      · simp only [Except.bind, if_neg short]
        by_cases ragged : bytes.length % blockLength ≠ 0
        · rw [if_pos ragged]
          rfl
        · rw [if_neg ragged]
          rfl

/-- What is decoded holds a whole base block. -/
theorem le_length_of_decode (decoded : (decode contents).run.value = .ok bytes) :
    blockLength ≤ bytes.length := by
  rw [value_decode] at decoded
  cases found : (Contents.bytes contents).run.value with
  | error failure =>
      rw [found] at decoded
      cases decoded
  | ok raw =>
      rw [found] at decoded
      by_cases short : raw.length < blockLength
      · cases (if_pos short).symm.trans decoded
      · cases (if_neg short).symm.trans decoded
        exact Nat.le_of_not_lt short

/-- A file that stands for certain bytes: it is decoded to them if they hold a whole base block, and
refused as too short otherwise. -/
structure StandsFor (contents bytes : Bytes) : Prop where
  decoded : blockLength ≤ bytes.length → (decode contents).run.value = .ok bytes
  refused : bytes.length < blockLength →
    (decode contents).run.value = .error (.tooShort bytes.length)

theorem standsFor_of_bytes (found : (Contents.bytes contents).run.value = .ok bytes) :
    StandsFor contents bytes where
  decoded whole := by
    rw [value_decode, found]
    exact if_neg (Nat.not_lt_of_le whole)
  refused short := by
    rw [value_decode, found]
    exact if_pos short

/-- **A rendering** of at least one byte stands for what it renders. -/
theorem standsFor_of_rendering (filled : bytes ≠ []) (rendering : Rendering contents bytes) :
    StandsFor contents bytes := by
  refine standsFor_of_bytes ?_
  rw [value_bytes, if_pos (isHexText_of_rendering rendering filled), parse_eq_ok_iff.mpr rendering]
  rfl

/-- **A file with a byte that no dump has** stands for itself. -/
theorem standsFor_of_foreign (foreign : ∃ byte ∈ contents, ¬ OfAlphabet byte) :
    StandsFor contents contents := by
  refine standsFor_of_bytes ?_
  rw [value_bytes, if_neg (by simp [not_isHexText_of_foreign foreign])]

theorem value_decode_of_rendering (whole : blockLength ≤ bytes.length)
    (rendering : Rendering contents bytes) : (decode contents).run.value = .ok bytes := by
  have filled : bytes ≠ [] := by
    rintro rfl
    exact absurd whole (by decide)
  exact (standsFor_of_rendering filled rendering).decoded whole

theorem value_decode_of_foreign (whole : blockLength ≤ contents.length)
    (foreign : ∃ byte ∈ contents, ¬ OfAlphabet byte) :
    (decode contents).run.value = .ok contents :=
  (standsFor_of_foreign foreign).decoded whole

end Contents

/-- The header has bytes that no dump has. -/
theorem foreign_of_hasHeader {bytes : Bytes} (header : BaseBlock.hasHeader bytes = true) :
    ∃ byte ∈ bytes, ¬ OfAlphabet byte := by
  refine ⟨0xFF, (List.isPrefixOf_iff_prefix.mp header).subset (by decide), fun known => ?_⟩
  exact absurd (inAlphabet_iff.mpr known) (by decide)

/-! ### Running a command -/

/-- A command with its input at another path; the sample has no input. -/
def Command.withPath (path : String) : Command → Command
  | info _ format => .info path format
  | resolutions _ => .resolutions path
  | descriptors _ raw => .descriptors path raw
  | sample format => .sample format

theorem Command.path?_withPath {command : Command} (asks : command.path? ≠ none) (path : String) :
    (command.withPath path).path? = some path := by
  cases command with
  | sample format => exact absurd rfl asks
  | info | resolutions | descriptors => rfl

namespace Program

/-- What a command shows of decoded bytes. -/
def view (made : Threshold) (bytes : Bytes) : Command → Running Unit
  | .info _ format => present (Presentation.summary format bytes)
  | .resolutions _ => present (Presentation.resolutions made bytes)
  | .descriptors _ raw => present (Presentation.descriptors raw bytes)
  | .sample format => present (Presentation.summary format sample)

theorem view_withPath (made : Threshold) (bytes : Bytes) (path : String) (command : Command) :
    view made bytes (command.withPath path) = view made bytes command := by
  cases command <;> rfl

variable {surroundings : Surroundings} {path : String} {contents bytes : Bytes}

theorem execute_eq_load_bind {command : Command} (asks : command.path? = some path)
    (surroundings : Surroundings) (made : Threshold) :
    execute surroundings made command =
      load surroundings path >>= fun bytes => view made bytes command := by
  cases command with
  | sample format => cases asks
  | info input format =>
      obtain rfl := Option.some_inj.mp asks
      rfl
  | resolutions input =>
      obtain rfl := Option.some_inj.mp asks
      rfl
  | descriptors input raw =>
      obtain rfl := Option.some_inj.mp asks
      rfl

theorem value_load (found : Program.contents surroundings path = .ok contents) :
    (load surroundings path).run.value =
      (Contents.decode contents).run.value.mapError .input := by
  show (Contents.load path (Program.contents surroundings path)).run.value.mapError _ = _
  rw [found]
  show Except.mapError _ (Logged.note _ _ >>= fun _ => (Contents.decode contents).run).value = _
  rw [Logged.value_bind]

/-- **What a command does to a file** is what it shows of the decoded bytes, its log apart. -/
theorem execute_of_decode {command : Command} (asks : command.path? = some path)
    (found : Program.contents surroundings path = .ok contents)
    (decoded : (Contents.decode contents).run.value = .ok bytes) (made : Threshold) :
    (execute surroundings made command).run.value = (view made bytes command).run.value ∧
      (execute surroundings made command).run.printed =
        (view made bytes command).run.printed := by
  have loaded : (load surroundings path).run.value = .ok bytes := by
    rw [value_load found, decoded]
    rfl
  have silent : (load surroundings path).run.printed = "" := rfl
  rw [execute_eq_load_bind asks, Console.value_run_bind, Console.printed_run_bind, loaded, silent]
  exact ⟨rfl, String.empty_append⟩

/-- Two files that decode to the same bytes are the same to every command, records apart. -/
theorem perform_withPath_eq {first second : String} {one two : Bytes}
    (foundOne : Program.contents surroundings first = .ok one)
    (foundTwo : Program.contents surroundings second = .ok two)
    (decodedOne : (Contents.decode one).run.value = .ok bytes)
    (decodedTwo : (Contents.decode two).run.value = .ok bytes) (verbosity : Nat)
    (command : Command) :
    (perform surroundings ⟨verbosity, command.withPath first⟩).printed =
        (perform surroundings ⟨verbosity, command.withPath second⟩).printed ∧
      (perform surroundings ⟨verbosity, command.withPath first⟩).exitCode =
        (perform surroundings ⟨verbosity, command.withPath second⟩).exitCode := by
  by_cases asking : command.path? = none
  · cases command with
    | sample format => exact ⟨rfl, rfl⟩
    | info | resolutions | descriptors => cases asking
  · obtain ⟨valueOne, printedOne⟩ := execute_of_decode (command.path?_withPath asking first)
      foundOne decodedOne
      ((LogBounds.ofVariable surroundings.logLevel).withVerbosity verbosity).made
    obtain ⟨valueTwo, printedTwo⟩ := execute_of_decode (command.path?_withPath asking second)
      foundTwo decodedTwo
      ((LogBounds.ofVariable surroundings.logLevel).withVerbosity verbosity).made
    rw [view_withPath] at valueOne valueTwo printedOne printedTwo
    unfold perform outcome
    dsimp only
    rw [valueOne, valueTwo, printedOne, printedTwo]
    exact ⟨rfl, rfl⟩

end Program

/-! ### Both forms -/

/-- **All renderings of an EDID decode to it**, the contiguous dump among them. An EDID with a byte
that no dump has, as the header has some, decodes to itself, so it can be kept in either form: each
command prints the same for both, with the same exit code. -/
theorem decode_rendering {bytes text : Bytes} (whole : blockLength ≤ bytes.length)
    (rendering : Rendering text bytes) :
    (Contents.decode text).run.value = .ok bytes ∧
      (Contents.decode (Hexadecimal.dump bytes).toUTF8.data.toList).run.value = .ok bytes ∧
      (BaseBlock.hasHeader bytes = true → ∃ byte ∈ bytes, ¬ OfAlphabet byte) ∧
      ((∃ byte ∈ bytes, ¬ OfAlphabet byte) →
        (Contents.decode bytes).run.value = (Contents.decode text).run.value ∧
        ∀ (surroundings : Program.Surroundings) (raw rendered : String),
          Program.contents surroundings raw = .ok bytes →
          Program.contents surroundings rendered = .ok text →
          ∀ (verbosity : Nat) (command : Command),
            (Program.perform surroundings ⟨verbosity, command.withPath raw⟩).printed =
              (Program.perform surroundings ⟨verbosity, command.withPath rendered⟩).printed ∧
            (Program.perform surroundings ⟨verbosity, command.withPath raw⟩).exitCode =
              (Program.perform surroundings ⟨verbosity, command.withPath rendered⟩).exitCode) := by
  have decoded := Contents.value_decode_of_rendering whole rendering
  refine ⟨decoded, Contents.value_decode_of_rendering whole (rendering_dump bytes),
    foreign_of_hasHeader, fun foreign => ?_⟩
  have same := Contents.value_decode_of_foreign whole foreign
  refine ⟨same.trans decoded.symm, ?_⟩
  intro surroundings raw rendered foundRaw foundRendered verbosity command
  exact Program.perform_withPath_eq foundRaw foundRendered same decoded verbosity command

/-- A dump with a mark before each byte, and a comma and a blank behind it. -/
def itemised (bytes : Bytes) : Bytes :=
  bytes.flatMap fun byte =>
    [0x30, 0x78] ++ (Hexadecimal.ofByte byte).map Char.toUInt8 ++ [0x2C, 0x20]

theorem rendering_itemised (bytes : Bytes) : Rendering (itemised bytes) bytes := by
  induction bytes with
  | nil => exact .blank (List.forall_mem_nil _)
  | cons byte rest ih =>
      have pair : Spells ([0x30, 0x78] ++ (Hexadecimal.ofByte byte).map Char.toUInt8) [byte] := by
        have digits := digitPairs_dump [byte]
        rw [List.flatMap_singleton] at digits
        exact ⟨[0x30, 0x78], by decide, _, rfl, List.cons_ne_nil _ _, digits⟩
      have gap : Rendering ([0x2C, 0x20] ++ itemised rest) rest :=
        (ih.cons_separator (by decide)).cons_separator (by decide)
      have begins : ∀ byte ∈ ([0x2C, 0x20] ++ itemised rest).head?, byte ∈ separators := by
        intro byte first
        obtain rfl := Option.some_inj.mp first
        decide
      have one : Rendering ([] ++ _ ++ ([0x2C, 0x20] ++ itemised rest)) ([byte] ++ rest) :=
        .group (List.forall_mem_nil _) pair begins gap
      rwa [List.nil_append, ← List.append_assoc] at one

/-- A folder with the sample in both forms. -/
def bothForms : Program.Surroundings :=
  { logLevel := none
    file := fun path => .ok (if path = "raw" then sample else itemised sample)
    input := [] }

/-- The sample is decoded from a dump of its items, and its resolutions are printed alike. -/
theorem decode_itemised_sample :
    blockLength ≤ sample.length ∧ Rendering (itemised sample) sample ∧
      (∃ byte ∈ sample, ¬ OfAlphabet byte) ∧
      (Contents.decode (itemised sample)).run.value = .ok sample ∧
      (Contents.decode sample).run.value = .ok sample ∧
      (Program.perform bothForms ⟨0, .resolutions "raw"⟩).printed =
        (Program.perform bothForms ⟨0, .resolutions "dump"⟩).printed := by
  have whole : blockLength ≤ sample.length := by decide +kernel
  have header : BaseBlock.hasHeader sample = true := by decide +kernel
  obtain ⟨decoded, -, foreign, same⟩ := decode_rendering whole (rendering_itemised sample)
  obtain ⟨raw, prints⟩ := same (foreign header)
  refine ⟨whole, rendering_itemised sample, foreign header, decoded, raw.trans decoded, ?_⟩
  exact (prints bothForms "raw" "dump" rfl rfl 0 (.resolutions "")).1

end Edid
