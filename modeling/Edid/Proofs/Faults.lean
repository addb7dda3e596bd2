/-
**Faults as they are reported.** A run that fails names its fault on the last line of the standard
error. A file that counts as a dump has nothing in it but digits, separators and the letters of
marks; so when it cannot be read, the run at fault has digits and letters only, which are read one
by one and stand in quotes as they are: the line shows the run as the file has it, and where the
file has it. What a system says of a file that cannot be opened stands in quotes as it is, too.

* `quoted_of_plain`: a text of plain characters is quoted as it is;
* `text_of_run`: the bytes of a run of a file that counts as a dump, as text;
* `Program.getLast?_errorLines`: the failure of a run is the last line on the standard error;
* `run_of_broken_dump`: a run on a dump that cannot be read;
* `run_of_unreadable`: a run on a file that cannot be opened.
-/

import Edid.Proofs.Outcome

namespace Edid

/-! ### Quoted texts -/

namespace Quoted

/-- A character that stands for itself between quotes: a visible one of ASCII, or the blank, and
neither the quote nor the stroke of an escape. -/
structure Plain (character : Char) : Prop where
  least : 0x20 ≤ character.toNat
  greatest : character.toNat < 0x7F
  unquoted : character ≠ '"'
  unescaped : character ≠ '\\'

instance (character : Char) : Decidable (Plain character) :=
  decidable_of_iff
    (0x20 ≤ character.toNat ∧ character.toNat < 0x7F ∧ character ≠ '"' ∧ character ≠ '\\')
    ⟨fun ⟨least, greatest, unquoted, unescaped⟩ => ⟨least, greatest, unquoted, unescaped⟩,
      fun plain => ⟨plain.least, plain.greatest, plain.unquoted, plain.unescaped⟩⟩

theorem Plain.ne_of_lt {character control : Char} (plain : Plain character)
    (below : control.toNat < 0x20) : character ≠ control := by
  rintro rfl
  exact Nat.not_lt_of_le plain.least below

theorem escape_of_plain {character : Char} (plain : Plain character) :
    escape character = [character] := by
  have shaped := Shapeless.isShapeless_ascii character plain.least plain.greatest
  rw [escape, if_neg (plain.ne_of_lt (by decide)), if_neg (plain.ne_of_lt (by decide)),
    if_neg (plain.ne_of_lt (by decide)), if_neg (plain.ne_of_lt (by decide)),
    if_neg plain.unescaped, if_neg plain.unquoted, shaped, if_neg Bool.false_ne_true]

/-- **A text of plain characters** is quoted as it is. -/
theorem quoted_of_plain {text : String} (plain : ∀ character ∈ text.toList, Plain character) :
    quoted text = "\"" ++ text ++ "\"" := by
  have escaped : text.toList.flatMap escape = text.toList := by
    rw [List.flatMap_congr fun character inside => escape_of_plain (plain character inside),
      List.flatMap_singleton']
  rw [quoted, escaped, String.ofList_append, String.ofList_append, String.ofList_toList]

end Quoted

/-! ### Runs of a dump -/

namespace HexText

variable {contents : Bytes} {byte : UInt8} {start : Nat} {token : Token}

/-- What a byte of the alphabet is within a run. -/
def OfRun (byte : UInt8) : Prop :=
  (∃ value, Digit byte value) ∨ byte = 0x78 ∨ byte = 0x58

/-- The text that bytes stand for one by one. -/
def verbatim (run : Bytes) : String := String.ofList (run.map fun byte => Char.ofNat byte.toNat)

theorem ofRun_of_mem (counts : isHexText contents = true)
    (maximal : MaximalRun start contents token) (inside : byte ∈ token.bytes) : OfRun byte := by
  obtain ⟨before, after, cut, -, -, solid, -⟩ := maximal
  have part : byte ∈ contents := by
    rw [cut]
    exact List.mem_append_left _ (List.mem_append_right _ inside)
  exact ((isHexText_iff.mp counts).2 byte part).imp_right fun other =>
    other.resolve_left (solid byte inside)

theorem OfRun.bounds (ofRun : OfRun byte) :
    48 ≤ byte.toNat ∧ byte.toNat ≤ 57 ∨ 65 ≤ byte.toNat ∧ byte.toNat ≤ 70 ∨
      97 ≤ byte.toNat ∧ byte.toNat ≤ 102 ∨ byte.toNat = 120 ∨ byte.toNat = 88 := by
  rcases ofRun with ⟨value, digit⟩ | rfl | rfl
  · have range := digit.bounds
    omega
  · decide
  · decide

theorem OfRun.plain (ofRun : OfRun byte) : Quoted.Plain (Char.ofNat byte.toNat) := by
  have range := ofRun.bounds
  have number : (Char.ofNat byte.toNat).toNat = byte.toNat := by
    rw [Char.ofNat, dif_pos (Or.inl (by omega))]
    rfl
  have quote : '"'.toNat = 34 := rfl
  have stroke : '\\'.toNat = 92 := rfl
  refine ⟨by omega, by omega, fun same => ?_, fun same => ?_⟩
  · rw [same] at number
    omega
  · rw [same] at number
    omega

/-- **A run of a file that counts as a dump** is read byte by byte, and quoted as it is. -/
theorem text_of_run (ofRun : ∀ byte ∈ token.bytes, OfRun byte) :
    Utf8.text token.bytes = verbatim token.bytes ∧
      Quoted.quoted (verbatim token.bytes) = "\"" ++ verbatim token.bytes ++ "\"" := by
  refine ⟨Utf8.text_of_ascii fun byte inside => ?_,
    Quoted.quoted_of_plain fun character inside => ?_⟩
  · have range := (ofRun byte inside).bounds
    rw [UInt8.lt_iff_toNat_lt]
    show byte.toNat < 128
    omega
  · rw [verbatim, String.toList_ofList] at inside
    obtain ⟨byte, part, rfl⟩ := List.mem_map.mp inside
    exact (ofRun byte part).plain

theorem FirstBroken.mem {runs : List Token} {bad : Token} (broken : FirstBroken runs bad) :
    bad ∈ runs := by
  obtain ⟨before, after, rfl, -⟩ := broken
  exact List.mem_append_right _ List.mem_cons_self

end HexText

/-! ### Dumps that cannot be read -/

open HexText

namespace Contents

/-- **A dump that cannot be read** is refused for its first run that spells nothing. -/
theorem value_decode_of_broken {contents : Bytes} {bad : Token}
    (counts : isHexText contents = true) (broken : FirstBroken (tokens contents) bad) :
    (decode contents).run.value = .error (.invalidHex ⟨bad.position, verbatim bad.bytes⟩) ∧
      Quoted.quoted (verbatim bad.bytes) = "\"" ++ verbatim bad.bytes ++ "\"" := by
  have maximal := mem_tokensFrom_iff.mp broken.mem
  obtain ⟨read, quoted⟩ := text_of_run fun byte => ofRun_of_mem counts maximal
  have parsed : parse contents = .error ⟨bad.position, verbatim bad.bytes⟩ :=
    values_eq_error_iff.mpr ⟨bad, broken, by rw [read]⟩
  refine ⟨?_, quoted⟩
  rw [value_decode, value_bytes, if_pos counts, parsed]
  rfl

/-- The fault of a dump in words, with the run as the file has it. -/
theorem exists_message_of_broken {contents : Bytes} {bad : Token}
    (counts : isHexText contents = true) (broken : FirstBroken (tokens contents) bad) :
    ∃ failure, (decode contents).run.value = .error failure ∧
      failure.message = "Invalid hex at byte " ++ toString bad.position ++ ": \"" ++
        verbatim bad.bytes ++ "\"" := by
  obtain ⟨refused, quoted⟩ := value_decode_of_broken counts broken
  have before : ": \"" = ": " ++ "\"" := by decide +kernel
  refine ⟨_, refused, ?_⟩
  show "Invalid hex at byte " ++ toString bad.position ++ ": " ++
    Quoted.quoted (verbatim bad.bytes) = _
  rw [quoted, before]
  simp only [String.append_assoc]

end Contents

/-- **The failure of a run** is the last line on the standard error. -/
theorem Program.getLast?_errorLines {outcome : Program.Outcome} {failure : Program.Failure}
    (failed : outcome.failure = some failure) :
    outcome.errorLines.getLast? = some ("Error: " ++ failure.text) := by
  rw [Outcome.errorLines, failed, Option.map_some, Option.toList_some, List.getLast?_concat]

section Runs

variable {surroundings : Program.Surroundings} {arguments : List String} {verbosity : Nat}
  {command : Command} {path : String}

/-- **A run on a dump that cannot be read** exits with 1 and prints nothing; its last line on the
standard error shows the first run that spells nothing, as the file has it, and its place. -/
theorem run_of_broken_dump {contents : Bytes} {bad : Token}
    (reads : CommandLine.read arguments = .ok ⟨verbosity, command⟩)
    (asks : command.path? = some path)
    (found : Program.contents surroundings path = .ok contents)
    (counts : isHexText contents = true) (broken : FirstBroken (tokens contents) bad) :
    ∃ outcome, Program.run surroundings arguments = .ok outcome ∧
      outcome.exitCode = 1 ∧ outcome.printed = "" ∧
      outcome.errorLines.getLast? = some ("Error: InvalidHex \x7b position: " ++
        toString bad.position ++ ", token: \"" ++ verbatim bad.bytes ++ "\" \x7d") := by
  obtain ⟨outcome, ran, result⟩ := run_of_contents reads asks found
  obtain ⟨refused, quoted⟩ := Contents.value_decode_of_broken counts broken
  rw [Program.resultOf_refused refused] at result
  refine ⟨outcome, ran, congrArg Program.Result.exitCode result,
    congrArg Program.Result.printed result, ?_⟩
  have opening : "Error: InvalidHex \x7b position: " =
      "Error: " ++ "InvalidHex \x7b position: " := by
    decide +kernel
  have before : ", token: \"" = ", token: " ++ "\"" := by decide +kernel
  have behind : "\" \x7d" = "\"" ++ " \x7d" := by decide +kernel
  rw [Program.getLast?_errorLines (congrArg Program.Result.failure result), opening, before, behind]
  show some ("Error: " ++ ("InvalidHex \x7b position: " ++ toString bad.position ++
    ", token: " ++ Quoted.quoted (verbatim bad.bytes) ++ " \x7d")) = _
  rw [quoted]
  simp only [String.append_assoc]

/-! ### Files that cannot be opened -/

/-- What a system says of a file is quoted as it is. -/
theorem quoted_reason (cause : FileError) :
    Quoted.quoted cause.reason = "\"" ++ cause.reason ++ "\"" := by
  have plain : cause.reason.toList.all (decide <| Quoted.Plain ·) = true := by
    cases cause <;> decide +kernel
  exact Quoted.quoted_of_plain fun character inside =>
    of_decide_eq_true (List.all_eq_true.mp plain character inside)

/-- A command on a file that cannot be opened prints nothing. -/
theorem Program.execute_unreadable {cause : FileError} (asks : command.path? = some path)
    (missing : Program.contents surroundings path = .error cause) (made : Threshold) :
    (execute surroundings made command).run.value = .error (.input (.unreadable path cause)) ∧
      (execute surroundings made command).run.printed = "" := by
  have loaded : (load surroundings path).run.value = .error (.input (.unreadable path cause)) := by
    show (Contents.load path (Program.contents surroundings path)).run.value.mapError _ = _
    rw [missing]
    rfl
  have silent : (load surroundings path).run.printed = "" := rfl
  rw [execute_eq_load_bind asks, Console.value_run_bind, Console.printed_run_bind, loaded, silent]
  exact ⟨rfl, String.append_empty⟩

/-- **A run on a file that cannot be opened** exits with 1 and prints nothing; its last line on the
standard error has the path in quotes, and the number, the name and the sentence of the cause. -/
theorem run_of_unreadable {cause : FileError}
    (reads : CommandLine.read arguments = .ok ⟨verbosity, command⟩)
    (asks : command.path? = some path)
    (missing : Program.contents surroundings path = .error cause) :
    ∃ outcome, Program.run surroundings arguments = .ok outcome ∧
      outcome.result = ⟨1, "", some (.input (.unreadable path cause))⟩ ∧
      outcome.errorLines.getLast? = some ("Error: Io \x7b path: " ++ Quoted.quoted path ++
        ", source: Os \x7b code: " ++ toString cause.code ++ ", kind: " ++ cause.kind ++
        ", message: \"" ++ cause.reason ++ "\" \x7d \x7d") := by
  obtain ⟨failed, silent⟩ := Program.execute_unreadable asks missing
    ((LogBounds.ofVariable surroundings.logLevel).withVerbosity verbosity).made
  have result : (Program.perform surroundings ⟨verbosity, command⟩).result =
      ⟨1, "", some (.input (.unreadable path cause))⟩ := by
    unfold Program.perform
    rw [Program.result_outcome_failed _ failed, silent]
  refine ⟨Program.perform surroundings ⟨verbosity, command⟩, ?_, result, ?_⟩
  · rw [Program.run, reads]
    rfl
  · have opening : "Error: Io \x7b path: " = "Error: " ++ "Io \x7b path: " := by decide +kernel
    have before : ", message: \"" = ", message: " ++ "\"" := by decide +kernel
    have behind : "\" \x7d \x7d" = "\"" ++ " \x7d \x7d" := by decide +kernel
    rw [Program.getLast?_errorLines (congrArg Program.Result.failure result), opening, before,
      behind]
    show some ("Error: " ++ ("Io \x7b path: " ++ Quoted.quoted path ++ ", source: Os \x7b code: " ++
      toString cause.code ++ ", kind: " ++ cause.kind ++ ", message: " ++
        Quoted.quoted cause.reason ++ " \x7d \x7d")) = _
    rw [quoted_reason]
    simp only [String.append_assoc]

end Runs

end Edid
