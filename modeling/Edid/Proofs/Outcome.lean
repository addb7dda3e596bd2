/-
**What a run leaves behind.** A run that reads a file is a success exactly when the contents of the
file decode, and then it prints what the command shows of the decoded bytes; otherwise it prints
nothing at all. Decoded bytes hold a whole base block, which is all that any view asks for: so
what a view reads after it has begun to print cannot fail, and neither can the run.

* `ShowsWhole.atomic`: a view that fails has printed nothing;
* `run_view`: a view of a whole block comes to its end, whichever records are made;
* `result_perform`: exit code, text and failure of a run, by the contents of its file;
* `read_arguments`: every command with its options can be asked for;
* `runs_all_or_nothing`: success, exit code and text of every run, from a file or from the standard
  input alike.
-/

import Edid.Proofs.FileForms
import Edid.Proofs.Views

namespace Edid

open Presentation

/-! ### Views that fail -/

/-- A view that has printed nothing when it fails. -/
def Atomic (view : Bytes → Printing Unit) : Prop :=
  ∀ bytes failure, (view bytes).run.value = .error failure → (view bytes).run.printed = ""

/-- **A view that needs the whole block** fails before it prints. -/
theorem ShowsWhole.atomic {view : Bytes → Printing Unit} {text : Bytes → String}
    (shows : ShowsWhole view text) : Atomic view := by
  intro bytes failure failed
  rcases Nat.lt_or_ge bytes.length blockLength with short | whole
  · exact (shows.refused short).silent
  · rw [(shows.shown whole).done] at failed
    cases failed

namespace Program

/-! ### Views of decoded bytes -/

/-- What a command prints of bytes with a whole base block. -/
def text (bytes : Bytes) : Command → String
  | .info _ format => (Decoded.summary bytes).shownAs format
  | .resolutions _ => resolutionText (Decoded.summary bytes).resolutions
  | .descriptors _ raw =>
      slotsText raw bytes (Decoded.summary bytes).descriptors ++
        modelText (Decoded.summary bytes).modelName
  | .sample format => (Decoded.summary sample).shownAs format

theorem text_withPath (bytes : Bytes) (path : String) (command : Command) :
    text bytes (command.withPath path) = text bytes command := by
  cases command <;> rfl

variable {bytes : Bytes}

theorem run_present {view : Printing Unit} {text : String} (shown : Shown view text) :
    (present view).run.value = .ok () ∧ (present view).run.printed = text := by
  refine ⟨?_, ?_⟩
  · show Except.mapError _ view.run.value = _
    rw [shown.done]
    rfl
  · exact String.append_empty.trans shown.printed

/-- **A view of a whole block** comes to its end, whichever records are made. -/
theorem run_view (whole : blockLength ≤ bytes.length) (made : Threshold) (command : Command) :
    (view made bytes command).run.value = .ok () ∧
      (view made bytes command).run.printed = text bytes command := by
  cases command with
  | info _ format => exact run_present ((shows_summary format).shown whole)
  | resolutions _ => exact run_present ((shows_resolutions made).shown whole)
  | descriptors _ raw => exact run_present ((shows_descriptors raw).shown whole)
  | sample format => exact run_present ((shows_summary format).shown (by decide +kernel))

/-! ### Exit codes -/

/-- What a run leaves behind, its log apart. -/
structure Result where
  exitCode : Nat
  printed : String
  failure : Option Failure

def Outcome.result (outcome : Outcome) : Result :=
  ⟨outcome.exitCode, outcome.printed, outcome.failure⟩

theorem result_outcome_done {finished : Console (Except Failure Unit)} (bounds : LogBounds)
    (done : finished.value = .ok ()) :
    (outcome bounds finished).result = ⟨0, finished.printed, none⟩ := by
  unfold outcome Outcome.result
  rw [done]
  rfl

theorem result_outcome_failed {finished : Console (Except Failure Unit)} {failure : Failure}
    (bounds : LogBounds) (failed : finished.value = .error failure) :
    (outcome bounds finished).result = ⟨1, finished.printed, some failure⟩ := by
  unfold outcome Outcome.result
  rw [failed]
  rfl

/-- What the contents of its file make of a command. -/
def resultOf (contents : Bytes) (command : Command) : Result :=
  match (Contents.decode contents).run.value with
  | .ok bytes => ⟨0, text bytes command, none⟩
  | .error failure => ⟨1, "", some (.input failure)⟩

theorem resultOf_decoded {contents bytes : Bytes}
    (decoded : (Contents.decode contents).run.value = .ok bytes) (command : Command) :
    resultOf contents command = ⟨0, text bytes command, none⟩ := by
  rw [resultOf, decoded]

theorem resultOf_refused {contents : Bytes} {failure : InputError}
    (refused : (Contents.decode contents).run.value = .error failure) (command : Command) :
    resultOf contents command = ⟨1, "", some (.input failure)⟩ := by
  rw [resultOf, refused]

theorem exitCode_resultOf (contents : Bytes) (command : Command) :
    (resultOf contents command).exitCode = 0 ↔
      ∃ bytes, (Contents.decode contents).run.value = .ok bytes := by
  cases decoded : (Contents.decode contents).run.value with
  | ok bytes =>
      rw [resultOf_decoded decoded]
      exact ⟨fun _ => ⟨bytes, rfl⟩, fun _ => rfl⟩
  | error failure =>
      rw [resultOf_refused decoded]
      constructor
      · intro zero
        exact absurd zero Nat.one_ne_zero
      · rintro ⟨_, served⟩
        cases served

theorem resultOf_withPath (contents : Bytes) (path : String) (command : Command) :
    resultOf contents (command.withPath path) = resultOf contents command := by
  unfold resultOf
  cases (Contents.decode contents).run.value with
  | ok bytes => simp only [text_withPath]
  | error failure => rfl

variable {surroundings : Surroundings} {path : String} {contents : Bytes} {command : Command}

/-- A command on contents that decode prints what it shows of the decoded bytes. -/
theorem execute_decoded (asks : command.path? = some path)
    (found : Program.contents surroundings path = .ok contents)
    (decoded : (Contents.decode contents).run.value = .ok bytes) (made : Threshold) :
    (execute surroundings made command).run.value = .ok () ∧
      (execute surroundings made command).run.printed = text bytes command := by
  obtain ⟨value, printed⟩ := execute_of_decode asks found decoded made
  rw [value, printed]
  exact run_view (Contents.le_length_of_decode decoded) made command

/-- A command on contents that do not decode prints nothing. -/
theorem execute_refused {failure : InputError} (asks : command.path? = some path)
    (found : Program.contents surroundings path = .ok contents)
    (refused : (Contents.decode contents).run.value = .error failure) (made : Threshold) :
    (execute surroundings made command).run.value = .error (.input failure) ∧
      (execute surroundings made command).run.printed = "" := by
  have loaded : (load surroundings path).run.value = .error (.input failure) := by
    rw [value_load found, refused]
    rfl
  have silent : (load surroundings path).run.printed = "" := rfl
  rw [execute_eq_load_bind asks, Console.value_run_bind, Console.printed_run_bind, loaded, silent]
  exact ⟨rfl, String.append_empty⟩

/-- **The contents of its file** decide the exit code, the text and the failure of a run. -/
theorem result_perform (asks : command.path? = some path)
    (found : Program.contents surroundings path = .ok contents) (verbosity : Nat) :
    (perform surroundings ⟨verbosity, command⟩).result = resultOf contents command := by
  unfold perform resultOf
  dsimp only
  cases decoded : (Contents.decode contents).run.value with
  | ok bytes =>
      obtain ⟨done, printed⟩ := execute_decoded asks found decoded _
      rw [result_outcome_done _ done, printed]
  | error failure =>
      obtain ⟨failed, silent⟩ := execute_refused asks found decoded _
      rw [result_outcome_failed _ failed, silent]

end Program

/-! ### Asking for a command -/

def Format.name : Format → String
  | .text => "text"
  | .toml => "toml"

/-- What asks for a command, before its input. -/
def Command.words : Command → List String
  | info _ format => ["info", "--format", format.name, "--"]
  | resolutions _ => ["resolutions", "--"]
  | descriptors _ true => ["descriptors", "--raw", "--"]
  | descriptors _ false => ["descriptors", "--"]
  | sample format => ["sample", "--format", format.name]

/-- Arguments that ask for a command; an input comes last. -/
def Command.arguments (command : Command) : List String :=
  command.words ++ command.path?.toList

theorem read_append_input (words : List String) (command : String → Command)
    (reads : ∀ first rest, CommandLine.readFrom 0 (words.map String.toList ++ [first :: rest]) =
      .ok ⟨0, command (String.ofList (first :: rest))⟩) {path : String} (named : path ≠ "") :
    CommandLine.read (words ++ [path]) = .ok ⟨0, command path⟩ := by
  obtain ⟨first, rest, spelled⟩ :=
    List.exists_cons_of_ne_nil (mt String.toList_eq_nil_iff.mp named)
  have same : String.ofList (first :: rest) = path := spelled ▸ String.ofList_toList
  rw [CommandLine.read, List.map_append, List.map_singleton, spelled, reads, same]

/-- **Every command can be asked for**, on any input that has a name. -/
theorem read_arguments (command : Command) (named : ∀ path ∈ command.path?, path ≠ "") :
    CommandLine.read command.arguments = .ok ⟨0, command⟩ := by
  cases command with
  | sample format => cases format <;> rfl
  | info path format =>
      cases format with
      | text =>
          exact read_append_input ["info", "--format", "text", "--"] (.info · .text)
            (fun _ _ => rfl) (named path rfl)
      | toml =>
          exact read_append_input ["info", "--format", "toml", "--"] (.info · .toml)
            (fun _ _ => rfl) (named path rfl)
  | resolutions path =>
      exact read_append_input ["resolutions", "--"] .resolutions (fun _ _ => rfl) (named path rfl)
  | descriptors path raw =>
      cases raw with
      | true =>
          exact read_append_input ["descriptors", "--raw", "--"] (.descriptors · true)
            (fun _ _ => rfl) (named path rfl)
      | false =>
          exact read_append_input ["descriptors", "--"] (.descriptors · false)
            (fun _ _ => rfl) (named path rfl)

/-! ### Runs -/

/-- **A run on contents that can be read** ends, with what the contents make of its command. -/
theorem run_of_contents {surroundings : Program.Surroundings} {arguments : List String}
    {verbosity : Nat} {command : Command} {path : String} {contents : Bytes}
    (reads : CommandLine.read arguments = .ok ⟨verbosity, command⟩)
    (asks : command.path? = some path)
    (found : Program.contents surroundings path = .ok contents) :
    ∃ outcome, Program.run surroundings arguments = .ok outcome ∧
      outcome.result = Program.resultOf contents command := by
  refine ⟨Program.perform surroundings ⟨verbosity, command⟩, ?_,
    Program.result_perform asks found verbosity⟩
  rw [Program.run, reads]
  rfl

/-- The same contents on the standard input make the same of a command. -/
theorem run_of_input {surroundings : Program.Surroundings} {arguments : List String}
    {verbosity : Nat} {command : Command} {path : String} {contents : Bytes}
    (asks : command.path? = some path) (same : surroundings.input = contents)
    (reads : CommandLine.read arguments =
      .ok ⟨verbosity, command.withPath Program.inputPath⟩) :
    ∃ outcome, Program.run surroundings arguments = .ok outcome ∧
      outcome.result = Program.resultOf contents command := by
  have found : Program.contents surroundings Program.inputPath = .ok contents :=
    (if_pos rfl).trans (congrArg Except.ok same)
  have waits : command.path? ≠ none := asks ▸ Option.some_ne_none path
  rw [← Program.resultOf_withPath contents Program.inputPath command]
  exact run_of_contents reads (command.path?_withPath waits Program.inputPath) found

/-- **A run prints in full or not at all.** Every command can be asked for. A run on contents that
can be read exits with 0 exactly when they decode, and has then printed the text of its command for
the decoded bytes, which is just what its view shows of them; on any other contents it exits with 1,
has printed nothing, and says why they do not decode. The same contents on the standard input come
to the same result. And each view by itself, on any bytes at all, shows the text of its command or
fails, and has printed nothing when it fails. -/
theorem runs_all_or_nothing :
    (∀ command : Command, (∀ path ∈ command.path?, path ≠ "") →
      CommandLine.read command.arguments = .ok ⟨0, command⟩) ∧
    (∀ {surroundings : Program.Surroundings} {arguments : List String} {verbosity : Nat}
        {command : Command} {path : String} {contents : Bytes},
      CommandLine.read arguments = .ok ⟨verbosity, command⟩ → command.path? = some path →
      Program.contents surroundings path = .ok contents →
      ∃ outcome, Program.run surroundings arguments = .ok outcome ∧
        (outcome.exitCode = 0 ↔ ∃ bytes, (Contents.decode contents).run.value = .ok bytes) ∧
        (∀ bytes, (Contents.decode contents).run.value = .ok bytes →
          outcome.printed = Program.text bytes command ∧ ∀ made,
            (Program.view made bytes command).run.value = .ok () ∧
              outcome.printed = (Program.view made bytes command).run.printed) ∧
        (∀ failure, (Contents.decode contents).run.value = .error failure →
          outcome.exitCode = 1 ∧ outcome.printed = "" ∧
            outcome.failure = some (.input failure)) ∧
        ∀ (others : Program.Surroundings) (words : List String) (count : Nat),
          others.input = contents →
          CommandLine.read words = .ok ⟨count, command.withPath Program.inputPath⟩ →
          ∃ piped, Program.run others words = .ok piped ∧ piped.result = outcome.result) ∧
    (∀ format, Atomic (Presentation.summary format)) ∧
    (∀ made, Atomic (Presentation.resolutions made)) ∧
    (∀ raw, Atomic (Presentation.descriptors raw)) ∧
    ∀ path,
      (∀ format, ShowsWhole (Presentation.summary format) (Program.text · (.info path format))) ∧
      (∀ made, ShowsWhole (Presentation.resolutions made) (Program.text · (.resolutions path))) ∧
      ∀ raw,
        ShowsWhole (Presentation.descriptors raw) (Program.text · (.descriptors path raw)) := by
  refine ⟨read_arguments, ?_, fun format => (shows_summary format).atomic,
    fun made => (shows_resolutions made).atomic, fun raw => (shows_descriptors raw).atomic,
    fun _ => ⟨shows_summary, shows_resolutions, shows_descriptors⟩⟩
  intro surroundings arguments verbosity command path contents reads asks found
  obtain ⟨outcome, ran, result⟩ := run_of_contents reads asks found
  refine ⟨outcome, ran, ?_, ?_, ?_, ?_⟩
  · rw [← Program.exitCode_resultOf contents command, ← result]
    rfl
  · intro bytes decoded
    rw [Program.resultOf_decoded decoded] at result
    have printed : outcome.printed = Program.text bytes command :=
      congrArg Program.Result.printed result
    refine ⟨printed, fun made => ?_⟩
    obtain ⟨done, shown⟩ := Program.run_view (Contents.le_length_of_decode decoded) made command
    exact ⟨done, printed.trans shown.symm⟩
  · intro failure refused
    rw [Program.resultOf_refused refused] at result
    exact ⟨congrArg Program.Result.exitCode result, congrArg Program.Result.printed result,
      congrArg Program.Result.failure result⟩
  · intro others words count same asked
    rw [result]
    exact run_of_input asks same asked

/-- The sample as a file and on the standard input. -/
def sampleTwice : Program.Surroundings :=
  { logLevel := none
    file := fun path => if path = "screen.bin" then .ok sample else .error .notFound
    input := sample }

/-- The slots of the sample are printed with success, and alike from the standard input. -/
theorem runs_all_or_nothing_sample :
    ∃ outcome piped,
      Program.run sampleTwice ["descriptors", "--raw", "screen.bin"] = .ok outcome ∧
      Program.run sampleTwice ["-v", "descriptors", "-", "--raw"] = .ok piped ∧
      outcome.exitCode = 0 ∧
      outcome.printed = Program.text sample (.descriptors "screen.bin" true) ∧
      outcome.printed =
        (Program.view none sample (.descriptors "screen.bin" true)).run.printed ∧
      piped.result = outcome.result := by
  obtain ⟨-, runs, -⟩ := runs_all_or_nothing
  have reads : CommandLine.read ["descriptors", "--raw", "screen.bin"] =
      .ok ⟨0, .descriptors "screen.bin" true⟩ := by decide +kernel
  have asks : CommandLine.read ["-v", "descriptors", "-", "--raw"] =
      .ok ⟨1, .descriptors "-" true⟩ := by decide +kernel
  have found : Program.contents sampleTwice "screen.bin" = .ok sample := rfl
  have decoded : (Contents.decode sample).run.value = .ok sample := by decide +kernel
  obtain ⟨outcome, ran, success, shown, -, alike⟩ := runs reads rfl found
  obtain ⟨piped, ranPiped, same⟩ := alike sampleTwice _ 1 rfl asks
  obtain ⟨printed, viewed⟩ := shown sample decoded
  exact ⟨outcome, piped, ran, ranPiped, success.mpr ⟨sample, decoded⟩, printed, (viewed none).2,
    same⟩

end Edid
