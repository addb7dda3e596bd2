/-
**The log has no say in the answer.** The log variable and the flags on the command line decide
which records are made and which of them are shown. One computation of a run hangs on that: the
closing record of the resolution list names the preferred resolution, which is read only if the
record is made, and a read can fail. It cannot fail there, since the resolutions come from the same
whole block. So runs that differ in their log at most leave the same exit code, text and failure.

* `Console.Alike.bind`: computations that are alike step by step are alike;
* `ShowsWhole.alike`: views with one text are alike on every buffer;
* `CommandLine.exists_readFrom`: flags before a command change its verbosity and nothing else;
* `answer_of_any_log`: all logs of all accepted command lines.
-/

import Edid.Proofs.Outcome

namespace Edid

/-! ### Computations that differ in their records -/

namespace Console

variable {α β ε : Type}

/-- Two computations with the same value and the same text, whatever their records are. -/
structure Alike (first second : Console α) : Prop where
  value : first.value = second.value
  printed : first.printed = second.printed

theorem Alike.refl (computation : Console α) : Alike computation computation := ⟨rfl, rfl⟩

theorem Alike.map (shape : α → β) {first second : Console α} (alike : Alike first second) :
    Alike (shape <$> first) (shape <$> second) :=
  ⟨congrArg shape alike.value, congrArg (· ++ "") alike.printed⟩

/-- **One step after the other**: the same failure ends both computations, or both go on with the
same value. -/
theorem Alike.bind {first second : ExceptT ε Console α} {next other : α → ExceptT ε Console β}
    (alike : Alike first.run second.run)
    (rest : ∀ value, Alike (next value).run (other value).run) :
    Alike (first >>= next).run (second >>= other).run := by
  constructor
  · rw [value_run_bind, value_run_bind, alike.value]
    cases second.run.value with
    | ok value => exact (rest value).value
    | error failure => rfl
  · rw [printed_run_bind, printed_run_bind, alike.value, alike.printed]
    cases second.run.value with
    | ok value => exact congrArg (second.run.printed ++ ·) (rest value).printed
    | error failure => rfl

end Console

open Console Presentation

/-- **Views with one text** are alike on every buffer: both refuse it, or both show it. -/
theorem ShowsWhole.alike {view other : Bytes → Printing Unit} {text : Bytes → String}
    (shows : ShowsWhole view text) (also : ShowsWhole other text) (bytes : Bytes) :
    Alike (view bytes).run (other bytes).run := by
  rcases Nat.lt_or_ge bytes.length blockLength with short | whole
  · have one := shows.refused short
    have two := also.refused short
    exact ⟨one.failed.trans two.failed.symm, one.silent.trans two.silent.symm⟩
  · have one := shows.shown whole
    have two := also.shown whole
    exact ⟨one.done.trans two.done.symm, one.printed.trans two.printed.symm⟩

/-! ### Runs -/

namespace Program

theorem alike_present {first second : Printing Unit} (alike : Alike first.run second.run) :
    Alike (present first).run (present second).run :=
  alike.map _

/-- What a command shows is alike, whichever records are made. -/
theorem alike_view (made other : Threshold) (bytes : Bytes) (command : Command) :
    Alike (view made bytes command).run (view other bytes command).run := by
  cases command with
  | resolutions path =>
      exact alike_present ((shows_resolutions made).alike (shows_resolutions other) bytes)
  | info | descriptors | sample => exact .refl _

/-- The surroundings with another text in the log variable. -/
def Surroundings.logging (surroundings : Surroundings) (level : Option String) : Surroundings :=
  { surroundings with logLevel := level }

variable {surroundings : Surroundings}

theorem alike_execute (level other : Option String) (made also : Threshold) (command : Command) :
    Alike (execute (surroundings.logging level) made command).run
      (execute (surroundings.logging other) also command).run := by
  cases asks : command.path? with
  | none =>
      cases command with
      | sample format => exact .refl _
      | info | resolutions | descriptors => cases asks
  | some path =>
      rw [execute_eq_load_bind asks, execute_eq_load_bind asks]
      -- The files are the same in both surroundings, so the same is loaded.
      exact Alike.bind (.refl _) fun bytes => alike_view made also bytes command

/-- The bounds of the log decide what is shown of the records, and nothing else. -/
theorem result_outcome_of_alike {finished other : Console (Except Failure Unit)}
    (alike : Alike finished other) (bounds also : LogBounds) :
    (outcome bounds finished).result = (outcome also other).result := by
  unfold outcome Outcome.result
  dsimp only
  rw [alike.value, alike.printed]

/-- **What a command leaves behind**, its log apart, hangs neither on the log variable nor on the
verbosity. -/
theorem result_perform_logging (level other : Option String) (few many : Nat) (command : Command) :
    (perform (surroundings.logging level) ⟨few, command⟩).result =
      (perform (surroundings.logging other) ⟨many, command⟩).result :=
  result_outcome_of_alike (alike_execute level other _ _ command) _ _

end Program

/-! ### Flags -/

namespace CommandLine

theorem exists_of_bind_eq_ok {α β : Type} {first : Except Refusal α} {next : α → Except Refusal β}
    {result : β} (served : (first >>= next) = .ok result) :
    ∃ value, first = .ok value ∧ next value = .ok result := by
  cases first with
  | error refusal => cases served
  | ok value => exact ⟨value, rfl, served⟩

theorem exists_countLong {before count : Nat} {name : List Char} {attached : Option (List Char)}
    (counts : countLong before name attached = .ok count) (other : Nat) :
    ∃ total, countLong other name attached = .ok total := by
  unfold countLong at counts ⊢
  dsimp only at counts ⊢
  split_ifs at counts ⊢
  exact ⟨other + 1, rfl⟩

theorem exists_countCluster {before count : Nat} {letters : List Char}
    (counts : countCluster before letters = .ok count) (other : Nat) :
    ∃ total, countCluster other letters = .ok total := by
  induction letters generalizing before other with
  | nil => exact ⟨other, rfl⟩
  | cons letter rest ih =>
      rw [countCluster] at counts ⊢
      split_ifs at counts ⊢
      exact ih counts (other + 1)

theorem exists_readCommand {before verbosity : Nat} {name : CommandName}
    {words : List (List Char)} {command : Command}
    (reads : readCommand before name words = .ok ⟨verbosity, command⟩) (other : Nat) :
    ∃ count, readCommand other name words = .ok ⟨count, command⟩ := by
  unfold readCommand at reads ⊢
  obtain ⟨arguments, read, made⟩ := exists_of_bind_eq_ok reads
  rw [read]
  cases made
  exact ⟨_, rfl⟩

/-- **Flags before a command** change its verbosity and nothing else. -/
theorem exists_readFrom {before verbosity : Nat} {words : List (List Char)} {command : Command}
    (reads : readFrom before words = .ok ⟨verbosity, command⟩) (other : Nat) :
    ∃ count, readFrom other words = .ok ⟨count, command⟩ := by
  induction words generalizing before other with
  | nil => cases reads
  | cons word rest ih =>
      rw [readFrom] at reads ⊢
      cases form : Word.classify word with
      | endOfOptions =>
          simp only [form] at reads
          cases reads
      | long name attached =>
          simp only [form] at reads ⊢
          obtain ⟨count, counted, later⟩ := exists_of_bind_eq_ok reads
          obtain ⟨total, counts⟩ := exists_countLong counted other
          rw [counts]
          exact ih later total
      | cluster letters =>
          simp only [form] at reads ⊢
          obtain ⟨count, counted, later⟩ := exists_of_bind_eq_ok reads
          obtain ⟨total, counts⟩ := exists_countCluster counted other
          rw [counts]
          exact ih later total
      | plain =>
          simp only [form] at reads ⊢
          cases named : CommandName.ofText? word with
          | none =>
              simp only [named] at reads
              cases reads
          | some name =>
              simp only [named] at reads ⊢
              exact exists_readCommand reads other

theorem readFrom_replicate_append (before flags : Nat) (words : List (List Char)) :
    readFrom before (List.replicate flags "-v".toList ++ words) =
      readFrom (before + flags) words := by
  induction flags generalizing before with
  | zero => rfl
  | succ flags ih =>
      have one : readFrom before (List.replicate (flags + 1) "-v".toList ++ words) =
          readFrom (before + 1) (List.replicate flags "-v".toList ++ words) := rfl
      rw [one, ih, Nat.add_assoc, Nat.add_comm 1]

/-- Any number of flags can be put in front of a command line. -/
theorem exists_read_replicate_append {arguments : List String} {verbosity : Nat} {command : Command}
    (reads : read arguments = .ok ⟨verbosity, command⟩) (flags : Nat) :
    ∃ count, read (List.replicate flags "-v" ++ arguments) = .ok ⟨count, command⟩ := by
  rw [read, List.map_append, List.map_replicate, readFrom_replicate_append]
  exact exists_readFrom reads _

end CommandLine

/-! ### All logs -/

/-- **Logging never influences the answer.** A command line that is accepted has one answer, which
is an exit code, a text and perhaps a failure: every run with the same files and the same standard
input comes to it, whatever the log variable holds and however many flags are put in front, and so
does every other command line that asks for the same command at another verbosity. -/
theorem answer_of_any_log {surroundings : Program.Surroundings} {arguments : List String}
    {verbosity : Nat} {command : Command}
    (reads : CommandLine.read arguments = .ok ⟨verbosity, command⟩) :
    ∃ answer : Program.Result, ∀ level : Option String,
      (∀ flags, ∃ outcome, Program.run (surroundings.logging level)
          (List.replicate flags "-v" ++ arguments) = .ok outcome ∧ outcome.result = answer) ∧
      ∀ (words : List String) (count : Nat), CommandLine.read words = .ok ⟨count, command⟩ →
        ∃ outcome, Program.run (surroundings.logging level) words = .ok outcome ∧
          outcome.result = answer := by
  have answers : ∀ (level : Option String) (words : List String) (count : Nat),
      CommandLine.read words = .ok ⟨count, command⟩ →
        ∃ outcome, Program.run (surroundings.logging level) words = .ok outcome ∧
          outcome.result = (Program.perform surroundings ⟨verbosity, command⟩).result := by
    intro level words count asks
    refine ⟨Program.perform (surroundings.logging level) ⟨count, command⟩, ?_,
      Program.result_perform_logging level surroundings.logLevel count verbosity command⟩
    rw [Program.run, asks]
    rfl
  refine ⟨_, fun level => ⟨fun flags => ?_, answers level⟩⟩
  obtain ⟨count, asks⟩ := CommandLine.exists_read_replicate_append reads flags
  exact answers level _ count asks

/-- The resolutions of the sample, without a log and with all of it: one run shows no record, the
other one shows some, and both print the same list. -/
theorem answer_of_any_log_sample :
    CommandLine.read ["resolutions", "screen.bin"] = .ok ⟨0, .resolutions "screen.bin"⟩ ∧
      ∃ silent verbose,
        Program.run (sampleTwice.logging (some "off")) ["resolutions", "screen.bin"] =
          .ok silent ∧
        Program.run (sampleTwice.logging (some "trace")) ["-v", "-v", "resolutions", "screen.bin"] =
          .ok verbose ∧
        silent.shown = [] ∧ verbose.shown ≠ [] ∧ silent.result = verbose.result := by
  have reads : CommandLine.read ["resolutions", "screen.bin"] =
      .ok ⟨0, .resolutions "screen.bin"⟩ := by decide +kernel
  obtain ⟨answer, answers⟩ := @answer_of_any_log sampleTwice _ _ _ reads
  obtain ⟨silent, ran, quiet⟩ := (answers (some "off")).1 0
  obtain ⟨verbose, ranAgain, loud⟩ := (answers (some "trace")).1 2
  have hidden : (Program.run (sampleTwice.logging (some "off")) ["resolutions", "screen.bin"]).map
      Program.Outcome.shown = .ok [] := by decide +kernel
  have seen : (Program.run (sampleTwice.logging (some "trace"))
      ["-v", "-v", "resolutions", "screen.bin"]).map (·.shown.isEmpty) = .ok false := by
    decide +kernel
  have none : silent.shown = [] := Except.ok.inj ((congrArg (Except.map _) ran).symm.trans hidden)
  have some : verbose.shown.isEmpty = false :=
    Except.ok.inj ((congrArg (Except.map _) ranAgain).symm.trans seen)
  refine ⟨reads, silent, verbose, ran, ranAgain, none, ?_, quiet.trans loud.symm⟩
  exact List.isEmpty_eq_false_iff.mp some

end Edid
