/-
**What is shown at which verbosity.** A record is shown if it passes two bounds. The log variable
sets the filter, and with it the bound on the records that are made; flags on the command line set
the second bound anew, whatever it was, and never touch the filter. So a flag can show nothing that
the filter holds back, and the first one takes the traces away that the variable asked for.

* `LogBounds.ofVariable_of_setting`: the name of a level, alone, sets both bounds;
* `CommandLine.readFrom_of_zero`: flags in front of a command line without any are counted;
* `Program.exists_records_execute`: which records hang on the second bound;
* `shown_by_verbosity`: what every number of flags shows.
-/

import Mathlib.Data.List.Basic
import Edid.Proofs.LogNeutrality

namespace Edid

/-! ### Names of levels -/

namespace Blank

theorem trimmed_of_forall {text : List Char}
    (dense : ∀ character ∈ text, isBlank character = false) :
    trimmed text = text := by
  have stays {text : List Char} (dense : ∀ character ∈ text, isBlank character = false) :
      text.dropWhile isBlank = text := by
    cases text with
    | nil => rfl
    | cons first rest =>
        exact List.dropWhile_cons_of_neg (by simp [dense first List.mem_cons_self])
  rw [trimmed, stays dense, stays fun character member =>
    dense character (List.mem_reverse.mp member), List.reverse_reverse]

/-- Letters are no blanks. -/
theorem isBlank_eq_false_of_letter {character : Char} (least : 0x41 ≤ character.toNat)
    (greatest : character.toNat ≤ 0x7A) : isBlank character = false := by
  simp only [isBlank, ranges, List.any_cons, List.any_nil, Bool.or_false, Bool.or_eq_false_iff,
    decide_eq_false_iff_not]
  omega

end Blank

namespace LogBounds

/-- A setting of the log variable: none at all, which stands for `info`, or the name of a level. -/
inductive Setting : Option String → Threshold → Prop where
  | unset : Setting none (some .info)
  | named {name : String} {threshold : Threshold}
      (level : threshold? name.toList = some threshold) : Setting (some name) threshold

theorem toNat_of_toLower {character : Char} (least : 0x61 ≤ character.toLower.toNat)
    (greatest : character.toLower.toNat ≤ 0x7A) :
    0x41 ≤ character.toNat ∧ character.toNat ≤ 0x7A := by
  unfold Char.toLower at least greatest
  split at least
  · rename_i upper
    have above : 0x41 ≤ character.toNat := upper.1
    have below : character.toNat ≤ 0x5A := upper.2
    omega
  · rename_i other
    rw [dif_neg other] at greatest
    omega

/-- The names of levels in lower case. -/
def levelNames : List (List Char) :=
  ["off".toList, "error".toList, "warn".toList, "info".toList, "debug".toList, "trace".toList]

/-- The names of levels have letters only. -/
theorem letter_of_threshold {name : List Char} {threshold : Threshold}
    (level : threshold? name = some threshold) {character : Char} (member : character ∈ name) :
    0x41 ≤ character.toNat ∧ character.toNat ≤ 0x7A := by
  have known : name.map Char.toLower ∈ levelNames := by
    unfold threshold? at level
    dsimp only at level
    simp only [levelNames, List.mem_cons, List.not_mem_nil, or_false]
    split_ifs at level <;> simp_all
  have letters : (levelNames.all fun word =>
      word.all fun letter => decide (0x61 ≤ letter.toNat ∧ letter.toNat ≤ 0x7A)) = true := by
    decide +kernel
  simp only [List.all_eq_true, decide_eq_true_eq] at letters
  have lower := letters _ known character.toLower (List.mem_map_of_mem member)
  exact toNat_of_toLower lower.1 lower.2

theorem pieces_of_notMem {text : List Char} (whole : ',' ∉ text) : pieces text = [text] := by
  induction text with
  | nil => rfl
  | cons first rest ih =>
      rw [List.mem_cons, not_or] at whole
      have apart : first ≠ ',' := fun comma => whole.1 comma.symm
      rw [pieces, ih whole.2]
      exact apart

/-- **The name of a level**, alone, sets both bounds, and so does no name at all. -/
theorem ofVariable_of_setting {logLevel : Option String} {filter : Threshold}
    (setting : Setting logLevel filter) : ofVariable logLevel = both filter := by
  cases setting with
  | unset => exact ofVariable_unset
  | @named name threshold level =>
      have whole : ',' ∉ name.toList := fun comma =>
        absurd (letter_of_threshold level comma).1 (by decide)
      have dense : ∀ character ∈ name.toList, Blank.isBlank character = false := by
        intro character member
        obtain ⟨least, greatest⟩ := letter_of_threshold level member
        exact Blank.isBlank_eq_false_of_letter least greatest
      have filled : name.toList ≠ [] := by
        intro empty
        rw [empty, show threshold? [] = none from rfl] at level
        cases level
      have only : names name = [name.toList] := by
        rw [names, pieces_of_notMem whole, List.map_singleton, Blank.trimmed_of_forall dense]
        exact List.filter_cons_of_pos (by simpa using filled)
      rw [ofVariable, only]
      exact ofNames_singleton _ _ level

end LogBounds

/-! ### Flags -/

namespace CommandLine

theorem eq_of_countLong {before count : Nat} {name : List Char} {attached : Option (List Char)}
    (counts : countLong before name attached = .ok count) : count = before + 1 := by
  unfold countLong at counts
  dsimp only at counts
  split_ifs at counts
  exact (Except.ok.inj counts).symm

theorem eq_of_countCluster {before count : Nat} {letters : List Char}
    (counts : countCluster before letters = .ok count) : count = before + letters.length := by
  induction letters generalizing before with
  | nil => exact (Except.ok.inj counts).symm
  | cons letter rest ih =>
      rw [countCluster] at counts
      split_ifs at counts
      rw [ih counts, List.length_cons]
      omega

theorem readCommand_of_zero {before : Nat} {name : CommandName} {words : List (List Char)}
    {command : Command} (reads : readCommand before name words = .ok ⟨0, command⟩) :
    before = 0 ∧
      ∀ other, readCommand other name words = .ok ⟨min other greatestCount, command⟩ := by
  unfold readCommand at reads ⊢
  obtain ⟨arguments, read, made⟩ := exists_of_bind_eq_ok reads
  obtain ⟨count, rfl⟩ := Invocation.mk.inj (Except.ok.inj made)
  have silent : ¬ 0 < arguments.verbosity := by
    intro some
    rw [if_pos some] at count
    unfold greatestCount at count
    omega
  rw [if_neg silent] at count
  constructor
  · unfold greatestCount at count
    omega
  · intro other
    rw [read]
    show Except.ok _ = _
    rw [if_neg silent]

/-- **Flags in front of a command line** without any are counted, up to the greatest count. -/
theorem readFrom_of_zero {before : Nat} {words : List (List Char)} {command : Command}
    (reads : readFrom before words = .ok ⟨0, command⟩) :
    before = 0 ∧ ∀ other, readFrom other words = .ok ⟨min other greatestCount, command⟩ := by
  induction words generalizing before with
  | nil => cases reads
  | cons word rest ih =>
      rw [readFrom] at reads
      cases form : Word.classify word with
      | endOfOptions =>
          simp only [form] at reads
          cases reads
      | long name attached =>
          -- A flag in front of the command would have been counted.
          simp only [form] at reads
          obtain ⟨count, counted, later⟩ := exists_of_bind_eq_ok reads
          have positive := eq_of_countLong counted
          have zero := (ih later).1
          omega
      | cluster letters =>
          simp only [form] at reads
          obtain ⟨count, counted, later⟩ := exists_of_bind_eq_ok reads
          have positive := eq_of_countCluster counted
          have some := List.length_pos_iff.mpr (Word.classify_cluster word letters form).2
          have zero := (ih later).1
          omega
      | plain =>
          simp only [form] at reads
          cases named : CommandName.ofText? word with
          | none =>
              simp only [named] at reads
              cases reads
          | some name =>
              simp only [named] at reads
              obtain ⟨zero, others⟩ := readCommand_of_zero reads
              refine ⟨zero, fun other => ?_⟩
              rw [readFrom, form]
              simp only [named]
              exact others other

theorem read_replicate_append {words : List String} {command : Command}
    (reads : read words = .ok ⟨0, command⟩) (flags : Nat) :
    read (List.replicate flags "-v" ++ words) = .ok ⟨min flags greatestCount, command⟩ := by
  rw [read, List.map_append, List.map_replicate, readFrom_replicate_append, Nat.zero_add]
  exact (readFrom_of_zero reads).2 flags

end CommandLine

/-! ### Records -/

namespace Presentation

/-- The closing record of a list of resolutions, if there is one. -/
def closing (bytes : Bytes) (set : ResolutionSet) : List Record :=
  if set.isEmpty then []
  else match BaseBlock.preferred bytes with
    | .error _ => []
    | .ok preferred =>
        [⟨.info, toString set.size ++ " resolutions, preferred " ++ preferred.label⟩]

theorem level_of_mem_closing {bytes : Bytes} {set : ResolutionSet} {record : Record}
    (member : record ∈ closing bytes set) : record.level = .info := by
  unfold closing at member
  split at member
  · exact absurd member List.not_mem_nil
  · split at member
    · exact absurd member List.not_mem_nil
    · rw [List.mem_singleton.mp member]

/-- **The closing record** of the resolution list is the only one that hangs on the records that are
made. -/
theorem exists_records_resolutions (bytes : Bytes) :
    ∃ front last : List Record, (∀ record ∈ last, record.level = .info) ∧
      ∀ made : Threshold, (Presentation.resolutions made bytes).run.records =
        front ++ if made.admits .info then last else [] := by
  unfold Presentation.resolutions
  simp only [Console.records_run_bind]
  cases (logged (BaseBlock.resolutions bytes)).run.value with
  | error failure =>
      exact ⟨_, [], fun _ member => absurd member List.not_mem_nil, fun made => by
        rw [ite_self]⟩
  | ok set =>
      refine ⟨_, closing bytes set, fun _ member => level_of_mem_closing member, fun made =>
        congrArg _ ?_⟩
      unfold closing
      dsimp only
      by_cases empty : set.isEmpty = true
      · rw [if_pos empty, if_pos empty, ite_self]
        rfl
      · rw [if_neg empty, if_neg empty]
        by_cases admits : made.admits .info = true
        · simp only [if_pos admits, Console.records_run_bind]
          cases BaseBlock.preferred bytes <;> rfl
        · simp only [if_neg admits]
          rfl

end Presentation

namespace Program

theorem records_present (printing : Presentation.Printing Unit) :
    (present printing).run.records = printing.run.records :=
  List.append_nil _

/-- **The records of a run** hang on which of them are made only in their last one. -/
theorem exists_records_execute (surroundings : Surroundings) (command : Command) :
    ∃ front last : List Record, (∀ record ∈ last, record.level = .info) ∧
      ∀ made : Threshold, (execute surroundings made command).run.records =
        front ++ if made.admits .info then last else [] := by
  have fixed {finished : Running Unit} : ∃ front last : List Record,
      (∀ record ∈ last, record.level = .info) ∧
        ∀ made : Threshold, finished.run.records =
          front ++ if made.admits .info then last else [] :=
    ⟨finished.run.records, [], fun _ member => absurd member List.not_mem_nil, fun made => by
      rw [ite_self, List.append_nil]⟩
  cases command with
  | resolutions path =>
      simp only [execute, Console.records_run_bind]
      cases (load surroundings path).run.value with
      | error failure =>
          exact ⟨_, [], fun _ member => absurd member List.not_mem_nil, fun made => by
            rw [ite_self]⟩
      | ok bytes =>
          obtain ⟨front, last, level, records⟩ := Presentation.exists_records_resolutions bytes
          refine ⟨(load surroundings path).run.records ++ front, last, level, fun made => ?_⟩
          rw [List.append_assoc, ← records made, ← records_present]
  | info path format | descriptors path raw | sample format => exact fixed

/-- Every record that a run can make: none is held back. -/
def allRecords (surroundings : Surroundings) (command : Command) : List Record :=
  (execute surroundings (some .trace) command).run.records

/-- Of the records that a bound admits all are made. -/
theorem filter_records_execute (surroundings : Surroundings) (made : Threshold)
    (command : Command) :
    (execute surroundings made command).run.records.filter (fun record =>
        made.admits record.level) =
      (allRecords surroundings command).filter fun record => made.admits record.level := by
  obtain ⟨front, last, level, records⟩ := exists_records_execute surroundings command
  rw [allRecords, records made, records (some .trace), List.filter_append, List.filter_append,
    if_pos (by decide : Threshold.admits (some .trace) .info = true)]
  by_cases admits : made.admits .info = true
  · rw [if_pos admits]
  · have none : last.filter (fun record => made.admits record.level) = [] := by
      refine List.filter_eq_nil_iff.mpr fun record member => ?_
      rwa [level record member]
    rw [if_neg admits, none]
    rfl

/-- The bound on the records that are made, by the number of flags. -/
def madeAt (filter : Threshold) : Nat → Threshold
  | 0 => filter
  | 1 => some .debug
  | _ => some .trace

/-- The records that pass the filter and the bound of a number of flags. -/
def shownAt (filter : Threshold) (flags : Nat) (records : List Record) : List Record :=
  records.filter fun record =>
    filter.admits record.level && (madeAt filter flags).admits record.level

theorem made_withVerbosity (filter : Threshold) (flags : Nat) :
    ((LogBounds.both filter).withVerbosity flags).made = madeAt filter flags := by
  match flags with
  | 0 => rfl
  | 1 => rfl
  | _ + 2 => rfl

theorem shows_withVerbosity (filter : Threshold) (flags : Nat) (level : Level) :
    ((LogBounds.both filter).withVerbosity flags).shows level =
      (filter.admits level && (madeAt filter flags).admits level) := by
  rw [LogBounds.shows, LogBounds.withVerbosity_filter, made_withVerbosity]
  rfl

theorem madeAt_min (filter : Threshold) (flags : Nat) :
    madeAt filter (min flags CommandLine.greatestCount) = madeAt filter flags := by
  match flags with
  | 0 => rfl
  | 1 => rfl
  | more + 2 =>
      have enough : min (more + 2) CommandLine.greatestCount =
          min more 253 + 2 := by
        unfold CommandLine.greatestCount
        omega
      rw [enough]
      rfl

variable {surroundings : Surroundings} {filter : Threshold}

/-- **What is shown** of a run are those of all records that pass both bounds. -/
theorem shown_perform (setting : LogBounds.Setting surroundings.logLevel filter)
    (flags : Nat) (command : Command) :
    (perform surroundings ⟨flags, command⟩).shown =
      shownAt filter flags (allRecords surroundings command) := by
  have both (records : List Record) : shownAt filter flags records =
      (records.filter fun record => (madeAt filter flags).admits record.level).filter
        fun record => filter.admits record.level :=
    List.filter_filter.symm
  rw [both, ← filter_records_execute, ← both, perform, LogBounds.ofVariable_of_setting setting]
  show ((execute _ _ _).run.records.filter fun record =>
    ((LogBounds.both filter).withVerbosity flags).shows record.level) = _
  simp only [shows_withVerbosity, made_withVerbosity]
  rfl

theorem run_replicate {words : List String} {command : Command}
    (setting : LogBounds.Setting surroundings.logLevel filter)
    (reads : CommandLine.read words = .ok ⟨0, command⟩) (flags : Nat) :
    ∃ outcome, run surroundings (List.replicate flags "-v" ++ words) = .ok outcome ∧
      outcome.shown = shownAt filter flags (allRecords surroundings command) := by
  refine ⟨perform surroundings ⟨min flags CommandLine.greatestCount, command⟩, ?_, ?_⟩
  · rw [run, CommandLine.read_replicate_append reads]
    rfl
  · rw [shown_perform setting, shownAt, madeAt_min]
    rfl

/-! ### More flags -/

/-- **One flag more** lets every level through that passed before, except that the first flag holds
the traces back. -/
theorem passes_succ {flags : Nat} {level : Level}
    (kept : ¬ (flags = 0 ∧ filter = some .trace ∧ level = .trace))
    (passes : (filter.admits level && (madeAt filter flags).admits level) = true) :
    (filter.admits level && (madeAt filter (flags + 1)).admits level) = true := by
  match flags with
  | 0 =>
      cases filter with
      | none => cases passes
      | some least =>
          cases least <;> cases level <;> simp_all [madeAt, Threshold.admits, Level.rank]
  | 1 =>
      cases level <;> simp_all [madeAt, Threshold.admits, Level.rank]
  | _ + 2 => exact passes

/-- The variable asks for traces, there are some, and the next flag is the first one. -/
def Withholds (filter : Threshold) (flags : Nat) (records : List Record) : Prop :=
  flags = 0 ∧ filter = some .trace ∧ ∃ record ∈ records, record.level = .trace

/-- **What one flag more shows** has all that was shown before, if it withholds no traces. -/
theorem shownAt_sublist_succ {records : List Record} {flags : Nat}
    (kept : ¬ Withholds filter flags records) :
    (shownAt filter flags records).Sublist (shownAt filter (flags + 1) records) := by
  have twice : shownAt filter flags records =
      (shownAt filter (flags + 1) records).filter fun record =>
        filter.admits record.level && (madeAt filter flags).admits record.level := by
    unfold shownAt
    rw [List.filter_filter]
    refine List.filter_congr fun record member => ?_
    rw [eq_comm, Bool.and_eq_left_iff_imp]
    exact passes_succ fun ⟨first, traces, trace⟩ => kept ⟨first, traces, record, member, trace⟩
  rw [twice]
  exact List.filter_sublist

theorem exists_lost_of_withholds {records : List Record} {flags : Nat}
    (withholds : Withholds filter flags records) :
    ∃ record ∈ shownAt filter flags records, record ∉ shownAt filter (flags + 1) records := by
  obtain ⟨rfl, rfl, record, listed, trace⟩ := withholds
  refine ⟨record, List.mem_filter.mpr ⟨listed, by rw [trace]; rfl⟩, fun shown => ?_⟩
  have passes := (List.mem_filter.mp shown).2
  rw [trace] at passes
  exact absurd passes (by decide)

/-- At `info` no number of flags makes a difference. -/
theorem shownAt_info (flags : Nat) (records : List Record) :
    shownAt (some .info) flags records =
      records.filter fun record => decide (record.level.rank ≤ Level.info.rank) := by
  refine List.filter_congr fun record _ => ?_
  match flags with
  | 0 | 1 | _ + 2 => cases record.level <;> rfl

end Program

/-! ### All numbers of flags -/

open Program

/-- **The filter has the last word.** Every number of flags in front of a command line without any
shows those of all records that pass the filter and the bound of that number. One flag more shows
all of them again, except that the first flag takes the traces away that the log variable asked for.
Without the variable no number of flags shows anything that is less weighty than `info`. -/
theorem shown_by_verbosity {surroundings : Surroundings} {filter : Threshold} {words : List String}
    {command : Command} (setting : LogBounds.Setting surroundings.logLevel filter)
    (reads : CommandLine.read words = .ok ⟨0, command⟩) :
    ∃ records, (execute surroundings (some .trace) command).run.records = records ∧
      ∀ flags, ∃ fewer more,
        run surroundings (List.replicate flags "-v" ++ words) = .ok fewer ∧
        run surroundings (List.replicate (flags + 1) "-v" ++ words) = .ok more ∧
        fewer.shown = records.filter (fun record =>
          filter.admits record.level && (madeAt filter flags).admits record.level) ∧
        (¬ Withholds filter flags records → fewer.shown.Sublist more.shown) ∧
        (Withholds filter flags records → ∃ record ∈ fewer.shown, record ∉ more.shown) ∧
        (surroundings.logLevel = none →
          fewer.shown = records.filter fun record => record.level.rank ≤ Level.info.rank) := by
  refine ⟨allRecords surroundings command, rfl, fun flags => ?_⟩
  obtain ⟨fewer, ran, shown⟩ := run_replicate setting reads flags
  obtain ⟨more, ranAgain, also⟩ := run_replicate setting reads (flags + 1)
  refine ⟨fewer, more, ran, ranAgain, shown, ?_, ?_, ?_⟩
  · intro kept
    rw [shown, also]
    exact shownAt_sublist_succ kept
  · intro withholds
    rw [shown, also]
    exact exists_lost_of_withholds withholds
  · intro unset
    rw [unset] at setting
    cases setting
    rw [shown]
    exact shownAt_info flags _

/-- The slots of the sample with all traces asked for: the first flag takes four of them away. -/
theorem shown_by_verbosity_traced :
    LogBounds.Setting (sampleTwice.logging (some "trace")).logLevel (some .trace) ∧
      CommandLine.read ["descriptors", "screen.bin"] = .ok ⟨0, .descriptors "screen.bin" false⟩ ∧
      ∃ fewer more,
        run (sampleTwice.logging (some "trace")) ["descriptors", "screen.bin"] = .ok fewer ∧
        run (sampleTwice.logging (some "trace")) ["-v", "descriptors", "screen.bin"] = .ok more ∧
        ∃ record ∈ fewer.shown, record ∉ more.shown := by
  have setting : LogBounds.Setting (sampleTwice.logging (some "trace")).logLevel (some .trace) :=
    .named (by decide +kernel)
  have reads : CommandLine.read ["descriptors", "screen.bin"] =
      .ok ⟨0, .descriptors "screen.bin" false⟩ := by decide +kernel
  obtain ⟨records, made, shown⟩ := shown_by_verbosity setting reads
  obtain ⟨fewer, more, ran, ranAgain, _, _, lost, _⟩ := shown 0
  have traced : records.any (fun record => decide (record.level = .trace)) = true := by
    rw [← made]
    decide +kernel
  obtain ⟨record, listed, trace⟩ := List.any_eq_true.mp traced
  exact ⟨setting, reads, fewer, more, ran, ranAgain,
    lost ⟨rfl, rfl, record, listed, of_decide_eq_true trace⟩⟩

/-- Without the log variable one flag shows nothing of the record for debugging that the sample
command begins with, and with the variable at `trace` it takes the trace of a slot away. -/
theorem verbosity_below_filter :
    (∃ outcome, run (sampleTwice.logging none) ["-v", "sample"] = .ok outcome ∧
      outcome.shown = [] ∧
      ⟨.debug, "Decoding built-in sample (256 bytes)"⟩ ∈
        (execute (sampleTwice.logging none) (some .debug) (.sample .text)).run.records) ∧
    ∃ fewer more,
      run (sampleTwice.logging (some "trace")) ["descriptors", "-"] = .ok fewer ∧
      run (sampleTwice.logging (some "trace")) ["-v", "descriptors", "-"] = .ok more ∧
      ⟨.trace, "Descriptor type 0x000000FF"⟩ ∈ fewer.shown ∧
      ⟨.trace, "Descriptor type 0x000000FF"⟩ ∉ more.shown := by
  have answer {surroundings : Surroundings} {words : List String} {invocation : Invocation}
      (reads : CommandLine.read words = .ok invocation) :
      run surroundings words = .ok (perform surroundings invocation) := by
    rw [run, reads]
    rfl
  refine ⟨⟨perform (sampleTwice.logging none) ⟨1, .sample .text⟩, answer (by decide +kernel),
    by decide +kernel, by decide +kernel⟩,
    perform (sampleTwice.logging (some "trace")) ⟨0, .descriptors "-" false⟩,
    perform (sampleTwice.logging (some "trace")) ⟨1, .descriptors "-" false⟩,
    answer (by decide +kernel), answer (by decide +kernel), by decide +kernel, by decide +kernel⟩

end Edid
