/-
**Where a path leads.** From a folder only its own files can be reached, and only by their names:
in front of the name a path may stay where it is, any number of times, and nothing may follow it.
Whatever goes up leaves the folder for good, and so does a path that begins at the root, since what
the directories above hold is not known.

* `pieces_eq_splitOn`: a path is cut at its strokes;
* `step_outside`, `follow_outside`: outside of the folder no part leads to a file;
* `follow_eq_file_iff`, `read_eq_ok_iff`: what is read is the file that the last part names;
* `leadsTo_pathTo`: every file is read at a path with its name;
* `run_in_folder`: a run in a folder ends with what the file at its path makes of its command;
* `run_of_name`: a file is not taken for the standard input, whatever its name.
-/

import Edid.Input.Folder
import Edid.Proofs.Faults

namespace Edid

namespace Folder

/-! ### The parts of a path -/

/-- **A path is cut at its strokes.** -/
theorem pieces_eq_splitOn (path : List Char) : pieces path = path.splitOn '/' := by
  induction path with
  | nil => rfl
  | cons character rest ih =>
      rw [pieces, ih, List.splitOn_cons_eq_if_modifyHead]
      simp only [beq_iff_eq]
      by_cases stroke : character = '/'
      · rw [if_pos stroke, if_pos stroke]
      · rw [if_neg stroke, if_neg stroke]
        cases cut : rest.splitOn '/' with
        | nil => exact absurd cut (List.splitOn_ne_nil _ _)
        | cons first others => rfl

/-- A name is the only part of itself. -/
theorem parts_of_name {name : List Char} (filled : name ≠ []) (whole : '/' ∉ name) :
    parts name = [String.ofList name] := by
  have single : pieces name = [name] := by
    rw [pieces_eq_splitOn, List.splitOn_eq_singleton whole]
  have ends : name.getLast? ≠ some '/' := fun last => whole (List.mem_of_getLast? last)
  rw [parts, single, if_neg ends, List.append_nil]
  cases name with
  | nil => exact absurd rfl filled
  | cons first rest => rfl

/-- A path may begin with a part that stays. -/
theorem parts_dot {path : List Char} (filled : path ≠ []) :
    parts ('.' :: '/' :: path) = "." :: parts path := by
  have apart : pieces ('.' :: '/' :: path) = ['.'] :: pieces path := by
    rw [pieces, if_neg (by decide), pieces, if_pos rfl]
  have last : ('.' :: '/' :: path).getLast? = path.getLast? := by
    cases path with
    | nil => exact absurd rfl filled
    | cons first rest => rfl
  rw [parts, apart, last]
  rfl

/-! ### Following a path -/

/-- A place that is neither the folder nor a file in it. -/
def Outside : Place → Prop
  | .directory above => 0 < above
  | .root => True
  | .file _ => False

/-- A name that the folder has a file of. -/
structure Names (folder : Folder) (name : String) (content : Bytes) : Prop where
  still : name ≠ "."
  down : name ≠ ".."
  short : name.utf8ByteSize ≤ longestName
  held : folder.lookup name = some content

variable {folder : Folder} {place next : Place} {part : String} {rest : List String}
  {content : Bytes}

/-- **Outside of the folder** a part leads nowhere else. -/
theorem step_outside (outside : Outside place) (stepped : step folder place part = .ok next) :
    Outside next := by
  cases place with
  | file content => exact outside.elim
  | root =>
      rw [step] at stepped
      split_ifs at stepped
      obtain rfl := Except.ok.inj stepped
      exact outside
  | directory above =>
      have away : above ≠ 0 := Nat.ne_of_gt outside
      rw [step] at stepped
      split_ifs at stepped
      · obtain rfl := Except.ok.inj stepped
        exact outside
      · obtain rfl := Except.ok.inj stepped
        exact Nat.succ_pos above

/-- **Outside of the folder** no path leads back into it. -/
theorem follow_outside (outside : Outside place) (followed : follow folder place rest = .ok next) :
    Outside next := by
  induction rest generalizing place with
  | nil =>
      obtain rfl := Except.ok.inj followed
      exact outside
  | cons part rest ih =>
      rw [follow] at followed
      split at followed
      · cases followed
      · next stepped => exact ih (step_outside outside stepped) followed

/-- What a part that is no dot leads to from the folder. -/
theorem step_of_name (still : part ≠ ".") (down : part ≠ "..")
    (short : part.utf8ByteSize ≤ longestName) :
    step folder (.directory 0) part =
      match folder.lookup part with
      | some content => .ok (.file content)
      | none => .error .notFound :=
  (if_neg still).trans <| (if_neg down).trans <|
    (if_neg (Nat.not_lt_of_le short)).trans (if_pos rfl)

theorem Names.step_eq (names : Names folder part content) :
    step folder (.directory 0) part = .ok (.file content) := by
  rw [step_of_name names.still names.down names.short, names.held]

/-- **A part from the folder** stays, goes up, or names a file. -/
theorem step_cases (stepped : step folder (.directory 0) part = .ok next) :
    (part = "." ∧ next = .directory 0) ∨ (part = ".." ∧ next = .directory 1) ∨
      ∃ content, next = .file content ∧ Names folder part content := by
  by_cases still : part = "."
  · rw [step, if_pos still] at stepped
    exact Or.inl ⟨still, (Except.ok.inj stepped).symm⟩
  by_cases down : part = ".."
  · rw [step, if_neg still, if_pos down] at stepped
    exact Or.inr (Or.inl ⟨down, (Except.ok.inj stepped).symm⟩)
  by_cases long : longestName < part.utf8ByteSize
  · rw [step, if_neg still, if_neg down, if_pos long] at stepped
    cases stepped
  have short := Nat.le_of_not_lt long
  rw [step_of_name still down short] at stepped
  split at stepped
  · next content held =>
    exact Or.inr (Or.inr ⟨content, (Except.ok.inj stepped).symm, still, down, short, held⟩)
  · cases stepped

/-- **What is reached from the folder** is a file that the last part names; every part before it
stays. -/
theorem follow_eq_file_iff :
    follow folder (.directory 0) rest = .ok (.file content) ↔
      ∃ count name, rest = List.replicate count "." ++ [name] ∧ Names folder name content := by
  constructor
  · intro followed
    induction rest with
    | nil => cases Except.ok.inj followed
    | cons part rest ih =>
        rw [follow] at followed
        split at followed
        · cases followed
        · next place stepped =>
          rcases step_cases stepped with ⟨rfl, rfl⟩ | ⟨-, rfl⟩ | ⟨held, rfl, names⟩
          · obtain ⟨count, name, rfl, names⟩ := ih followed
            exact ⟨count + 1, name, rfl, names⟩
          · have outside : Outside (.directory 1) := Nat.one_pos
            exact (follow_outside outside followed).elim
          · cases rest with
            | nil =>
                obtain rfl := Place.file.inj (Except.ok.inj followed)
                exact ⟨0, part, rfl, names⟩
            | cons other others => cases followed
  · rintro ⟨count, name, rfl, names⟩
    induction count with
    | zero =>
        show follow folder (.directory 0) [name] = _
        rw [follow, names.step_eq]
        rfl
    | succ count ih => exact ih

/-! ### Reading a file -/

/-- A path from the folder to one of its files. -/
structure LeadsTo (folder : Folder) (path : String) (content : Bytes) : Prop where
  short : path.utf8ByteSize ≤ longestPath
  relative : path.toList.head? ≠ some '/'
  named : ∃ count name, parts path.toList = List.replicate count "." ++ [name] ∧
    Names folder name content

theorem LeadsTo.ne_nil {path : String} (leads : LeadsTo folder path content) :
    path.toList ≠ [] := by
  intro none
  obtain ⟨count, name, cut, -⟩ := leads.named
  rw [none] at cut
  exact List.append_ne_nil_of_right_ne_nil _ (List.cons_ne_nil _ _) cut.symm

/-- What is read at a path that is neither empty nor too long. -/
theorem read_eq {path : String} (filled : path.toList ≠ [])
    (short : path.utf8ByteSize ≤ longestPath) :
    read folder path =
      match follow folder (if path.toList.head? = some '/' then .root else .directory 0)
        (parts path.toList) with
      | .error cause => .error cause
      | .ok (.file content) => .ok content
      | .ok _ => .error .isADirectory :=
  (if_neg filled).trans (if_neg (Nat.not_lt_of_le short))

/-- **What is read** is a file of the folder, at a path that leads to it. -/
theorem read_eq_ok_iff {path : String} :
    read folder path = .ok content ↔ LeadsTo folder path content := by
  constructor
  · intro found
    by_cases none : path.toList = []
    · rw [read, if_pos none] at found
      cases found
    by_cases long : longestPath < path.utf8ByteSize
    · rw [read, if_neg none, if_pos long] at found
      cases found
    have short := Nat.le_of_not_lt long
    rw [read_eq none short] at found
    by_cases rooted : path.toList.head? = some '/'
    · rw [if_pos rooted] at found
      split at found
      · cases found
      · next followed =>
        have outside : Outside .root := trivial
        exact (follow_outside outside followed).elim
      · cases found
    · rw [if_neg rooted] at found
      split at found
      · cases found
      · next followed =>
        obtain rfl := Except.ok.inj found
        exact ⟨short, rooted, follow_eq_file_iff.mp followed⟩
      · cases found
  · intro leads
    rw [read_eq leads.ne_nil leads.short, if_neg leads.relative, follow_eq_file_iff.mpr leads.named]

/-- A path to a name that first stays where it is some number of times. -/
def pathTo (name : String) : Nat → String
  | 0 => name
  | count + 1 => "./" ++ pathTo name count

theorem toList_pathTo_succ (name : String) (count : Nat) :
    (pathTo name (count + 1)).toList = '.' :: '/' :: (pathTo name count).toList :=
  String.toList_append

section Paths

variable {name : String} (filled : name.toList ≠ []) (whole : '/' ∉ name.toList)

include filled

theorem pathTo_ne_nil (count : Nat) : (pathTo name count).toList ≠ [] := by
  cases count with
  | zero => exact filled
  | succ count =>
      rw [toList_pathTo_succ]
      exact List.cons_ne_nil _ _

include whole

theorem parts_pathTo (count : Nat) :
    parts (pathTo name count).toList = List.replicate count "." ++ [name] := by
  induction count with
  | zero => exact (parts_of_name filled whole).trans (by rw [String.ofList_toList]; rfl)
  | succ count ih =>
      rw [toList_pathTo_succ, parts_dot (pathTo_ne_nil filled count), ih]
      rfl

/-- **Every file of the folder** can be reached by its name, at each path that only stays before
it. -/
theorem leadsTo_pathTo (names : Names folder name content) {count : Nat}
    (short : (pathTo name count).utf8ByteSize ≤ longestPath) :
    LeadsTo folder (pathTo name count) content where
  short := short
  relative := by
    cases count with
    | zero => exact fun first => whole (List.mem_of_head? first)
    | succ count =>
        rw [toList_pathTo_succ]
        exact fun first => absurd (Option.some.inj first) (by decide)
  named := ⟨count, name, parts_pathTo filled whole count, names⟩

end Paths

/-! ### Runs in a folder -/

/-- What the program finds around it in a folder. -/
def surroundings (folder : Folder) (logLevel : Option String) (input : Bytes) :
    Program.Surroundings :=
  { logLevel, file := folder.read, input }

theorem contents_surroundings {path : String} (folder : Folder) (logLevel : Option String)
    (input : Bytes) (elsewhere : path ≠ Program.inputPath) :
    Program.contents (folder.surroundings logLevel input) path = folder.read path :=
  if_neg elsewhere

end Folder

/-- **A run in a folder** ends with what the file at its path makes of its command, and without a
file there it exits with 1 and prints nothing. So it is a success exactly when its path leads to a
file that decodes. -/
theorem run_in_folder {folder : Folder} {arguments : List String} {verbosity : Nat}
    {command : Command} {path : String} (logLevel : Option String) (input : Bytes)
    (reads : CommandLine.read arguments = .ok ⟨verbosity, command⟩)
    (asks : command.path? = some path) (elsewhere : path ≠ Program.inputPath) :
    ∃ outcome, Program.run (folder.surroundings logLevel input) arguments = .ok outcome ∧
      (∀ content, Folder.LeadsTo folder path content →
        outcome.result = Program.resultOf content command) ∧
      (∀ cause, folder.read path = .error cause →
        outcome.result = ⟨1, "", some (.input (.unreadable path cause))⟩) ∧
      (outcome.exitCode = 0 ↔ ∃ content bytes, Folder.LeadsTo folder path content ∧
        (Contents.decode content).run.value = .ok bytes) := by
  have found := folder.contents_surroundings logLevel input elsewhere
  cases there : folder.read path with
  | ok content =>
      rw [there] at found
      obtain ⟨outcome, ran, result⟩ := run_of_contents reads asks found
      have only : ∀ other, Folder.LeadsTo folder path other → other = content := by
        intro other leads
        exact Except.ok.inj ((Folder.read_eq_ok_iff.mpr leads).symm.trans there)
      refine ⟨outcome, ran, fun other leads => ?_, nofun, ?_⟩
      · rw [only other leads, result]
      · show outcome.result.exitCode = 0 ↔ _
        rw [result, Program.exitCode_resultOf]
        constructor
        · rintro ⟨bytes, decoded⟩
          exact ⟨content, bytes, Folder.read_eq_ok_iff.mp there, decoded⟩
        · rintro ⟨other, bytes, leads, decoded⟩
          exact ⟨bytes, only other leads ▸ decoded⟩
  | error cause =>
      rw [there] at found
      obtain ⟨outcome, ran, result, -⟩ := run_of_unreadable reads asks found
      have none : ∀ content, ¬ Folder.LeadsTo folder path content := by
        intro content leads
        cases (Folder.read_eq_ok_iff.mpr leads).symm.trans there
      refine ⟨outcome, ran, fun content leads => absurd leads (none content), ?_, ?_⟩
      · intro other same
        rw [result, Except.error.inj same]
      · show outcome.result.exitCode = 0 ↔ _
        rw [result]
        refine iff_of_false Nat.one_ne_zero ?_
        rintro ⟨content, bytes, leads, -⟩
        exact none content leads

/-- **A file of the folder** is read at a path that first stays, even one with the name that stands
for the standard input. -/
theorem run_of_name {folder : Folder} {arguments : List String} {verbosity count : Nat}
    {command : Command} {name : String} {content : Bytes} (logLevel : Option String) (input : Bytes)
    (names : folder.Names name content) (filled : name.toList ≠ []) (whole : '/' ∉ name.toList)
    (short : (Folder.pathTo name (count + 1)).utf8ByteSize ≤ Folder.longestPath)
    (reads : CommandLine.read arguments = .ok ⟨verbosity, command⟩)
    (asks : command.path? = some (Folder.pathTo name (count + 1))) :
    ∃ outcome, Program.run (folder.surroundings logLevel input) arguments = .ok outcome ∧
      outcome.result = Program.resultOf content command := by
  have elsewhere : Folder.pathTo name (count + 1) ≠ Program.inputPath := by
    intro same
    have first := congrArg (fun path => path.toList.head?) same
    rw [Folder.toList_pathTo_succ] at first
    exact absurd (Option.some.inj first) (by decide)
  obtain ⟨outcome, ran, results, -⟩ := run_in_folder logLevel input reads asks elsewhere
  exact ⟨outcome, ran, results content (Folder.leadsTo_pathTo filled whole names short)⟩

end Edid
