/-
**Which records of a run are shown.** Two bounds limit the log. A variable of the environment sets
a filter, and at the start also which records are made at all; flags on the command line move the
second bound and never the first. A record is shown if it passes both.

The variable holds names, with commas between them and blanks around them. The name of a level is
meant for every program; any other name is meant for the programs whose own names begin with it,
and asks for all of their records.

* `ofVariable_unset`: without the variable both bounds stand at `info`;
* `withVerbosity_filter`: flags leave the filter alone.
-/

import Edid.Log
import Edid.Text.Blank

namespace Edid

/-- The two bounds of the log. -/
structure LogBounds where
  /-- What is shown of the records that are made. -/
  filter : Threshold
  /-- Which records are made. -/
  made : Threshold
deriving DecidableEq

namespace LogBounds

def shows (bounds : LogBounds) (level : Level) : Bool :=
  bounds.filter.admits level && bounds.made.admits level

def both (threshold : Threshold) : LogBounds := ⟨threshold, threshold⟩

/-! ### The variable -/

/-- The level of a name, whatever its case; the name `off` stands for none. -/
def threshold? (name : List Char) : Option Threshold :=
  let lower := name.map Char.toLower
  if lower = "off".toList then some none
  else if lower = "error".toList then some (some .error)
  else if lower = "warn".toList then some (some .warn)
  else if lower = "info".toList then some (some .info)
  else if lower = "debug".toList then some (some .debug)
  else if lower = "trace".toList then some (some .trace)
  else none

def pieces : List Char → List (List Char)
  | [] => [[]]
  | ',' :: rest => [] :: pieces rest
  | character :: rest =>
      match pieces rest with
      | [] => [[character]]
      | piece :: later => (character :: piece) :: later

/-- The names in a text: its pieces without the blanks around them, where anything is left. -/
def names (text : String) : List (List Char) :=
  ((pieces text.toList).map Blank.trimmed).filter fun name => !name.isEmpty

def programName : List Char := "redid".toList

/-- The bounds that names set. Of several levels the last one counts. A name that is no level lets
records of all levels be made, and shows them if it is meant for this program. -/
def ofNames (wanted : List (List Char)) : LogBounds :=
  let general := (wanted.filterMap threshold?).getLast?.getD none
  let programs := wanted.filter fun name => (threshold? name).isNone
  { filter := if programs.any (·.isPrefixOf programName) then some .trace else general
    made := if programs.isEmpty then general else some .trace }

/-- The bounds that the variable sets. Without it they stand at `info`, and at `error` when it
holds no name. -/
def ofVariable : Option String → LogBounds
  | none => both (some .info)
  | some text =>
      let wanted := names text
      if wanted.isEmpty then both (some .error) else ofNames wanted

/-- Without the variable both bounds stand at `info`. -/
theorem ofVariable_unset : ofVariable none = both (some .info) := rfl

/-- The name of a level, alone, sets both bounds. -/
theorem ofNames_singleton (name : List Char) (threshold : Threshold)
    (level : threshold? name = some threshold) : ofNames [name] = both threshold := by
  simp [ofNames, both, level]

/-! ### The flags -/

def withVerbosity (bounds : LogBounds) : Nat → LogBounds
  | 0 => bounds
  | 1 => { bounds with made := some .debug }
  | _ => { bounds with made := some .trace }

theorem withVerbosity_filter (bounds : LogBounds) (count : Nat) :
    (bounds.withVerbosity count).filter = bounds.filter := by
  match count with
  | 0 => rfl
  | 1 => rfl
  | _ + 2 => rfl

end LogBounds

end Edid
