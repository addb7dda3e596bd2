/-
**The program.** A command line, the log variable of the environment, the files and the standard
input decide the exit code, the text printed, and the lines of the log and the error.
-/

import Edid.CommandLine.Parser
import Edid.Input.Contents
import Edid.LogBounds
import Edid.Sample

namespace Edid

namespace Program

/-! ### Running a command -/

/-- What the program finds around it. -/
structure Surroundings where
  logLevel : Option String
  file : String → Except FileError Bytes
  input : Bytes

/-- Why a command failed. -/
inductive Failure where
  | input (failure : InputError)
  | read (failure : ReadError)
deriving DecidableEq

namespace Failure

def text : Failure → String
  | input (.unreadable path cause) =>
      "Io \x7b path: " ++ Quoted.quoted path ++ ", source: Os \x7b code: " ++
        toString cause.code ++ ", kind: " ++ cause.kind ++ ", message: " ++
        Quoted.quoted cause.reason ++ " \x7d \x7d"
  | input (.invalidHex fault) =>
      "InvalidHex \x7b position: " ++ toString fault.position ++ ", token: " ++
        Quoted.quoted fault.token ++ " \x7d"
  | input (.tooShort length) => "TooShort \x7b len: " ++ toString length ++ " \x7d"
  | read (.outOfRange offset length available) =>
      "OutOfRange \x7b offset: " ++ toString offset ++ ", len: " ++ toString length ++
        ", available: " ++ toString available ++ " \x7d"
  | read (.malformedBlock offset) =>
      "MalformedDescriptor \x7b offset: " ++ toString offset ++ " \x7d"

end Failure

/-- A command under way. -/
abbrev Running := ExceptT Failure Console

def inputPath : String := "-"

def contents (surroundings : Surroundings) (path : String) : Except FileError Bytes :=
  if path = inputPath then .ok surroundings.input else surroundings.file path

def load (surroundings : Surroundings) (path : String) : Running Bytes :=
  ExceptT.mk ((·.mapError Failure.input) <$>
    Console.ofLogged (Contents.load path (contents surroundings path)).run)

def present (printing : Presentation.Printing Unit) : Running Unit :=
  ExceptT.mk ((·.mapError Failure.read) <$> printing.run)

def execute (surroundings : Surroundings) (made : Threshold) : Command → Running Unit
  | .info path format => do
      let bytes ← load surroundings path
      present (Presentation.summary format bytes)
  | .resolutions path => do
      let bytes ← load surroundings path
      present (Presentation.resolutions made bytes)
  | .descriptors path raw => do
      let bytes ← load surroundings path
      present (Presentation.descriptors raw bytes)
  | .sample format => do
      Console.note .debug
        ("Decoding built-in sample (" ++ toString sample.length ++ " bytes)")
      present (Presentation.summary format sample)

/-! ### What is left of a run -/

/-- What a run leaves behind. -/
structure Outcome where
  exitCode : Nat
  printed : String
  shown : List Record
  failure : Option Failure

namespace Outcome

/-- The lines on the standard error: the log, then the failure. -/
def errorLines (outcome : Outcome) : List String :=
  outcome.shown.map Record.line ++
    (outcome.failure.map fun failure => "Error: " ++ failure.text).toList

end Outcome

def outcome (bounds : LogBounds) (finished : Console (Except Failure Unit)) : Outcome :=
  let failure := match finished.value with
    | .ok _ => none
    | .error failure => some failure
  { exitCode := if failure.isSome then 1 else 0
    printed := finished.printed
    shown := finished.records.filter fun record => bounds.shows record.level
    failure := failure }

def perform (surroundings : Surroundings) (invocation : Invocation) : Outcome :=
  let bounds := (LogBounds.ofVariable surroundings.logLevel).withVerbosity invocation.verbosity
  outcome bounds (execute surroundings bounds.made invocation.command).run

def versionLine : String := "redid 0.1.0\n"

def run (surroundings : Surroundings) (arguments : List String) : Except Refusal Outcome :=
  (CommandLine.read arguments).map (perform surroundings)

end Program

end Edid
