/-
**The command line program.** Reads what the arguments ask for, hands it to the pure program, and
writes down what that leaves behind.
-/

import Edid.Program

namespace Edid.Shell

/-- The cause of a failed read, by the number the system gave; some calls give it negated. -/
def causeOfCode (code : UInt32) : FileError :=
  let number := if code < 0x80000000 then code else 0 - code
  if number = 2 then .notFound
  else if number = 13 then .permissionDenied
  else if number = 20 then .notADirectory
  else if number = 21 then .isADirectory
  else if number = 36 then .nameTooLong
  else .inputOutput

def causeOf : IO.Error → FileError
  | .noFileOrDirectory _ code _ => causeOfCode code
  | .noSuchThing _ code _ => causeOfCode code
  | .permissionDenied _ code _ => causeOfCode code
  | .inappropriateType _ code _ => causeOfCode code
  | .invalidArgument _ code _ => causeOfCode code
  | _ => .inputOutput

def readFile (path : String) : IO (Except FileError Bytes) := do
  try
    let contents ← IO.FS.readBinFile path
    return .ok contents.toList
  catch failure => return .error (causeOf failure)

def report (refusal : Refusal) : IO Unit := do
  match refusal with
  | .version => IO.print Program.versionLine
  | .help => IO.print "Usage: redid [-v] [info|resolutions|descriptors] INPUT | sample | help\n"
  | _ => IO.eprint "error: the arguments make up no command; try --help\n"

/-- Carries out an invocation on the files and the standard input of the system. -/
def perform (logLevel : Option String) (invocation : Invocation) : IO UInt32 := do
  let path := invocation.command.path?.getD ""
  let isInput := path == Program.inputPath
  let input ← if isInput then (← IO.getStdin).readBinToEnd else pure ByteArray.empty
  let file ← if isInput then pure (.ok []) else readFile path
  let outcome := Program.perform ⟨logLevel, fun _ => file, input.toList⟩ invocation
  IO.print outcome.printed
  outcome.errorLines.forM fun line => IO.eprintln line
  return outcome.exitCode.toUInt32

end Edid.Shell

def main (arguments : List String) : IO UInt32 := do
  let logLevel ← IO.getEnv "RUST_LOG"
  match Edid.CommandLine.read arguments with
  | .error refusal => do
      Edid.Shell.report refusal
      return refusal.exitCode.toUInt32
  | .ok invocation => Edid.Shell.perform logLevel invocation
