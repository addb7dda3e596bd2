/-
**Reading a command line.** Before the name of a command only the general options are known. A
log level asked for after the name replaces one asked for before it, and neither counts past 255.
-/

import Edid.CommandLine.Arguments

namespace Edid

namespace CommandLine

/-- The names of the commands. -/
inductive CommandName where
  | info | resolutions | descriptors | sample
deriving DecidableEq

namespace CommandName

def ofText? (text : List Char) : Option CommandName :=
  if text = "info".toList then some info
  else if text = "resolutions".toList then some resolutions
  else if text = "descriptors".toList then some descriptors
  else if text = "sample".toList then some sample
  else none

def signature : CommandName → Arguments.Signature
  | info => ⟨true, true, false⟩
  | resolutions => ⟨true, false, false⟩
  | descriptors => ⟨true, false, true⟩
  | sample => ⟨false, true, false⟩

/-- The command that the arguments of a name make up. -/
def command (name : CommandName) (arguments : Arguments.Progress) : Command :=
  let input := String.ofList (arguments.input.getD [])
  let format := arguments.format.getD .text
  match name with
  | info => .info input format
  | resolutions => .resolutions input
  | descriptors => .descriptors input arguments.raw
  | sample => .sample format

end CommandName

/-- Whether a word is the name of the help command. -/
def isHelpName (word : List Char) : Bool := word == "help".toList

def greatestCount : Nat := 255

/-- Reads the words after the help command: the name of at most one command. -/
def readHelp : List (List Char) → Refusal
  | [] => .help
  | [word] =>
      if (CommandName.ofText? word).isSome ∨ isHelpName word then .help else .unknownCommand
  | _ => .unknownCommand

/-- Reads the words after the name of a command, where `before` counts the flags before it. -/
def readCommand (before : Nat) (name : CommandName) (words : List (List Char)) :
    Except Refusal Invocation := do
  let arguments ← Arguments.read name.signature words
  let count := if 0 < arguments.verbosity then arguments.verbosity else before
  return ⟨min count greatestCount, name.command arguments⟩

/-- Counts the letters of a cluster before the name of a command. -/
def countCluster (before : Nat) : List Char → Except Refusal Nat
  | [] => .ok before
  | letter :: rest =>
      if letter = 'v' then countCluster (before + 1) rest
      else if letter = 'h' then .error .help
      else if letter = 'V' then .error .version
      else .error .unknownArgument

/-- Counts a long option before the name of a command. -/
def countLong (before : Nat) (name : List Char) (attached : Option (List Char)) :
    Except Refusal Nat :=
  let flag (answer : Except Refusal Nat) : Except Refusal Nat :=
    if attached.isSome then .error .surplusValue else answer
  if name = "verbose".toList then flag (.ok (before + 1))
  else if name = "help".toList then flag (.error .help)
  else if name = "version".toList then flag (.error .version)
  else .error .unknownArgument

def missing (before : Nat) : Refusal := if before = 0 then .noArguments else .noCommand

/-- Reads the words after a double dash that stands before any command: a command cannot come
there any more. -/
def readEnded (before : Nat) : List (List Char) → Refusal
  | [] => missing before
  | word :: _ =>
      if (CommandName.ofText? word).isSome ∨ isHelpName word then .unknownArgument
      else .unknownCommand

/-- Reads the words of a line, where `before` counts the flags so far. -/
def readFrom (before : Nat) : List (List Char) → Except Refusal Invocation
  | [] => .error (missing before)
  | word :: rest =>
      match Word.classify word with
      | .endOfOptions => .error (readEnded before rest)
      | .long name attached => do
          let count ← countLong before name attached
          readFrom count rest
      | .cluster letters => do
          let count ← countCluster before letters
          readFrom count rest
      | .plain =>
          match CommandName.ofText? word with
          | some name => readCommand before name rest
          | none => .error (if isHelpName word then readHelp rest else .unknownCommand)

/-- Reads a command line, without the name of the program. -/
def read (arguments : List String) : Except Refusal Invocation :=
  readFrom 0 (arguments.map String.toList)

end CommandLine

end Edid
