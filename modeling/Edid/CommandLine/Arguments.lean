/-
**Arguments of a command.** After the name of a command its options and its input may come in any
order. A value that stands in a word of its own is taken first and checked only when the next
option or input has been recognised, or at the end; a word that is not recognised is refused
without that check. A value attached to its option is checked at once.

Each command takes the same few things or a part of them, which its `Signature` lists.
-/

import Edid.CommandLine.Invocation
import Edid.CommandLine.Word

namespace Edid.Arguments

/-- What a command takes. -/
structure Signature where
  input : Bool
  format : Bool
  raw : Bool
deriving DecidableEq

/-- A value that was taken and is not checked yet. -/
inductive Pending where
  /-- The format option, which may still wait for its value. -/
  | format (value : Option (List Char))
  | input (path : List Char)
deriving DecidableEq

/-- What is known of a command while its arguments are read. -/
structure Progress where
  verbosity : Nat
  format : Option Format
  raw : Bool
  /-- The input, once it is checked. -/
  input : Option (List Char)
  hasInput : Bool
  /-- The value that is still to be checked. -/
  pending : Option Pending
  optionsEnded : Bool
deriving DecidableEq

def start : Progress := ⟨0, none, false, none, false, none, false⟩

def format? (name : List Char) : Option Format :=
  if name = ['t', 'e', 'x', 't'] then some .text
  else if name = ['t', 'o', 'm', 'l'] then some .toml
  else none

namespace Progress

/-- Sets the format to the one of a name; a second format is refused whatever its name. -/
def setFormat (progress : Progress) (name : List Char) : Except Refusal Progress :=
  if progress.format.isSome then .error .repeatedOption
  else
    match format? name with
    | none => .error .invalidValue
    | some format => .ok { progress with format := some format }

def settle (progress : Progress) : Except Refusal Progress :=
  let settled := { progress with pending := none }
  match progress.pending with
  | none => .ok settled
  | some (.format none) => .error .invalidValue
  | some (.format (some name)) => settled.setFormat name
  | some (.input []) => .error .invalidValue
  | some (.input path) => .ok { settled with input := some path }

def takeVerbose (progress : Progress) : Except Refusal Progress := do
  let settled ← progress.settle
  return { settled with verbosity := settled.verbosity + 1 }

def takeRaw (progress : Progress) : Except Refusal Progress := do
  let settled ← progress.settle
  if settled.raw then throw .repeatedOption
  return { settled with raw := true }

/-- Takes the format option, with its value if that is attached. -/
def takeFormat (progress : Progress) (attached : Option (List Char)) :
    Except Refusal Progress := do
  let settled ← progress.settle
  match attached with
  | some name => settled.setFormat name
  | none => return { settled with pending := some (.format none) }

def takeHelp (progress : Progress) : Except Refusal Progress := do
  let _ ← progress.settle
  throw .help

def takeInput (signature : Signature) (progress : Progress) (path : List Char) :
    Except Refusal Progress := do
  if signature.input ∧ ¬progress.hasInput then
    let settled ← progress.settle
    return { settled with hasInput := true, pending := some (.input path) }
  else throw .unknownArgument

def takeLong (signature : Signature) (progress : Progress) (name : List Char)
    (attached : Option (List Char)) : Except Refusal Progress :=
  if name = "verbose".toList then
    if attached.isSome then .error .surplusValue else progress.takeVerbose
  else if name = "help".toList then
    if attached.isSome then .error .surplusValue else progress.takeHelp
  else if signature.raw ∧ name = "raw".toList then
    if attached.isSome then .error .surplusValue else progress.takeRaw
  else if signature.format ∧ name = "format".toList then progress.takeFormat attached
  else .error .unknownArgument

/-- The value that the rest of a cluster attaches to a short option, if there is a rest; an
equals sign before it is left out. -/
def attachedValue : List Char → Option (List Char)
  | [] => none
  | '=' :: rest => some rest
  | rest => some rest

/-- Takes the letters of a cluster one after the other, up to one that takes the rest as its
value. -/
def takeCluster (signature : Signature) (progress : Progress) :
    List Char → Except Refusal Progress
  | [] => .ok progress
  | letter :: rest =>
      if letter = 'v' then do
        let next ← progress.takeVerbose
        takeCluster signature next rest
      else if letter = 'h' then progress.takeHelp
      else if signature.format ∧ letter = 'f' then progress.takeFormat (attachedValue rest)
      else .error .unknownArgument

/-- Takes a word that is no option: the value that the format waits for, or the input. -/
def takePlain (signature : Signature) (progress : Progress) (word : List Char) :
    Except Refusal Progress :=
  if progress.pending = some (.format none) then
    .ok { progress with pending := some (.format (some word)) }
  else progress.takeInput signature word

def take (signature : Signature) (progress : Progress) (word : List Char) :
    Except Refusal Progress :=
  if progress.optionsEnded then progress.takeInput signature word
  else
    match Word.classify word with
    | .endOfOptions => .ok { progress with optionsEnded := true }
    | .long name attached => progress.takeLong signature name attached
    | .cluster letters => progress.takeCluster signature letters
    | .plain => progress.takePlain signature word

end Progress

/-- Reads the words after the name of a command and checks what is pending at the end. -/
def read (signature : Signature) (words : List (List Char)) : Except Refusal Progress := do
  let progress ← words.foldlM (Progress.take signature) start
  let settled ← progress.settle
  if signature.input ∧ settled.input.isNone then throw .noInput
  return settled

end Edid.Arguments
