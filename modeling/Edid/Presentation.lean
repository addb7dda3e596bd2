/-
**What the commands print.** Three views of a buffer: the summary as a report or as a document, the
list of resolutions, and the descriptor slots. Each prints to the console and fails with a read
error.

The closing record of the resolution list names the preferred resolution, which is read only when
records of that level are made at all.
-/

import Edid.Console
import Edid.Summary

namespace Edid

/-- How a summary is printed. -/
inductive Format where
  | text
  | toml
deriving DecidableEq

namespace Presentation

/-- A computation that prints, logs, and may fail to read. -/
abbrev Printing := ExceptT ReadError Console

def logged {α : Type} (computation : ExceptT ReadError Logged α) : Printing α :=
  ExceptT.mk (Console.ofLogged computation.run)

def summary (format : Format) (bytes : Bytes) : Printing Unit := do
  if !BaseBlock.hasHeader bytes then
    Console.note .warn "Missing EDID header pattern, decoding anyway"
  let summary ← logged (Summary.ofBytes bytes)
  match format with
  | .text => Console.print (summary.report ++ "\n")
  | .toml => Console.print summary.document

/-- Prints the resolutions of a buffer, one on a line, or that there are none; `made` says which
records are made at all. -/
def resolutions (made : Threshold) (bytes : Bytes) : Printing Unit := do
  let set ← logged (BaseBlock.resolutions bytes)
  if set.isEmpty then
    Console.print "No resolutions advertised.\n"
  else
    Console.print (String.join (set.labels.map (· ++ "\n")))
    if made.admits .info then
      let preferred ← BaseBlock.preferred bytes
      Console.note .info
        (toString set.size ++ " resolutions, preferred " ++ preferred.label)

/-- The line of a slot: its place, its number, what it says. -/
def slotLine (slot : Slot) (descriptor : Descriptor) : String :=
  "0x" ++ Hexadecimal.padded 2 slot.offset ++ " [type 0x" ++
    Hexadecimal.padded 2 (Descriptor.typeCode slot.record).toNat ++ "] " ++ descriptor.line ++ "\n"

/-- The line of a slot's bytes, set in from the margin. -/
def dumpLine (slot : Slot) : String :=
  "     " ++ Hexadecimal.dump slot.record.toList ++ "\n"

/-- Prints slots in order, each with its bytes below it if `raw` says so. -/
def slots (raw : Bool) : List Slot → Console Unit
  | [] => pure ()
  | slot :: rest => do
      let descriptor ← (Descriptor.inspect slot.record : Logged Descriptor)
      Console.print (slotLine slot descriptor)
      if raw then Console.print (dumpLine slot)
      slots raw rest

/-- Prints the descriptor slots of a buffer, and the model name below them if there is one. -/
def descriptors (raw : Bool) (bytes : Bytes) : Printing Unit := do
  slots raw (← BaseBlock.slots bytes)
  match ← BaseBlock.modelName bytes with
  | none => return ()
  | some name =>
      Console.print "\n"
      Console.print ("Model: " ++ name ++ "\n")

end Presentation

end Edid
