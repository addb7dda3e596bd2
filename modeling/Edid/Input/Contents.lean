/-
**File contents.** A file holds an EDID either as it is or as a dump of hexadecimal digits. Either
way what comes out has at least a base block; a length that is no multiple of a block is only
warned of.
-/

import Edid.BaseBlock
import Edid.Input.FileError
import Edid.Input.HexText
import Edid.Text.Quoted

namespace Edid

/-- Why there is no EDID to decode. -/
inductive InputError where
  | unreadable (path : String) (cause : FileError)
  | invalidHex (fault : HexText.Fault)
  /-- There are `length` bytes and not a whole base block. -/
  | tooShort (length : Nat)
deriving DecidableEq

namespace InputError

def message : InputError → String
  | unreadable path cause => "Failed to read " ++ path ++ ": " ++ cause.message
  | invalidHex fault =>
      "Invalid hex at byte " ++ toString fault.position ++ ": " ++ Quoted.quoted fault.token
  | tooShort length =>
      "EDID too short: " ++ toString length ++ " bytes, need at least " ++
        toString blockLength

end InputError

namespace Contents

/-- The bytes of a file, with a dump read. -/
def bytes (contents : Bytes) : ExceptT InputError Logged Bytes := do
  if HexText.isHexText contents then
    Logged.note .debug "Input looks like hex text"
    match HexText.parse contents with
    | .error fault => throw (.invalidHex fault)
    | .ok bytes => return bytes
  else return contents

def decode (contents : Bytes) : ExceptT InputError Logged Bytes := do
  let bytes ← bytes contents
  if bytes.length < blockLength then throw (.tooShort bytes.length)
  if bytes.length % blockLength ≠ 0 then
    Logged.note .warn ("EDID length " ++ toString bytes.length ++ " is not a multiple of " ++
      toString blockLength ++ " bytes")
  return bytes

/-- The EDID of the file at `path`, given what reading the file gave. -/
def load (path : String) (found : Except FileError Bytes) : ExceptT InputError Logged Bytes := do
  match found with
  | .error cause => throw (.unreadable path cause)
  | .ok contents =>
      Logged.note .debug ("Read " ++ toString contents.length ++ " bytes from " ++ path)
      decode contents

end Contents

end Edid
