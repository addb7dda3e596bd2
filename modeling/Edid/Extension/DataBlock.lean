/-
**Data blocks.** A CTA-861 extension carries a chain of blocks, each a header byte with a tag in
its three upper bits and a payload length in its five lower ones, then the payload. The chain runs
up to a limit that the extension declares.

A walk takes blocks as long as they are complete. It ends well when a block ends exactly at the
limit, and otherwise with the error of the first block that is not complete: a header past the
buffer is out of range, a payload past the limit or past the buffer makes the block malformed.
-/

import Edid.Field

namespace Edid

/-- One block of an extension. -/
structure DataBlock where
  offset : Nat
  tag : UInt8
  payload : Bytes
deriving DecidableEq

namespace DataBlock

/-- The complete blocks of a chain, and the error that ended it, if it did not end well. -/
structure Walk where
  blocks : List DataBlock
  /-- What is wrong with the block after them, if the limit was not reached. -/
  failure : Option ReadError
deriving DecidableEq

def tagOf (header : UInt8) : UInt8 := header >>> 5

def lengthOf (header : UInt8) : Nat := (header &&& 0x1F).toNat

/-- Walks the chain that starts at `position` and runs up to `limit`. -/
def walk (bytes : Bytes) (limit position : Nat) : Walk :=
  if position < limit then
    match Field.byteAt bytes position with
    | .error failure => ⟨[], some failure⟩
    | .ok header =>
        let next := position + 1 + lengthOf header
        if limit < next then ⟨[], some (.malformedBlock position)⟩
        else
          match Field.slice bytes (position + 1) (lengthOf header) with
          | .error _ => ⟨[], some (.malformedBlock position)⟩
          | .ok payload =>
              let rest := walk bytes limit next
              ⟨⟨position, tagOf header, payload⟩ :: rest.blocks, rest.failure⟩
  else ⟨[], none⟩
termination_by limit - position

end DataBlock

end Edid
