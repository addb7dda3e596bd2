/-
**Why a buffer cannot be decoded.** A field may lie past the end of the buffer, or a data block
of the extension may claim more payload than its collection holds. Nothing else goes wrong: every
bit pattern of a whole base block has a decoding.
-/

import Edid.Text.Hexadecimal

namespace Edid

/-- Why a read failed. -/
inductive ReadError where
  /-- A span of `length` bytes from `offset` does not fit into the `available` bytes. -/
  | outOfRange (offset length available : Nat)
  /-- The data block whose header stands at `offset` overruns its collection. -/
  | malformedBlock (offset : Nat)
deriving DecidableEq

namespace ReadError

/-- The sentence shown for an error; offsets have at least two uppercase hexadecimal digits. -/
def message : ReadError → String
  | outOfRange offset length available =>
      "read of " ++ toString length ++ " byte(s) at offset 0x" ++ Hexadecimal.padded 2 offset ++
        " exceeds buffer length " ++ toString available
  | malformedBlock offset =>
      "malformed CTA-861 data block at offset 0x" ++ Hexadecimal.padded 2 offset

end ReadError

end Edid
