/-
**Video modes of the extension.** The first extension block is looked into when the base block
declares one, the buffer holds it, and its tag is that of CTA-861. Its data blocks are walked from
byte 4 up to where it says that its timings begin; the video data blocks offer the resolutions of
the codes they list.

A chain that breaks off is no failure of the decoding: what came before stands, and a warning is
logged. Only a buffer that ends before the extension count fails.
-/

import Edid.Extension.DataBlock
import Edid.Extension.VideoCode
import Edid.Reading

namespace Edid.Extension

/-- Where the base block says how many extensions follow. -/
def countOffset : Nat := 0x7E

def ctaTag : UInt8 := 0x02

def videoTag : UInt8 := 0x02

/-- Where the data blocks of an extension begin, counted from its own start. -/
def chainStart : Nat := 4

def descriptorStep (descriptor : UInt8) : Step :=
  let code := VideoCode.ofDescriptor descriptor
  match VideoCode.resolution? code with
  | some resolution => .offer resolution
  | none => .note .trace ("Ignoring VIC " ++ toString code.toNat)

/-- The steps of one data block: a trace, and for a video data block those of its payload. -/
def blockSteps (block : DataBlock) : List Step :=
  .note .trace ("CTA-861 data block tag " ++ toString block.tag.toNat ++ " len " ++
      toString block.payload.length ++ " at 0x" ++ Hexadecimal.padded 2 block.offset) ::
    if block.tag = videoTag then block.payload.map descriptorStep else []

/-- The steps of a walk: those of its blocks, and a warning if it broke off. -/
def walkSteps (walk : DataBlock.Walk) : List Step :=
  walk.blocks.flatMap blockSteps ++
    match walk.failure with
    | none => []
    | some failure =>
        [.note .warn ("Stopped CTA-861 data block walk: " ++ failure.message)]

/-- The walk through the data blocks of the first extension, given where its timings begin. -/
def walk (bytes : Bytes) (timings : UInt8) : DataBlock.Walk :=
  DataBlock.walk bytes (blockLength + timings.toNat) (blockLength + chainStart)

/-- The note on extensions that are declared and not looked into. -/
def furtherSteps (declared : UInt8) : List Step :=
  if 1 < declared then
    [.note .debug (toString declared.toNat ++
      " extension blocks declared, inspecting the first only")]
  else []

def steps (bytes : Bytes) : Except ReadError (List Step) := do
  let declared ← Field.byteAt bytes countOffset
  if declared = 0 ∨ bytes.length < 2 * blockLength then
    return [.note .debug ("No extension to inspect (" ++ toString declared.toNat ++
      " declared, " ++ toString bytes.length ++ " bytes)")]
  let tag ← Field.byteAt bytes blockLength
  if tag ≠ ctaTag then
    return furtherSteps declared ++
      [.note .debug ("Extension tag 0x" ++ Hexadecimal.padded 2 tag.toNat ++ " is not CTA-861")]
  let timings ← Field.byteAt bytes (blockLength + 2)
  return furtherSteps declared ++ walkSteps (walk bytes timings)

def reading (bytes : Bytes) : Reading :=
  match steps bytes with
  | .error failure => .failed failure
  | .ok steps => .complete steps

end Edid.Extension
