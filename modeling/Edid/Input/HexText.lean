/-
**Hex text.** EDIDs are passed around as dumps of hexadecimal digits: tokens of an even number of
digits, each with an optional `0x` before it, between separators. A text counts as a dump when it
has a digit and nothing but digits, separators and the letter of the prefix; whether it is a
well-formed one only parsing tells.

A text is cut into `tokens`, the runs between separators with the places where they begin; what
each of them spells is decided on its own, and the first one that spells nothing is the fault.
-/

import Edid.Field
import Edid.Text.Utf8

namespace Edid.HexText

/-! ### The alphabet -/

/-- Whether a byte stands between tokens: a blank, tab, line feed, form feed, carriage return,
comma or colon. -/
def isSeparator (byte : UInt8) : Bool :=
  byte == 0x20 || byte == 0x09 || byte == 0x0A || byte == 0x0C || byte == 0x0D || byte == 0x2C ||
    byte == 0x3A

def digitValue? (byte : UInt8) : Option UInt8 :=
  if 0x30 ≤ byte ∧ byte ≤ 0x39 then some (byte - 0x30)
  else if 0x41 ≤ byte ∧ byte ≤ 0x46 then some (byte - 0x37)
  else if 0x61 ≤ byte ∧ byte ≤ 0x66 then some (byte - 0x57)
  else none

def isDigit (byte : UInt8) : Bool := (digitValue? byte).isSome

/-- Whether a byte is the second letter of a prefix. -/
def isMarker (byte : UInt8) : Bool := byte == 0x78 || byte == 0x58

/-- Whether a byte belongs to the alphabet of dumps. -/
def inAlphabet (byte : UInt8) : Bool := isDigit byte || isSeparator byte || isMarker byte

def isHexText (contents : Bytes) : Bool := contents.any isDigit && contents.all inAlphabet

/-! ### Tokens -/

/-- A run of bytes between separators. -/
structure Token where
  position : Nat
  bytes : Bytes
deriving DecidableEq

/-- The tokens of a text that begins at `position`. -/
def tokensFrom (position : Nat) (text : Bytes) : List Token :=
  match text with
  | [] => []
  | first :: rest =>
      if isSeparator first then tokensFrom (position + 1) rest
      else
        let run := first :: rest.takeWhile fun byte => !isSeparator byte
        ⟨position, run⟩ ::
          tokensFrom (position + run.length) (rest.dropWhile fun byte => !isSeparator byte)
termination_by text.length
decreasing_by
  · exact Nat.lt_succ_self _
  · exact Nat.lt_succ_of_le (List.dropWhile_suffix _).length_le

def tokens (text : Bytes) : List Token := tokensFrom 0 text

def digits : Bytes → Bytes
  | 0x30 :: 0x78 :: rest => rest
  | 0x30 :: 0x58 :: rest => rest
  | run => run

/-- The bytes that digits spell two by two, the high nibble first; nothing for an odd number of
digits or for anything else. -/
def spelled? : Bytes → Option Bytes
  | [] => some []
  | [_] => none
  | high :: low :: rest =>
      match digitValue? high, digitValue? low, spelled? rest with
      | some upper, some lower, some others => some ((upper <<< 4 ||| lower) :: others)
      | _, _, _ => none

/-- The bytes that a token spells; a token without digits spells nothing. -/
def Token.value? (token : Token) : Option Bytes :=
  let run := digits token.bytes
  if run.isEmpty then none else spelled? run

/-- A token that cannot be read. -/
structure Fault where
  position : Nat
  token : String
deriving DecidableEq

/-- The bytes that tokens spell one after the other; the first one that spells nothing is the
fault. -/
def values : List Token → Except Fault Bytes
  | [] => .ok []
  | token :: rest =>
      match token.value? with
      | none => .error ⟨token.position, Utf8.text token.bytes⟩
      | some bytes => (values rest).map (bytes ++ ·)

def parse (text : Bytes) : Except Fault Bytes := values (tokens text)

end Edid.HexText
