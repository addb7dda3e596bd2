/-
**Quoted texts.** A text in an error message stands in double quotes, so that blanks and control
characters in it can be seen: a few characters have escapes of their own, those without a shape
are written by their number, and all others stand for themselves.
-/

import Edid.Text.Hexadecimal
import Edid.Text.Shapeless

namespace Edid.Quoted

def escape (character : Char) : List Char :=
  if character = '\x00' then ['\\', '0']
  else if character = '\t' then ['\\', 't']
  else if character = '\r' then ['\\', 'r']
  else if character = '\n' then ['\\', 'n']
  else if character = '\\' then ['\\', '\\']
  else if character = '"' then ['\\', '"']
  else if Shapeless.isShapeless character then
    ['\\', 'u', '\x7b'] ++ Nat.toDigits 16 character.toNat ++ ['\x7d']
  else [character]

def quoted (text : String) : String :=
  String.ofList (['"'] ++ text.toList.flatMap escape ++ ['"'])

end Edid.Quoted
