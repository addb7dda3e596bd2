/-
**Hexadecimal text.** Bytes are written as two uppercase digits each, the high nibble first;
numbers in messages are written uppercase with a least width, and product codes lowercase with
no leading zeros.
-/

namespace Edid.Hexadecimal

/-- The uppercase digit of a value below sixteen. -/
def digit (value : Nat) : Char :=
  if value < 10 then Char.ofNat (48 + value) else Char.ofNat (55 + value)

/-- The two uppercase digits of a byte, the high nibble first. -/
def ofByte (byte : UInt8) : List Char :=
  [digit (byte.toNat / 16), digit (byte.toNat % 16)]

/-- Bytes as contiguous uppercase digits. -/
def dump (bytes : List UInt8) : String :=
  String.ofList (bytes.flatMap ofByte)

/-- A number in uppercase digits, filled with zeros on the left up to `width`. -/
def padded (width value : Nat) : String :=
  let digits := (Nat.toDigits 16 value).map Char.toUpper
  String.ofList (List.replicate (width - digits.length) '0' ++ digits)

/-- A number in lowercase digits, with no leading zeros. -/
def lower (value : Nat) : String :=
  String.ofList (Nat.toDigits 16 value)

@[simp]
theorem toList_dump (bytes : List UInt8) : (dump bytes).toList = bytes.flatMap ofByte :=
  String.toList_ofList

end Edid.Hexadecimal
