/-
**Identity.** Who made a display, which model and unit it is, when it was made, and the version of
its EDID. Every bit pattern is a value; the texts are those of the report.
-/

import Edid.Text.Hexadecimal

namespace Edid

/-- The maker: three letters of five bits each below a reserved bit. -/
structure ManufacturerId where
  /-- The word as it stands in the buffer, high byte first. -/
  raw : UInt16
deriving DecidableEq

namespace ManufacturerId

/-- The letter of five bits: 1 is `A`, 26 is `Z`, the values above go on in ASCII, and 0 is an
absent letter. -/
def letter? (value : Nat) : Option Char :=
  if value = 0 then none else some (Char.ofNat (64 + value))

/-- The letters that are present, the most significant first. -/
def letters (maker : ManufacturerId) : List Char :=
  let value := maker.raw.toNat
  [value / 1024 % 32, value / 32 % 32, value % 32].filterMap letter?

/-- The letters as a text of up to three characters. -/
def text (maker : ManufacturerId) : String := String.ofList maker.letters

end ManufacturerId

/-- The maker's number for the model. -/
structure ProductCode where
  /-- The word as it stands in the buffer, low byte first. -/
  raw : UInt16
deriving DecidableEq

namespace ProductCode

def text (product : ProductCode) : String := Hexadecimal.lower product.raw.toNat

end ProductCode

/-- The maker's number for the unit. -/
structure SerialCode where
  /-- The four bytes in the order of the buffer. -/
  raw : Vector UInt8 4
deriving DecidableEq

namespace SerialCode

/-- A byte that is an ASCII letter or digit stands for itself, any other one is written as two
hexadecimal digits. -/
def byteText (byte : UInt8) : List Char :=
  let character := Char.ofNat byte.toNat
  if character.isAlphanum then [character] else Hexadecimal.ofByte byte

/-- The bytes from the last one to the first one. -/
def text (serial : SerialCode) : String :=
  String.ofList (serial.raw.toList.reverse.flatMap byteText)

end SerialCode

/-- The version of the EDID structure. -/
structure Version where
  major : Int8
  minor : Int8
deriving DecidableEq

namespace Version

def text (version : Version) : String :=
  toString version.major.toInt ++ "." ++ toString version.minor.toInt

end Version

/-- When a display was made. -/
structure ManufactureDate where
  /-- The week, with 0 and 255 passed through like any other. -/
  week : UInt8
  year : Int
deriving DecidableEq

namespace ManufactureDate

/-- The year that a year byte of zero stands for. -/
def firstYear : Int := 1990

/-- The month that the week falls into, roughly. -/
def month (date : ManufactureDate) : Nat := date.week.toNat * 12 / 52 + 1

/-- The month and the year with a stroke between them. -/
def text (date : ManufactureDate) : String :=
  toString date.month ++ "/" ++ toString date.year

end ManufactureDate

end Edid
