/-
**Physical size.** The image size in whole centimetres, read as signed bytes, and in inches as
single precision quotients with one decimal place.
-/

import Edid.Single

namespace Edid

/-- The largest image a display can show. -/
structure PhysicalSize where
  /-- Centimetres across. -/
  horizontal : Int8
  /-- Centimetres down. -/
  vertical : Int8
deriving DecidableEq

namespace PhysicalSize

def centimetresPerInch : Single := .nearest false 254 100

def inches (centimetres : Int8) : Single := .quotient centimetres.toInt centimetresPerInch

def text (size : PhysicalSize) : String :=
  toString size.horizontal.toInt ++ " x " ++ toString size.vertical.toInt ++ " cm (" ++
    (inches size.horizontal).text ++ " x " ++ (inches size.vertical).text ++ " in)"

end PhysicalSize

end Edid
