/-
**Summaries.** Everything that is read from one EDID, as texts and numbers, and the two forms in
which it is shown: a report for people, and a TOML document.
-/

import Edid.BaseBlock
import Edid.Text.Toml

namespace Edid

/-- What is known of a display. -/
structure Summary where
  manufacturer : String
  product : String
  serial : String
  digital : Bool
  week : UInt8
  year : Int
  version : String
  width : Int8
  height : Int8
  extensionCount : UInt8
  /-- The last word of the display's name, if it has a name. -/
  modelName : Option String
  /-- The label of the area of the first slot. -/
  preferred : String
  descriptors : List String
  resolutions : List String
deriving DecidableEq

namespace Summary

def ofBytes (bytes : Bytes) : ExceptT ReadError Logged Summary := do
  let size ← BaseBlock.size bytes
  let manufacturer ← BaseBlock.manufacturer bytes
  let product ← BaseBlock.product bytes
  let serial ← BaseBlock.serial bytes
  let digital ← BaseBlock.isDigital bytes
  let week ← BaseBlock.week bytes
  let year ← BaseBlock.year bytes
  let version ← BaseBlock.version bytes
  let extensionCount ← BaseBlock.extensionCount bytes
  let modelName ← BaseBlock.modelName bytes
  let preferred ← BaseBlock.preferred bytes
  let descriptors ← BaseBlock.descriptors bytes
  let resolutions ← BaseBlock.resolutions bytes
  Logged.note .debug ("Decoded " ++ manufacturer.text ++ " " ++ product.text ++ " with " ++
    toString resolutions.size ++ " resolutions")
  return {
    manufacturer := manufacturer.text
    product := product.text
    serial := serial.text
    digital := digital
    week := week
    year := year
    version := version.text
    width := size.horizontal
    height := size.vertical
    extensionCount := extensionCount
    modelName := modelName
    preferred := preferred.label
    descriptors := descriptors.map Descriptor.line
    resolutions := resolutions.labels }

def date (summary : Summary) : ManufactureDate := ⟨summary.week, summary.year⟩

def size (summary : Summary) : PhysicalSize := ⟨summary.width, summary.height⟩

/-! ### The report -/

def identityLine (summary : Summary) : String :=
  "  Manuf. ID=" ++ summary.manufacturer ++ ", Product ID=" ++ summary.product ++ ", " ++
    (if summary.digital then "Digital" else "Analog") ++ ", Serial=" ++ summary.serial ++
    ", ManufDate=" ++ summary.date.text ++ ", EDID v" ++ summary.version

/-- The line on the model, if there is a name. -/
def modelLines (summary : Summary) : List String :=
  match summary.modelName with
  | none => []
  | some name => ["  Model: " ++ name]

/-- The parts of the report, each of which is a line unless it has a line feed itself. -/
def reportLines (summary : Summary) : List String :=
  [summary.identityLine, "  " ++ summary.size.text] ++
    summary.descriptors.map ("  " ++ ·) ++ summary.modelLines ++
    ["  Preferred Resolution: " ++ summary.preferred,
      "  Resolutions: " ++ ", ".intercalate summary.resolutions]

def report (summary : Summary) : String := "\n".intercalate summary.reportLines

/-! ### The document -/

/-- The entries of the document; a name that is absent has no entry. -/
def entries (summary : Summary) : List (String × Toml.Value) :=
  [ ("manufacturer_id", .string summary.manufacturer),
    ("product_id", .string summary.product),
    ("serial_number", .string summary.serial),
    ("digital", .boolean summary.digital),
    ("manufacture_week", .integer summary.week.toNat),
    ("manufacture_year", .integer summary.year),
    ("version", .string summary.version),
    ("width_cm", .integer summary.width.toInt),
    ("height_cm", .integer summary.height.toInt),
    ("extension_count", .integer summary.extensionCount.toNat) ] ++
  (summary.modelName.map fun name => ("model_name", Toml.Value.string name)).toList ++
  [ ("preferred_resolution", .string summary.preferred),
    ("descriptors", .strings summary.descriptors),
    ("resolutions", .strings summary.resolutions) ]

def document (summary : Summary) : String := Toml.document summary.entries

end Summary

end Edid
