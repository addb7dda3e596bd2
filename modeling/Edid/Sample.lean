/-
**A sample.** The EDID of a Dell P2418HT: the base block and one CTA-861 extension.
-/

import Edid.Field

namespace Edid

def sample : Bytes := [
  0x00, 0xFF, 0xFF, 0xFF, 0xFF, 0xFF, 0xFF, 0x00, 0x10, 0xAC, 0x13, 0x41, 0x4C, 0x57, 0x53, 0x42,
  0x16, 0x1C, 0x01, 0x04, 0xA5, 0x35, 0x1E, 0x78, 0x3E, 0xEE, 0x95, 0xA3, 0x54, 0x4C, 0x99, 0x26,
  0x0F, 0x50, 0x54, 0xA5, 0x4B, 0x80, 0x71, 0x4F, 0x81, 0x00, 0x81, 0x80, 0xA9, 0xC0, 0xD1, 0xC0,
  0x01, 0x01, 0x01, 0x01, 0x01, 0x01, 0x02, 0x3A, 0x80, 0x18, 0x71, 0x38, 0x2D, 0x40, 0x58, 0x2C,
  0x45, 0x00, 0x0F, 0x28, 0x21, 0x00, 0x00, 0x1E, 0x00, 0x00, 0x00, 0xFF, 0x00, 0x54, 0x56, 0x54,
  0x37, 0x46, 0x38, 0x35, 0x55, 0x42, 0x53, 0x57, 0x4C, 0x0A, 0x00, 0x00, 0x00, 0xFC, 0x00, 0x44,
  0x45, 0x4C, 0x4C, 0x20, 0x50, 0x32, 0x34, 0x31, 0x38, 0x48, 0x54, 0x0A, 0x00, 0x00, 0x00, 0xFD,
  0x00, 0x32, 0x4C, 0x1E, 0x53, 0x11, 0x00, 0x0A, 0x20, 0x20, 0x20, 0x20, 0x20, 0x20, 0x01, 0x7E,
  0x02, 0x03, 0x18, 0xF1, 0x4B, 0x90, 0x05, 0x04, 0x03, 0x02, 0x01, 0x11, 0x12, 0x13, 0x14, 0x1F,
  0x23, 0x09, 0x07, 0x07, 0x83, 0x01, 0x00, 0x00, 0x02, 0x3A, 0x80, 0x18, 0x71, 0x38, 0x2D, 0x40,
  0x58, 0x2C, 0x45, 0x00, 0x0F, 0x28, 0x21, 0x00, 0x00, 0x1E, 0x01, 0x1D, 0x80, 0x18, 0x71, 0x1C,
  0x16, 0x20, 0x58, 0x2C, 0x25, 0x00, 0x0F, 0x28, 0x21, 0x00, 0x00, 0x9E, 0x01, 0x1D, 0x00, 0x72,
  0x51, 0xD0, 0x1E, 0x20, 0x6E, 0x28, 0x55, 0x00, 0x0F, 0x28, 0x21, 0x00, 0x00, 0x1E, 0x8C, 0x0A,
  0xD0, 0x8A, 0x20, 0xE0, 0x2D, 0x10, 0x10, 0x3E, 0x96, 0x00, 0x0F, 0x28, 0x21, 0x00, 0x00, 0x18,
  0x00, 0x00, 0x00, 0x00, 0x00, 0x00, 0x00, 0x00, 0x00, 0x00, 0x00, 0x00, 0x00, 0x00, 0x00, 0x00,
  0x00, 0x00, 0x00, 0x00, 0x00, 0x00, 0x00, 0x00, 0x00, 0x00, 0x00, 0x00, 0x00, 0x00, 0x00, 0xCF ]

theorem length_sample : sample.length = 256 := by decide +kernel

end Edid
