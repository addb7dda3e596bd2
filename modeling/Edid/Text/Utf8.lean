/-
**Lossy UTF-8.** Bytes are read as UTF-8, and where they are not, each maximal part of a sequence
that could still have been completed becomes one replacement character; reading goes on with the
byte that broke it off.

* `decode_ascii`: bytes below `0x80` are read one by one.
-/

namespace Edid.Utf8

/-- What may follow a leading byte. -/
structure Form where
  following : Nat
  least : UInt8
  greatest : UInt8
  /-- The bits that the leading byte adds to the number. -/
  bits : Nat

/-- The form of a sequence with the given leading byte, if the byte can lead one. Overlong
sequences, surrogates and numbers past the last character are kept out by the second byte. -/
def form? (lead : UInt8) : Option Form :=
  let value := lead.toNat
  if lead < 0x80 then some ⟨0, 0x80, 0xBF, value⟩
  else if 0xC2 ≤ lead ∧ lead ≤ 0xDF then some ⟨1, 0x80, 0xBF, value - 0xC0⟩
  else if lead = 0xE0 then some ⟨2, 0xA0, 0xBF, value - 0xE0⟩
  else if lead = 0xED then some ⟨2, 0x80, 0x9F, value - 0xE0⟩
  else if 0xE1 ≤ lead ∧ lead ≤ 0xEF then some ⟨2, 0x80, 0xBF, value - 0xE0⟩
  else if lead = 0xF0 then some ⟨3, 0x90, 0xBF, value - 0xF0⟩
  else if 0xF1 ≤ lead ∧ lead ≤ 0xF3 then some ⟨3, 0x80, 0xBF, value - 0xF0⟩
  else if lead = 0xF4 then some ⟨3, 0x80, 0x8F, value - 0xF0⟩
  else none

/-- The bytes that continue a sequence: the first one within the bounds given, the others any
continuation byte, and no more than `following` of them. -/
def continuation (following : Nat) (least greatest : UInt8) : List UInt8 → List UInt8
  | [] => []
  | byte :: rest =>
      match following with
      | 0 => []
      | more + 1 =>
          if least ≤ byte ∧ byte ≤ greatest then byte :: continuation more 0x80 0xBF rest
          else []

/-- The number of a sequence, six bits from each byte after the leading one. -/
def number (bits : Nat) (bytes : List UInt8) : Nat :=
  bytes.foldl (fun value byte => value * 64 + (byte.toNat - 0x80)) bits

/-- What stands for a sequence that was not completed. -/
def replacement : Char := '\uFFFD'

/-- The character at a leading byte, and how many of the bytes after it belong to it. -/
def next (lead : UInt8) (rest : List UInt8) : Char × Nat :=
  match form? lead with
  | none => (replacement, 0)
  | some form =>
      let taken := continuation form.following form.least form.greatest rest
      if taken.length = form.following then (Char.ofNat (number form.bits taken), taken.length)
      else (replacement, taken.length)

def decode : List UInt8 → List Char
  | [] => []
  | lead :: rest => (next lead rest).1 :: decode (rest.drop (next lead rest).2)
termination_by bytes => bytes.length
decreasing_by
  rw [List.length_drop, List.length_cons]
  omega

def text (bytes : List UInt8) : String := String.ofList (decode bytes)

/-- **A byte below `0x80`** is a character of its own. -/
theorem decode_ascii (lead : UInt8) (rest : List UInt8) (ascii : lead < 0x80) :
    decode (lead :: rest) = Char.ofNat lead.toNat :: decode rest := by
  have alone : next lead rest = (Char.ofNat lead.toNat, 0) := by
    unfold next form?
    rw [if_pos ascii]
    cases rest <;> rfl
  rw [decode, alone, List.drop_zero]

end Edid.Utf8
