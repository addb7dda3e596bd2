/-
**Established timings by flag.** Seventeen flags are read, most significant bit first: sixteen of
the bytes `0x23` and `0x24`, each for the entry of the table at its own place, and the topmost bit
of byte `0x25` for the last entry once more.

* `reading_eq`: what the source offers are the entries of the flags that are set, in their order.
-/

import Mathlib.Data.List.Basic
import Edid.Proofs.Field
import Edid.Timing.Established

namespace Edid.Established

/-- Whether a flag is set, counted from the most significant bit of byte `0x23`. -/
def isSet (bytes : Bytes) (flag : Nat) : Bool :=
  (octet bytes (0x23 + flag / 8)).testBit (7 - flag % 8)

/-- The entries of the table whose flags are set; the seventeenth flag repeats the last entry. -/
def setAreas (bytes : Bytes) : List Resolution :=
  (List.range 17).filterMap fun flag => if isSet bytes flag then table[min flag 15]? else none

/-- Only the flags matter, so of the third byte only the topmost bit does. -/
theorem setAreas_congr_of_flags {first second : Bytes}
    (same : ∀ flag < 17, isSet first flag = isSet second flag) :
    setAreas first = setAreas second := by
  refine List.filterMap_congr fun flag member => ?_
  rw [same flag (List.mem_range.mp member)]

theorem setAreas_congr {first second : Bytes}
    (same : ∀ offset, 0x23 ≤ offset → offset < 0x26 → octet first offset = octet second offset) :
    setAreas first = setAreas second :=
  setAreas_congr_of_flags fun flag inside => by
    rw [isSet, isSet, same (0x23 + flag / 8) (by omega) (by omega)]

/-- The members of a list whose flags are set, by their places in the list. -/
theorem flagged_eq_filterMap (flags : UInt8) (top : Nat) (areas : List Resolution) :
    flagged flags top areas = (List.range areas.length).filterMap fun place =>
      if flags.toNat.testBit (top - place) then areas[place]? else none := by
  induction areas generalizing top with
  | nil => rfl
  | cons area rest ih =>
      have later : flagged flags (top - 1) rest = (List.range rest.length).filterMap
          ((fun place => if flags.toNat.testBit (top - place) then (area :: rest)[place]? else none)
            ∘ Nat.succ) := by
        rw [ih]
        refine List.filterMap_congr fun place _ => ?_
        show _ = if flags.toNat.testBit (top - (place + 1)) then rest[place]? else none
        rw [Nat.sub_sub, Nat.add_comm 1 place]
      rw [List.length_cons, List.range_succ_eq_map, List.filterMap_cons, List.filterMap_map,
        ← later, flagged, Nat.sub_zero, List.getElem?_cons_zero]
      by_cases set : flags.toNat.testBit top
      · rw [if_pos set, if_pos set]
      · rw [if_neg set, if_neg set]

/-- The flags of one byte are eight of the seventeen, or fewer at the end. -/
theorem flagged_eq_of_octet {bytes : Bytes} {flags : UInt8} {areas : List Resolution}
    (skipped : Nat) (byte : flags.toNat = octet bytes (0x23 + skipped))
    (few : areas.length ≤ 8)
    (entries : ∀ place < areas.length, areas[place]? = table[min (8 * skipped + place) 15]?) :
    flagged flags 7 areas = ((List.range areas.length).map (8 * skipped + ·)).filterMap
      fun flag => if isSet bytes flag then table[min flag 15]? else none := by
  rw [flagged_eq_filterMap, List.filterMap_map]
  refine List.filterMap_congr fun place member => ?_
  have inside : place < areas.length := List.mem_range.mp member
  have quotient : (8 * skipped + place) / 8 = skipped := by omega
  have remainder : (8 * skipped + place) % 8 = place := by omega
  show _ = if isSet bytes (8 * skipped + place) then table[min (8 * skipped + place) 15]? else none
  rw [isSet, quotient, remainder, byte, entries place inside]

theorem areas_eq_setAreas {bytes : Bytes} {first second third : UInt8}
    (one : first.toNat = octet bytes 0x23) (two : second.toNat = octet bytes 0x24)
    (three : third.toNat = octet bytes 0x25) : areas first second third = setAreas bytes := by
  unfold areas setAreas
  rw [flagged_eq_of_octet 0 one (by decide) (by decide),
    flagged_eq_of_octet 1 two (by decide) (by decide),
    flagged_eq_of_octet 2 three (by decide) (by decide),
    ← List.filterMap_append, ← List.filterMap_append]
  rfl

/-- **What the flags offer**: the source is read to its end, and offers the entries of the flags
that are set. -/
theorem reading_eq {bytes : Bytes} (long : 0x26 ≤ bytes.length) :
    (reading bytes).failure = none ∧ (reading bytes).offers = setAreas bytes := by
  have fits : offset + 3 ≤ bytes.length := long
  obtain ⟨flags, found, octets⟩ := Field.exists_array_of_fits fits
  unfold reading
  rw [found]
  refine ⟨rfl, ?_⟩
  rw [← areas_eq_setAreas (octets 0 (by decide)) (octets 1 (by decide)) (octets 2 (by decide))]
  show (List.map Step.offer _).filterMap Step.offered? = _
  rw [List.filterMap_map]
  exact List.filterMap_some

end Edid.Established
