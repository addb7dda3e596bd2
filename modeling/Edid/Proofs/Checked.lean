/-
**Checked arithmetic.** Words of a fixed width wrap around: a result that is too large for its type
loses its upper bits without a trace. The operations here refuse such a result instead. So what they
give is exact, and a computation that is never refused has the same result with and without them.

* `toNat_of_sum?`, `sum?_eq_none_iff`: the sum of two 64-bit words is exact, or too large for one;
* `times?_of_lt`, `plus?_of_lt`, `narrow?_of_lt`: a result that fits is not refused;
* `toNat_of_times?`, `toNat_of_plus?`, `toNat_of_narrow?`: a result that is not refused is exact.
-/

namespace Edid

namespace Checked

/-! ### Words of 64 bits -/

/-- The sum of two words of 64 bits, refused when it has more of them. -/
def sum? (first second : UInt64) : Option UInt64 :=
  if first.toBitVec.uaddOverflow second.toBitVec then none else some (first + second)

section Sums

variable {first second total : UInt64}

theorem sum?_eq_none_iff :
    sum? first second = none ↔ UInt64.size ≤ first.toNat + second.toNat := by
  simp [sum?, BitVec.uaddOverflow, UInt64.size]

theorem toNat_of_sum? (found : sum? first second = some total) :
    total.toNat = first.toNat + second.toNat := by
  obtain ⟨exact, same⟩ := Option.ite_none_left_eq_some.mp found
  obtain rfl := Option.some.inj same
  exact BitVec.toNat_add_of_not_uaddOverflow exact

end Sums

/-! ### Words of 32 bits -/

/-- The product of two words of 32 bits, refused when it has more of them. -/
def times? (first second : UInt32) : Option UInt32 :=
  if first.toBitVec.umulOverflow second.toBitVec then none else some (first * second)

/-- The sum of two words of 32 bits, refused when it has more of them. -/
def plus? (first second : UInt32) : Option UInt32 :=
  if first.toBitVec.uaddOverflow second.toBitVec then none else some (first + second)

/-- A word of 32 bits as one of 16, refused when that would cut bits off. -/
def narrow? (number : UInt32) : Option UInt16 :=
  if number.toNat < UInt16.size then some number.toUInt16 else none

section Results

variable {first second result number : UInt32} {word : UInt16}

theorem times?_of_lt (fits : first.toNat * second.toNat < UInt32.size) :
    times? first second = some (first * second) :=
  if_neg fun overflows => Nat.not_le_of_lt fits (of_decide_eq_true overflows)

theorem toNat_of_times? (found : times? first second = some result) :
    result.toNat = first.toNat * second.toNat := by
  obtain ⟨exact, same⟩ := Option.ite_none_left_eq_some.mp found
  obtain rfl := Option.some.inj same
  exact BitVec.toNat_mul_of_not_umulOverflow exact

theorem plus?_of_lt (fits : first.toNat + second.toNat < UInt32.size) :
    plus? first second = some (first + second) :=
  if_neg fun overflows => Nat.not_le_of_lt fits (of_decide_eq_true overflows)

theorem toNat_of_plus? (found : plus? first second = some result) :
    result.toNat = first.toNat + second.toNat := by
  obtain ⟨exact, same⟩ := Option.ite_none_left_eq_some.mp found
  obtain rfl := Option.some.inj same
  exact BitVec.toNat_add_of_not_uaddOverflow exact

theorem narrow?_of_lt (fits : number.toNat < UInt16.size) :
    narrow? number = some number.toUInt16 :=
  if_pos fits

theorem toNat_of_narrow? (found : narrow? number = some word) : word.toNat = number.toNat := by
  obtain ⟨fits, same⟩ := Option.ite_none_right_eq_some.mp found
  obtain rfl := Option.some.inj same
  rw [UInt32.toNat_toUInt16]
  exact Nat.mod_eq_of_lt fits

end Results

end Checked

end Edid
