/-
**The grammar of dumps.** A run spells bytes when it is a mark, which may be missing, and then
digits, two for each byte and at least two of them. A dump is read exactly when each of its maximal
runs spells something; what is read is what they spell, one behind the other. A text with a run that
spells nothing is refused for the first such run, whatever follows.

* `value?_eq_some_iff`: what a token is read as is what its run spells;
* `values_eq_ok_iff`, `values_eq_error_iff`: what a list of tokens is read as;
* `parse_grammar`: these over the maximal runs of a text.
-/

import Mathlib.Data.List.Forall2
import Mathlib.Data.List.Induction
import Mathlib.Data.Nat.Bitwise
import Edid.Proofs.HexRuns
import Edid.Proofs.LossyText

namespace Edid.HexText

/-! ### The grammar -/

/-- A byte that is the digit of a value below sixteen, as a small or a large letter from ten on. -/
def Digit (byte : UInt8) (value : Nat) : Prop :=
  value < 10 ∧ byte.toNat = '0'.toNat + value ∨
    10 ≤ value ∧ value < 16 ∧
      (byte.toNat + 10 = 'A'.toNat + value ∨ byte.toNat + 10 = 'a'.toNat + value)

/-- Digits two by two and the bytes that they spell, the high digit first. -/
inductive DigitPairs : Bytes → Bytes → Prop
  | none : DigitPairs [] []
  | pair {high low : UInt8} {upper lower : Nat} {digits bytes : Bytes} (first : Digit high upper)
      (second : Digit low lower) (others : DigitPairs digits bytes) :
      DigitPairs (high :: low :: digits) (.ofNat (16 * upper + lower) :: bytes)

/-- What may stand before the digits of a run. -/
def marks : List Bytes := [[], [0x30, 0x78], [0x30, 0x58]]

/-- A run that spells bytes. -/
def Spells (run bytes : Bytes) : Prop :=
  ∃ mark ∈ marks, ∃ digits, run = mark ++ digits ∧ digits ≠ [] ∧ DigitPairs digits bytes

/-- A run of the grammar: an even number of digits, not zero, behind at most one mark. -/
def WellFormed (run : Bytes) : Prop :=
  ∃ mark ∈ marks, ∃ digits, run = mark ++ digits ∧ digits ≠ [] ∧ digits.length % 2 = 0 ∧
    ∀ byte ∈ digits, ∃ value, Digit byte value

/-! ### Digits -/

theorem between_iff {byte least greatest : UInt8} :
    least ≤ byte ∧ byte ≤ greatest ↔
      least.toNat ≤ byte.toNat ∧ byte.toNat ≤ greatest.toNat := by
  rw [UInt8.le_iff_toNat_le, UInt8.le_iff_toNat_le]

theorem sub_eq_iff {byte value : UInt8} (offset : UInt8) (above : offset.toNat ≤ byte.toNat) :
    some (byte - offset) = some value ↔ byte.toNat = offset.toNat + value.toNat := by
  rw [Option.some_inj, ← UInt8.toNat_inj,
    UInt8.toNat_sub_of_le _ _ (UInt8.le_iff_toNat_le.mpr above)]
  omega

/-- **The value read at a byte** is that of the digit that the byte is. -/
theorem digitValue?_eq_some_iff {byte value : UInt8} :
    digitValue? byte = some value ↔ Digit byte value.toNat := by
  have figure : 0x30 ≤ byte ∧ byte ≤ 0x39 ↔ 48 ≤ byte.toNat ∧ byte.toNat ≤ 57 := between_iff
  have capital : 0x41 ≤ byte ∧ byte ≤ 0x46 ↔ 65 ≤ byte.toNat ∧ byte.toNat ≤ 70 := between_iff
  have small : 0x61 ≤ byte ∧ byte ≤ 0x66 ↔ 97 ≤ byte.toNat ∧ byte.toNat ≤ 102 := between_iff
  show _ ↔ value.toNat < 10 ∧ byte.toNat = 48 + value.toNat ∨ 10 ≤ value.toNat ∧
    value.toNat < 16 ∧ (byte.toNat + 10 = 65 + value.toNat ∨ byte.toNat + 10 = 97 + value.toNat)
  unfold digitValue?
  rw [if_congr figure rfl (if_congr capital rfl (if_congr small rfl rfl))]
  split
  · next range =>
    rw [sub_eq_iff 0x30 range.1]
    show byte.toNat = 48 + value.toNat ↔ _
    omega
  · split
    · next range =>
      rw [sub_eq_iff 0x37 (le_trans (by decide) range.1)]
      show byte.toNat = 55 + value.toNat ↔ _
      omega
    · split
      · next range =>
        rw [sub_eq_iff 0x57 (le_trans (by decide) range.1)]
        show byte.toNat = 87 + value.toNat ↔ _
        omega
      · rw [iff_false_left (by simp)]
        omega

theorem Digit.lt_sixteen {byte : UInt8} {value : Nat} (digit : Digit byte value) : value < 16 := by
  rcases digit with ⟨small, -⟩ | ⟨-, small, -⟩
  · omega
  · exact small

theorem Digit.exists_digitValue {byte : UInt8} {value : Nat} (digit : Digit byte value) :
    digitValue? byte = some (.ofNat value) := by
  refine digitValue?_eq_some_iff.mpr ?_
  rwa [UInt8.toNat_ofNat_of_lt' (digit.lt_sixteen.trans (by decide))]

/-- Two nibbles make a byte, the first one counting sixteen. -/
theorem nibbles_eq {upper lower : UInt8} (high : upper.toNat < 16) (low : lower.toNat < 16) :
    upper <<< 4 ||| lower = .ofNat (16 * upper.toNat + lower.toNat) := by
  refine UInt8.toNat_inj.mp ?_
  have shifted : (upper <<< 4).toNat = upper.toNat <<< 4 := by
    rw [UInt8.toNat_shiftLeft]
    refine Nat.mod_eq_of_lt ?_
    show upper.toNat <<< 4 < 2 ^ 8
    rw [Nat.shiftLeft_eq]
    omega
  rw [UInt8.toNat_or, shifted, ← Nat.shiftLeft_add_eq_or_of_lt low, Nat.shiftLeft_eq,
    UInt8.toNat_ofNat_of_lt']
  · omega
  · show _ < 256
    omega

/-! ### Runs -/

/-- **What digits are read as** is what they spell. -/
theorem spelled?_eq_some_iff {digits bytes : Bytes} :
    spelled? digits = some bytes ↔ DigitPairs digits bytes := by
  constructor
  · intro read
    induction digits using spelled?.induct generalizing bytes with
    | case1 =>
        obtain rfl := Option.some_inj.mp read
        exact .none
    | case2 => cases read
    | case3 high low rest upper lower others spelled second first ih =>
        rw [spelled?, first, second, spelled] at read
        obtain rfl := Option.some_inj.mp read
        have upperDigit := digitValue?_eq_some_iff.mp first
        have lowerDigit := digitValue?_eq_some_iff.mp second
        rw [nibbles_eq upperDigit.lt_sixteen lowerDigit.lt_sixteen]
        exact .pair upperDigit lowerDigit (ih spelled)
    | case4 high low rest missing ih =>
        rw [spelled?] at read
        split at read
        · next upper lower others first second spelled =>
          exact absurd spelled (missing upper lower others first second)
        · cases read
  · intro pairs
    induction pairs with
    | none => rfl
    | @pair high low upper lower _ _ first second _ ih =>
        have upperValue : (UInt8.ofNat upper).toNat = upper :=
          UInt8.toNat_ofNat_of_lt' (first.lt_sixteen.trans (by decide))
        have lowerValue : (UInt8.ofNat lower).toNat = lower :=
          UInt8.toNat_ofNat_of_lt' (second.lt_sixteen.trans (by decide))
        rw [spelled?, first.exists_digitValue, second.exists_digitValue, ih]
        show some (_ :: _) = _
        rw [nibbles_eq, upperValue, lowerValue]
        · rw [upperValue]
          exact first.lt_sixteen
        · rw [lowerValue]
          exact second.lt_sixteen

/-- The letter of a mark is no digit. -/
theorem not_digit_marker {value : Nat} : ¬ Digit 0x78 value ∧ ¬ Digit 0x58 value := by
  constructor
  all_goals
    intro digit
    have read := digit.exists_digitValue
    revert read
    rw [show digitValue? _ = none by decide]
    exact nofun

theorem exists_mark (run : Bytes) : ∃ mark ∈ marks, run = mark ++ digits run := by
  unfold digits
  split
  · exact ⟨[0x30, 0x78], by decide, rfl⟩
  · exact ⟨[0x30, 0x58], by decide, rfl⟩
  · exact ⟨[], by decide, rfl⟩

/-- Without its mark, a run that spells bytes is its digits: digits are never taken for a mark. -/
theorem digits_append {mark numerals bytes : Bytes} (known : mark ∈ marks)
    (pairs : DigitPairs numerals bytes) : digits (mark ++ numerals) = numerals := by
  rcases List.mem_cons.mp known with rfl | known
  · refine digits.eq_3 _ ?_ ?_
    · rintro rest rfl
      cases pairs with
      | pair _ second _ => exact not_digit_marker.1 second
    · rintro rest rfl
      cases pairs with
      | pair _ second _ => exact not_digit_marker.2 second
  · rcases List.mem_cons.mp known with rfl | known
    · rfl
    · obtain rfl := List.mem_singleton.mp known
      rfl

/-- **What a token is read as** is what its run spells. -/
theorem value?_eq_some_iff {token : Token} {bytes : Bytes} :
    token.value? = some bytes ↔ Spells token.bytes bytes := by
  show (if (digits token.bytes).isEmpty then none else spelled? (digits token.bytes)) = _ ↔ _
  constructor
  · intro read
    split at read
    · cases read
    · next filled =>
      obtain ⟨mark, known, whole⟩ := exists_mark token.bytes
      exact ⟨mark, known, _, whole, by simpa using filled, spelled?_eq_some_iff.mp read⟩
  · rintro ⟨mark, known, numerals, whole, filled, pairs⟩
    rw [whole, digits_append known pairs, if_neg (by simpa using filled)]
    exact spelled?_eq_some_iff.mpr pairs

theorem exists_digitPairs_iff {numerals : Bytes} :
    (∃ bytes, DigitPairs numerals bytes) ↔
      numerals.length % 2 = 0 ∧ ∀ byte ∈ numerals, ∃ value, Digit byte value := by
  constructor
  · rintro ⟨bytes, pairs⟩
    induction pairs with
    | none => exact ⟨rfl, fun byte inside => absurd inside List.not_mem_nil⟩
    | pair first second _ ih =>
        refine ⟨?_, ?_⟩
        · rw [List.length_cons, List.length_cons]
          omega
        · intro byte inside
          rcases List.mem_cons.mp inside with rfl | inside
          · exact ⟨_, first⟩
          · rcases List.mem_cons.mp inside with rfl | inside
            · exact ⟨_, second⟩
            · exact ih.2 byte inside
  · rintro ⟨even, numeric⟩
    induction numerals using List.twoStepInduction with
    | nil => exact ⟨[], .none⟩
    | singleton => cases even
    | cons_cons high low rest ih _ =>
        obtain ⟨upper, first⟩ := numeric high List.mem_cons_self
        obtain ⟨lower, second⟩ := numeric low (List.mem_cons_of_mem _ List.mem_cons_self)
        obtain ⟨bytes, others⟩ := ih
          (by rw [List.length_cons, List.length_cons] at even; omega)
          fun byte inside =>
            numeric byte (List.mem_cons_of_mem _ (List.mem_cons_of_mem _ inside))
        exact ⟨_, .pair first second others⟩

/-- **The runs that spell something** are those of the grammar. -/
theorem wellFormed_iff {run : Bytes} : WellFormed run ↔ ∃ bytes, Spells run bytes := by
  constructor
  · rintro ⟨mark, known, numerals, whole, filled, even, numeric⟩
    obtain ⟨bytes, pairs⟩ := exists_digitPairs_iff.mpr ⟨even, numeric⟩
    exact ⟨bytes, mark, known, numerals, whole, filled, pairs⟩
  · rintro ⟨bytes, mark, known, numerals, whole, filled, pairs⟩
    obtain ⟨even, numeric⟩ := exists_digitPairs_iff.mp ⟨bytes, pairs⟩
    exact ⟨mark, known, numerals, whole, filled, even, numeric⟩

/-! ### Dumps -/

/-- **Tokens that are all read**: what they are read as is what they spell, one after the other. -/
theorem values_eq_ok_iff {runs : List Token} {out : Bytes} :
    values runs = .ok out ↔
      ∃ pieces, List.Forall₂ (fun token piece => Spells token.bytes piece) runs pieces ∧
        out = pieces.flatten := by
  induction runs generalizing out with
  | nil =>
      constructor
      · intro read
        obtain rfl := Except.ok.inj read
        exact ⟨[], .nil, rfl⟩
      · rintro ⟨pieces, spelled, rfl⟩
        cases spelled
        rfl
  | cons token rest ih =>
      rw [values]
      constructor
      · intro read
        split at read
        · cases read
        · next piece spells =>
          cases others : values rest with
          | error fault =>
              rw [others] at read
              cases read
          | ok bytes =>
              rw [others] at read
              obtain ⟨pieces, spelled, rfl⟩ := ih.mp others
              obtain rfl := Except.ok.inj read
              exact ⟨piece :: pieces, .cons (value?_eq_some_iff.mp spells) spelled, rfl⟩
      · rintro ⟨pieces, spelled, rfl⟩
        cases spelled with
        | @cons _ piece _ pieces spells spelled =>
            rw [value?_eq_some_iff.mpr spells]
            show (values rest).map _ = _
            rw [ih.mpr ⟨pieces, spelled, rfl⟩]
            rfl

/-- The first of some tokens that is not of the grammar, whatever follows it. -/
def FirstBroken (runs : List Token) (bad : Token) : Prop :=
  ∃ before after, runs = before ++ bad :: after ∧ (∀ token ∈ before, WellFormed token.bytes) ∧
    ¬ WellFormed bad.bytes

theorem not_firstBroken_nil {bad : Token} : ¬ FirstBroken [] bad := by
  rintro ⟨before, after, cut, -⟩
  exact List.append_ne_nil_of_right_ne_nil _ (List.cons_ne_nil _ _) cut.symm

/-- The first token decides, and the others only if it is of the grammar. -/
theorem firstBroken_cons_iff {token bad : Token} {rest : List Token} :
    FirstBroken (token :: rest) bad ↔
      (bad = token ∧ ¬ WellFormed token.bytes) ∨
        (WellFormed token.bytes ∧ FirstBroken rest bad) := by
  constructor
  · rintro ⟨before, after, cut, formed, broken⟩
    cases before with
    | nil =>
        obtain ⟨rfl, -⟩ := List.cons.inj cut
        exact Or.inl ⟨rfl, broken⟩
    | cons head before =>
        obtain ⟨rfl, rfl⟩ := List.cons.inj cut
        obtain ⟨first, others⟩ := List.forall_mem_cons.mp formed
        exact Or.inr ⟨first, before, after, rfl, others, broken⟩
  · rintro (⟨rfl, broken⟩ | ⟨first, before, after, rfl, others, broken⟩)
    · exact ⟨[], rest, rfl, nofun, broken⟩
    · exact ⟨token :: before, after, rfl, List.forall_mem_cons.mpr ⟨first, others⟩, broken⟩

theorem value?_eq_none_iff {token : Token} :
    token.value? = none ↔ ¬ WellFormed token.bytes := by
  rw [wellFormed_iff, Option.eq_none_iff_forall_ne_some, not_exists]
  exact forall_congr' fun bytes => not_congr value?_eq_some_iff

/-- **Tokens that are not all read**: the fault is the first one that is not of the grammar. -/
theorem values_eq_error_iff {runs : List Token} {fault : Fault} :
    values runs = .error fault ↔
      ∃ bad, FirstBroken runs bad ∧ fault = ⟨bad.position, Utf8.text bad.bytes⟩ := by
  induction runs with
  | nil =>
      refine iff_of_false (by rw [values]; exact nofun) ?_
      rintro ⟨bad, first, -⟩
      exact not_firstBroken_nil first
  | cons token rest ih =>
      simp only [firstBroken_cons_iff]
      rw [values]
      by_cases formed : WellFormed token.bytes
      · obtain ⟨bytes, spells⟩ := wellFormed_iff.mp formed
        have passed : (values rest).map (bytes ++ ·) = .error fault ↔
            values rest = .error fault := by
          cases values rest with
          | error other => exact Iff.rfl
          | ok out => exact iff_of_false nofun nofun
        rw [value?_eq_some_iff.mpr spells]
        simpa only [formed, not_true, and_false, true_and, false_or] using passed.trans ih
      · rw [value?_eq_none_iff.mpr formed]
        constructor
        · intro read
          obtain rfl := Except.error.inj read
          exact ⟨token, Or.inl ⟨rfl, formed⟩, rfl⟩
        · rintro ⟨bad, ⟨rfl, -⟩ | ⟨first, -⟩, rfl⟩
          · rfl
          · exact absurd first formed

theorem exists_values_iff {runs : List Token} :
    (∃ out, values runs = .ok out) ↔ ∀ token ∈ runs, WellFormed token.bytes := by
  constructor
  · rintro ⟨out, read⟩
    obtain ⟨pieces, spelled, -⟩ := values_eq_ok_iff.mp read
    clear read
    induction spelled with
    | nil => exact fun token member => absurd member List.not_mem_nil
    | cons spells _ ih => exact List.forall_mem_cons.mpr ⟨wellFormed_iff.mpr ⟨_, spells⟩, ih⟩
  · intro formed
    cases read : values runs with
    | ok out => exact ⟨out, rfl⟩
    | error fault =>
        obtain ⟨bad, ⟨before, after, rfl, _, broken⟩, _⟩ := values_eq_error_iff.mp read
        exact absurd (formed bad (List.mem_append_right _ List.mem_cons_self)) broken

/-- **The grammar of dumps.** A text has one list of maximal runs. It is read when each of them is
of the grammar, as what they spell, one behind the other; otherwise the fault is the first one that
is not, with its place and its text, which are the characters that its bytes are read as. -/
theorem parse_grammar (text : Bytes) :
    ∃ runs : List Token, (∀ list, RunsInOrder text list ↔ list = runs) ∧
      ((∃ out, parse text = .ok out) ↔ ∀ token ∈ runs, WellFormed token.bytes) ∧
      (∀ out, parse text = .ok out ↔
        ∃ pieces, List.Forall₂ (fun token piece => Spells token.bytes piece) runs pieces ∧
          out = pieces.flatten) ∧
      (∀ fault, parse text = .error fault ↔
        ∃ bad, FirstBroken runs bad ∧ fault = ⟨bad.position, Utf8.text bad.bytes⟩) ∧
      ∀ bad, FirstBroken runs bad →
        ∃ token, parse text = .error ⟨bad.position, token⟩ ∧
          Utf8.Reads bad.bytes token.toList := by
  refine ⟨tokens text, fun _ => runsInOrder_iff, exists_values_iff, fun _ => values_eq_ok_iff,
    fun _ => values_eq_error_iff, fun bad first => ⟨Utf8.text bad.bytes, ?_, ?_⟩⟩
  · exact values_eq_error_iff.mpr ⟨bad, first, rfl⟩
  · exact Utf8.reads_text bad.bytes

end Edid.HexText
