/-
**Bytes and the characters they are read as.** Lossy reading is pinned down without its table of
leading bytes. Where the bytes of a character stand, they are read as this character; so a text is
read back from its bytes. Where none does, bytes are given up for one replacement character: at
least the first one, and with it as many as some character begins with.

* `exists_form`, `exists_character`: the table has the bytes of all characters, and no others;
* `prefix_continuation_iff`, `begins_cons_iff`: what a character can begin with;
* `reads_iff`: what any bytes are read as;
* `text_toUTF8`: the bytes of a text are read as the text;
* `text_of_ascii`: bytes below `0x80` are read one by one.
-/

import Mathlib.Data.List.Basic
import Mathlib.Tactic.SplitIfs
import Edid.Text.Utf8

namespace Edid.Utf8

/-! ### Forms by the number of the leading byte -/

section Forms

variable {lead : UInt8}

theorem form?_eq (lead : UInt8) : form? lead =
    if lead.toNat < 0x80 then some ⟨0, 0x80, 0xBF, lead.toNat⟩
    else if 0xC2 ≤ lead.toNat ∧ lead.toNat ≤ 0xDF then some ⟨1, 0x80, 0xBF, lead.toNat - 0xC0⟩
    else if lead.toNat = 0xE0 then some ⟨2, 0xA0, 0xBF, lead.toNat - 0xE0⟩
    else if lead.toNat = 0xED then some ⟨2, 0x80, 0x9F, lead.toNat - 0xE0⟩
    else if 0xE1 ≤ lead.toNat ∧ lead.toNat ≤ 0xEF then some ⟨2, 0x80, 0xBF, lead.toNat - 0xE0⟩
    else if lead.toNat = 0xF0 then some ⟨3, 0x90, 0xBF, lead.toNat - 0xF0⟩
    else if 0xF1 ≤ lead.toNat ∧ lead.toNat ≤ 0xF3 then some ⟨3, 0x80, 0xBF, lead.toNat - 0xF0⟩
    else if lead.toNat = 0xF4 then some ⟨3, 0x80, 0x8F, lead.toNat - 0xF0⟩
    else none := by
  unfold form?
  simp only [UInt8.lt_iff_toNat_lt, UInt8.le_iff_toNat_le, ← UInt8.toNat_inj, UInt8.reduceToNat]

theorem form?_one (small : lead.toNat < 0x80) : form? lead = some ⟨0, 0x80, 0xBF, lead.toNat⟩ :=
  if_pos (UInt8.lt_iff_toNat_lt.mpr small)

theorem form?_two (least : 0xC2 ≤ lead.toNat) (greatest : lead.toNat ≤ 0xDF) :
    form? lead = some ⟨1, 0x80, 0xBF, lead.toNat - 0xC0⟩ := by
  rw [form?_eq]
  split_ifs <;> first | rfl | omega

theorem form?_three (least : 0xE0 ≤ lead.toNat) (greatest : lead.toNat ≤ 0xEF) :
    form? lead = some ⟨2, if lead.toNat = 0xE0 then 0xA0 else 0x80,
      if lead.toNat = 0xED then 0x9F else 0xBF, lead.toNat - 0xE0⟩ := by
  rw [form?_eq]
  split_ifs <;> first | rfl | omega

theorem form?_four (least : 0xF0 ≤ lead.toNat) (greatest : lead.toNat ≤ 0xF4) :
    form? lead = some ⟨3, if lead.toNat = 0xF0 then 0x90 else 0x80,
      if lead.toNat = 0xF4 then 0x8F else 0xBF, lead.toNat - 0xF0⟩ := by
  rw [form?_eq]
  split_ifs <;> first | rfl | omega

theorem form?_none (outside : 0x80 ≤ lead.toNat ∧ lead.toNat < 0xC2 ∨ 0xF4 < lead.toNat) :
    form? lead = none := by
  rw [form?_eq]
  split_ifs <;> first | rfl | omega

theorem le_of_form {form : Form} (led : form? lead = some form) : form.least ≤ form.greatest := by
  rw [form?_eq] at led
  split_ifs at led
  all_goals
    obtain rfl := Option.some_inj.mp led
    dsimp only
    decide

end Forms

/-! ### Bytes that continue a sequence -/

/-- Bytes that complete a sequence: the first one within the bounds given, the others any
continuation byte, and as many as are asked for. -/
inductive Completes : Nat → UInt8 → UInt8 → List UInt8 → Prop
  | done {least greatest : UInt8} : Completes 0 least greatest []
  | more {following : Nat} {least greatest byte : UInt8} {rest : List UInt8}
      (above : least ≤ byte) (below : byte ≤ greatest)
      (others : Completes following 0x80 0xBF rest) :
      Completes (following + 1) least greatest (byte :: rest)

theorem continuation_nil (following : Nat) (least greatest : UInt8) :
    continuation following least greatest [] = [] := by
  rw [continuation]

theorem continuation_zero (least greatest : UInt8) (bytes : List UInt8) :
    continuation 0 least greatest bytes = [] := by
  cases bytes <;> rw [continuation]

theorem continuation_succ (more : Nat) (least greatest byte : UInt8) (rest : List UInt8) :
    continuation (more + 1) least greatest (byte :: rest) =
      if least ≤ byte ∧ byte ≤ greatest then byte :: continuation more 0x80 0xBF rest else [] := by
  rw [continuation]

section Continuation

variable {following : Nat} {least greatest : UInt8} {part taken bytes : List UInt8}

/-- **The bytes that continue a sequence** are the longest beginning all of which continues it. -/
theorem prefix_continuation_iff :
    part <+: continuation following least greatest bytes ↔
      part <+: bytes ∧ continuation following least greatest part = part := by
  induction bytes generalizing following least greatest part with
  | nil =>
      rw [continuation_nil, List.prefix_nil]
      exact ⟨fun empty => ⟨empty, empty ▸ continuation_nil _ _ _⟩, And.left⟩
  | cons byte rest ih =>
      cases part with
      | nil => exact iff_of_true List.nil_prefix ⟨List.nil_prefix, continuation_nil _ _ _⟩
      | cons first others =>
          cases following with
          | zero => simp [continuation_zero]
          | succ more =>
              rw [continuation_succ, continuation_succ, List.cons_prefix_cons]
              by_cases same : first = byte
              · subst same
                split
                · simp [ih]
                · simp
              · have apart : ¬ first :: others <+: (if least ≤ byte ∧ byte ≤ greatest then
                    byte :: continuation more 0x80 0xBF rest else []) := by
                  split
                  · exact fun begins => same (List.cons_prefix_cons.mp begins).1
                  · exact List.cons_ne_nil _ _ ∘ List.prefix_nil.mp
                exact iff_of_false apart fun both => same both.1.1

theorem continuation_prefix (following : Nat) (least greatest : UInt8) (bytes : List UInt8) :
    continuation following least greatest bytes <+: bytes :=
  (prefix_continuation_iff.mp List.prefix_rfl).1

theorem continuation_continuation (following : Nat) (least greatest : UInt8) (bytes : List UInt8) :
    continuation following least greatest (continuation following least greatest bytes) =
      continuation following least greatest bytes :=
  (prefix_continuation_iff.mp List.prefix_rfl).2

/-- Bytes that continue a sequence are all that do, if the one behind them does not. -/
theorem continuation_append_of_stop
    (continued : continuation following least greatest part = part) {rest : List UInt8}
    (stop : ∀ byte ∈ rest.head?,
      continuation following least greatest (part ++ [byte]) ≠ part ++ [byte]) :
    continuation following least greatest (part ++ rest) = part := by
  have begins : part <+: continuation following least greatest (part ++ rest) :=
    prefix_continuation_iff.mpr ⟨List.prefix_append _ _, continued⟩
  obtain ⟨more, extended⟩ := begins
  have inside := continuation_prefix following least greatest (part ++ rest)
  rw [← extended, List.prefix_append_right_inj] at inside
  cases more with
  | nil => rw [← extended, List.append_nil]
  | cons byte others =>
      obtain ⟨later, rfl⟩ := inside
      have longer : part ++ [byte] <+:
          continuation following least greatest (part ++ (byte :: others ++ later)) :=
        ⟨others, by rw [← extended, List.append_assoc]; rfl⟩
      exact absurd (prefix_continuation_iff.mp longer).2 (stop byte rfl)

namespace Completes

theorem length_eq (completes : Completes following least greatest taken) :
    taken.length = following := by
  induction completes with
  | done => rfl
  | more _ _ _ ih => rw [List.length_cons, ih]

theorem continuation_append (completes : Completes following least greatest taken)
    (rest : List UInt8) : continuation following least greatest (taken ++ rest) = taken := by
  induction completes with
  | done => exact continuation_zero _ _ _
  | more above below _ ih => rw [List.cons_append, continuation_succ, if_pos ⟨above, below⟩, ih]

/-- The first bytes of a sequence continue it. -/
theorem continuation_of_prefix (completes : Completes following least greatest taken)
    (begins : part <+: taken) : continuation following least greatest part = part := by
  have whole := completes.continuation_append []
  rw [List.append_nil] at whole
  rw [← whole] at begins
  exact (prefix_continuation_iff.mp begins).2

end Completes

/-- As many bytes as are asked for complete the sequence that they continue. -/
theorem completes_of_length (continued : continuation following least greatest part = part)
    (full : part.length = following) : Completes following least greatest part := by
  induction part generalizing following least greatest with
  | nil =>
      obtain rfl := full
      exact .done
  | cons byte others ih =>
      obtain rfl := full
      rw [List.length_cons, continuation_succ] at continued
      split at continued
      · next within => exact .more within.1 within.2 (ih (List.cons.inj continued).2 rfl)
      · cases continued

theorem exists_completes (filled : least ≤ greatest) :
    ∃ taken, Completes following least greatest taken := by
  induction following generalizing least greatest with
  | zero => exact ⟨[], .done⟩
  | succ more ih =>
      obtain ⟨rest, others⟩ := ih (by decide : (0x80 : UInt8) ≤ 0xBF)
      exact ⟨least :: rest, .more (UInt8.le_refl _) filled others⟩

/-- Bytes that continue a sequence can be completed. -/
theorem exists_completes_append (filled : least ≤ greatest)
    (continued : continuation following least greatest part = part) :
    ∃ rest, Completes following least greatest (part ++ rest) := by
  induction part generalizing following least greatest with
  | nil => exact exists_completes filled
  | cons byte others ih =>
      cases following with
      | zero =>
          rw [continuation_zero] at continued
          cases continued
      | succ more =>
          rw [continuation_succ] at continued
          split at continued
          · next within =>
            obtain ⟨rest, completes⟩ := ih (by decide) (List.cons.inj continued).2
            exact ⟨rest, .more within.1 within.2 completes⟩
          · cases continued

end Continuation

/-! ### The bytes of a character -/

/-- The bytes of a character by its number. -/
theorem encode_eq (character : Char) : String.utf8EncodeChar character =
    if character.toNat ≤ 0x7F then [.ofNat character.toNat]
    else if character.toNat ≤ 0x7FF then
      [.ofNat (character.toNat / 64 % 32 + 0xC0), .ofNat (character.toNat % 64 + 0x80)]
    else if character.toNat ≤ 0xFFFF then
      [.ofNat (character.toNat / 4096 % 16 + 0xE0), .ofNat (character.toNat / 64 % 64 + 0x80),
        .ofNat (character.toNat % 64 + 0x80)]
    else
      [.ofNat (character.toNat / 262144 % 8 + 0xF0), .ofNat (character.toNat / 4096 % 64 + 0x80),
        .ofNat (character.toNat / 64 % 64 + 0x80), .ofNat (character.toNat % 64 + 0x80)] :=
  rfl

theorem toNat_ofNat_of_le {value : Nat} (small : value ≤ 0xFF) :
    (UInt8.ofNat value).toNat = value :=
  UInt8.toNat_ofNat_of_lt' (Nat.lt_succ_of_le small)

theorem completes_ofNat {following value : Nat} {least greatest : UInt8} {rest : List UInt8}
    (above : least.toNat ≤ value) (below : value ≤ greatest.toNat)
    (others : Completes following 0x80 0xBF rest) :
    Completes (following + 1) least greatest (.ofNat value :: rest) := by
  have same : (UInt8.ofNat value).toNat = value :=
    toNat_ofNat_of_le (Nat.le_trans below (Nat.le_of_lt_succ greatest.toNat_lt))
  refine .more (UInt8.le_iff_toNat_le.mpr ?_) (UInt8.le_iff_toNat_le.mpr ?_) others
  · rwa [same]
  · rwa [same]

theorem completes_tail {following : Nat} {rest : List UInt8} (value : Nat)
    (others : Completes following 0x80 0xBF rest) :
    Completes (following + 1) 0x80 0xBF (.ofNat (value % 64 + 0x80) :: rest) :=
  completes_ofNat (by show 128 ≤ _; omega) (by show _ ≤ 191; omega) others

theorem number_cons (bits : Nat) (byte : UInt8) (rest : List UInt8) :
    number bits (byte :: rest) = number (bits * 64 + (byte.toNat - 0x80)) rest := by
  rw [number, List.foldl_cons, number]

theorem number_tail (bits value : Nat) (rest : List UInt8) :
    number bits (.ofNat (value % 64 + 0x80) :: rest) = number (bits * 64 + value % 64) rest := by
  rw [number_cons, toNat_ofNat_of_le (by omega), Nat.add_sub_cancel]

theorem toNat_ite (condition : Prop) [Decidable condition] (first second : UInt8) :
    (if condition then first else second).toNat =
      if condition then first.toNat else second.toNat :=
  apply_ite UInt8.toNat condition first second

/-- **The bytes of a character** complete the form of the first one and make up its number. -/
theorem exists_form (character : Char) :
    ∃ lead taken form, String.utf8EncodeChar character = lead :: taken ∧ form? lead = some form ∧
      Completes form.following form.least form.greatest taken ∧
      number form.bits taken = character.toNat := by
  have valid : character.toNat < 0xD800 ∨ 0xDFFF < character.toNat ∧ character.toNat < 0x110000 :=
    character.valid
  rw [encode_eq]
  split_ifs with one two three
  · have lead := toNat_ofNat_of_le (Nat.le_trans one (by decide))
    exact ⟨_, _, _, rfl, form?_one (by omega), .done, lead⟩
  · have lead : (UInt8.ofNat (character.toNat / 64 % 32 + 0xC0)).toNat = _ :=
      toNat_ofNat_of_le (by omega)
    refine ⟨_, _, _, rfl, form?_two (by omega) (by omega), completes_tail _ .done, ?_⟩
    dsimp only
    rw [number_tail, lead]
    show (_ * 64 + _ : Nat) = _
    omega
  -- The second byte keeps out what has a shorter sequence, and the surrogates.
  · have lead : (UInt8.ofNat (character.toNat / 4096 % 16 + 0xE0)).toNat = _ :=
      toNat_ofNat_of_le (by omega)
    refine ⟨_, _, _, rfl, form?_three (by omega) (by omega),
      completes_ofNat ?_ ?_ (completes_tail _ .done), ?_⟩
    · rw [lead, toNat_ite]
      show (if _ then 160 else 128) ≤ _
      split_ifs <;> omega
    · rw [lead, toNat_ite]
      show _ ≤ if _ then 159 else 191
      split_ifs <;> omega
    · dsimp only
      rw [number_tail, number_tail, lead]
      show ((_ * 64 + _) * 64 + _ : Nat) = _
      omega
  -- Here it keeps out what has a shorter sequence, and what is past the last character.
  · have lead : (UInt8.ofNat (character.toNat / 262144 % 8 + 0xF0)).toNat = _ :=
      toNat_ofNat_of_le (by omega)
    refine ⟨_, _, _, rfl, form?_four (by omega) (by omega),
      completes_ofNat ?_ ?_ (completes_tail _ (completes_tail _ .done)), ?_⟩
    · rw [lead, toNat_ite]
      show (if _ then 144 else 128) ≤ _
      split_ifs <;> omega
    · rw [lead, toNat_ite]
      show _ ≤ if _ then 143 else 191
      split_ifs <;> omega
    · dsimp only
      rw [number_tail, number_tail, number_tail, lead]
      show (((_ * 64 + _) * 64 + _) * 64 + _ : Nat) = _
      omega

/-! ### The character of a sequence -/

theorem exists_toNat_eq {value : Nat} (valid : value.isValidChar) :
    ∃ character : Char, character.toNat = value :=
  ⟨Char.ofNatAux value valid, rfl⟩

theorem ofNat_of_toNat {byte : UInt8} {value : Nat} (same : byte.toNat = value) :
    UInt8.ofNat value = byte := by
  rw [← same, UInt8.ofNat_toNat]

section Sequences

variable {lead second third fourth : UInt8}

theorem exists_character_two (low : 0xC2 ≤ lead.toNat) (high : lead.toNat < 0xE0)
    (least : 0x80 ≤ second.toNat) (greatest : second.toNat ≤ 0xBF) :
    ∃ character, String.utf8EncodeChar character = [lead, second] ∧
      number (lead.toNat - 0xC0) [second] = character.toNat := by
  have valid : Nat.isValidChar ((lead.toNat - 0xC0) * 64 + (second.toNat - 0x80)) :=
    Or.inl (by omega)
  obtain ⟨character, same⟩ := exists_toNat_eq valid
  refine ⟨character, ?_, (number_cons _ _ _).trans same.symm⟩
  have one : lead.toNat = character.toNat / 64 % 32 + 0xC0 := by omega
  have two : second.toNat = character.toNat % 64 + 0x80 := by omega
  rw [encode_eq, if_neg (by omega), if_pos (by omega), ofNat_of_toNat one, ofNat_of_toNat two]

theorem exists_character_three (low : 0xE0 ≤ lead.toNat) (high : lead.toNat < 0xF0)
    (least : (if lead.toNat = 0xE0 then 0xA0 else 0x80) ≤ second.toNat)
    (greatest : second.toNat ≤ if lead.toNat = 0xED then 0x9F else 0xBF)
    (tail : 0x80 ≤ third.toNat ∧ third.toNat ≤ 0xBF) :
    ∃ character, String.utf8EncodeChar character = [lead, second, third] ∧
      number (lead.toNat - 0xE0) [second, third] = character.toNat := by
  have value : number (lead.toNat - 0xE0) [second, third] =
      ((lead.toNat - 0xE0) * 64 + (second.toNat - 0x80)) * 64 + (third.toNat - 0x80) := by
    rw [number_cons, number_cons]
    rfl
  have bounds : 0x80 ≤ second.toNat ∧ second.toNat ≤ 0xBF := by
    split_ifs at least greatest <;> omega
  have valid : Nat.isValidChar
      (((lead.toNat - 0xE0) * 64 + (second.toNat - 0x80)) * 64 + (third.toNat - 0x80)) := by
    unfold Nat.isValidChar
    split_ifs at greatest <;> omega
  obtain ⟨character, same⟩ := exists_toNat_eq valid
  refine ⟨character, ?_, value.trans same.symm⟩
  have above : 0x800 ≤ character.toNat := by split_ifs at least <;> omega
  have one : lead.toNat = character.toNat / 4096 % 16 + 0xE0 := by omega
  have two : second.toNat = character.toNat / 64 % 64 + 0x80 := by omega
  have three : third.toNat = character.toNat % 64 + 0x80 := by omega
  rw [encode_eq, if_neg (by omega), if_neg (by omega), if_pos (by omega), ofNat_of_toNat one,
    ofNat_of_toNat two, ofNat_of_toNat three]

theorem exists_character_four (low : 0xF0 ≤ lead.toNat) (high : lead.toNat ≤ 0xF4)
    (least : (if lead.toNat = 0xF0 then 0x90 else 0x80) ≤ second.toNat)
    (greatest : second.toNat ≤ if lead.toNat = 0xF4 then 0x8F else 0xBF)
    (tail : 0x80 ≤ third.toNat ∧ third.toNat ≤ 0xBF)
    (last : 0x80 ≤ fourth.toNat ∧ fourth.toNat ≤ 0xBF) :
    ∃ character, String.utf8EncodeChar character = [lead, second, third, fourth] ∧
      number (lead.toNat - 0xF0) [second, third, fourth] = character.toNat := by
  have value : number (lead.toNat - 0xF0) [second, third, fourth] =
      (((lead.toNat - 0xF0) * 64 + (second.toNat - 0x80)) * 64 + (third.toNat - 0x80)) * 64 +
        (fourth.toNat - 0x80) := by
    rw [number_cons, number_cons, number_cons]
    rfl
  have bounds : 0x80 ≤ second.toNat ∧ second.toNat ≤ 0xBF := by
    split_ifs at least greatest <;> omega
  have valid : Nat.isValidChar
      ((((lead.toNat - 0xF0) * 64 + (second.toNat - 0x80)) * 64 + (third.toNat - 0x80)) * 64 +
        (fourth.toNat - 0x80)) := by
    unfold Nat.isValidChar
    split_ifs at least greatest <;> omega
  obtain ⟨character, same⟩ := exists_toNat_eq valid
  refine ⟨character, ?_, value.trans same.symm⟩
  have above : 0x10000 ≤ character.toNat := by split_ifs at least <;> omega
  have one : lead.toNat = character.toNat / 262144 % 8 + 0xF0 := by omega
  have two : second.toNat = character.toNat / 4096 % 64 + 0x80 := by omega
  have three : third.toNat = character.toNat / 64 % 64 + 0x80 := by omega
  have four : fourth.toNat = character.toNat % 64 + 0x80 := by omega
  rw [encode_eq, if_neg (by omega), if_neg (by omega), if_neg (by omega), ofNat_of_toNat one,
    ofNat_of_toNat two, ofNat_of_toNat three, ofNat_of_toNat four]

/-- **Bytes that complete a form** are those of a character, and make up its number. -/
theorem exists_character {taken : List UInt8} {form : Form} (led : form? lead = some form)
    (completes : Completes form.following form.least form.greatest taken) :
    ∃ character, String.utf8EncodeChar character = lead :: taken ∧
      number form.bits taken = character.toNat := by
  rcases Nat.lt_or_ge lead.toNat 0x80 with one | high
  · rw [form?_one one] at led
    obtain rfl := Option.some_inj.mp led
    cases completes
    obtain ⟨character, same⟩ := exists_toNat_eq (Or.inl (by omega) : lead.toNat.isValidChar)
    exact ⟨character, by rw [encode_eq, if_pos (by omega), same, UInt8.ofNat_toNat], same.symm⟩
  rcases Nat.lt_or_ge lead.toNat 0xC2 with low | high
  · rw [form?_none (Or.inl ⟨by omega, low⟩)] at led
    cases led
  rcases Nat.lt_or_ge lead.toNat 0xE0 with two | high
  · rw [form?_two high (by omega)] at led
    obtain rfl := Option.some_inj.mp led
    obtain _ | ⟨above, below, others⟩ := completes
    cases others
    exact exists_character_two high two (UInt8.le_iff_toNat_le.mp above)
      (UInt8.le_iff_toNat_le.mp below)
  rcases Nat.lt_or_ge lead.toNat 0xF0 with three | high
  · rw [form?_three high (by omega)] at led
    obtain rfl := Option.some_inj.mp led
    obtain _ | ⟨above, below, _ | ⟨least, greatest, others⟩⟩ := completes
    cases others
    rw [UInt8.le_iff_toNat_le, toNat_ite] at above below
    exact exists_character_three high three above below
      ⟨UInt8.le_iff_toNat_le.mp least, UInt8.le_iff_toNat_le.mp greatest⟩
  rcases Nat.lt_or_ge 0xF4 lead.toNat with outside | four
  · rw [form?_none (Or.inr outside)] at led
    cases led
  · rw [form?_four high four] at led
    obtain rfl := Option.some_inj.mp led
    obtain _ | ⟨above, below, _ | ⟨least, greatest, _ | ⟨lower, upper, others⟩⟩⟩ := completes
    cases others
    rw [UInt8.le_iff_toNat_le, toNat_ite] at above below
    exact exists_character_four high four above below
      ⟨UInt8.le_iff_toNat_le.mp least, UInt8.le_iff_toNat_le.mp greatest⟩
      ⟨UInt8.le_iff_toNat_le.mp lower, UInt8.le_iff_toNat_le.mp upper⟩

end Sequences

/-! ### Where no character stands -/

/-- Bytes that some character begins with. -/
def Begins (part : List UInt8) : Prop :=
  ∃ character, part <+: String.utf8EncodeChar character

/-- Bytes that are given up, a leading one and a part behind it: no character stands there, some
character begins with them if they are more than one, and none with them and the byte behind. -/
structure BrokenOff (lead : UInt8) (part rest : List UInt8) : Prop where
  unread : ∀ character, ¬ String.utf8EncodeChar character <+: lead :: (part ++ rest)
  begun : part ≠ [] → Begins (lead :: part)
  longest : ∀ byte ∈ rest.head?, ¬ Begins (lead :: (part ++ [byte]))

section Step

variable {lead : UInt8} {part rest taken bytes : List UInt8}

/-- **What a character begins with**: a leading byte, and bytes that continue its form. -/
theorem begins_cons_iff : Begins (lead :: part) ↔ ∃ form, form? lead = some form ∧
    continuation form.following form.least form.greatest part = part := by
  constructor
  · rintro ⟨character, begins⟩
    obtain ⟨first, taken, form, encoded, led, completes, -⟩ := exists_form character
    rw [encoded] at begins
    obtain ⟨rfl, shorter⟩ := List.cons_prefix_cons.mp begins
    exact ⟨form, led, completes.continuation_of_prefix shorter⟩
  · rintro ⟨form, led, continued⟩
    obtain ⟨rest, completes⟩ := exists_completes_append (le_of_form led) continued
    obtain ⟨character, encoded, -⟩ := exists_character led completes
    refine ⟨character, ?_⟩
    rw [encoded]
    exact List.cons_prefix_cons.mpr ⟨rfl, List.prefix_append _ _⟩

theorem not_begins_of_form (unled : form? lead = none) : ¬ Begins (lead :: part) := by
  rw [begins_cons_iff, unled]
  rintro ⟨form, led, -⟩
  cases led

theorem begins_cons_iff_of_form {form : Form} (led : form? lead = some form) :
    Begins (lead :: part) ↔
      continuation form.following form.least form.greatest part = part := by
  rw [begins_cons_iff, led]
  simp only [Option.some_inj, exists_eq_left']

theorem next_of_encoded {character : Char}
    (encoded : String.utf8EncodeChar character = lead :: taken) (rest : List UInt8) :
    next lead (taken ++ rest) = (character, taken.length) := by
  obtain ⟨_, _, form, same, led, completes, value⟩ := exists_form character
  obtain ⟨rfl, rfl⟩ := List.cons.inj (encoded.symm.trans same)
  unfold next
  rw [led]
  dsimp only
  rw [completes.continuation_append, if_pos completes.length_eq, value, Char.ofNat_toNat]

theorem next_of_brokenOff (broken : BrokenOff lead part rest) :
    next lead (part ++ rest) = (replacement, part.length) := by
  unfold next
  cases led : form? lead with
  | none =>
      have alone : part = [] := by
        by_contra filled
        exact not_begins_of_form led (broken.begun filled)
      rw [alone]
      rfl
  | some form =>
      dsimp only
      have continued : continuation form.following form.least form.greatest part = part := by
        by_cases filled : part = []
        · rw [filled, continuation_nil]
        · exact (begins_cons_iff_of_form led).mp (broken.begun filled)
      have stopped := continuation_append_of_stop continued fun byte first longer =>
        broken.longest byte first ((begins_cons_iff_of_form led).mpr longer)
      have short : ¬ part.length = form.following := by
        intro full
        obtain ⟨character, encoded, -⟩ :=
          exists_character led (completes_of_length continued full)
        refine broken.unread character ?_
        rw [encoded, ← List.cons_append]
        exact List.prefix_append _ _
      rw [stopped, if_neg short]

/-- Where no character stands, some bytes are given up. -/
theorem exists_brokenOff
    (unread : ∀ character, ¬ String.utf8EncodeChar character <+: lead :: bytes) :
    ∃ part rest, bytes = part ++ rest ∧ BrokenOff lead part rest := by
  cases led : form? lead with
  | none =>
      exact ⟨[], bytes, rfl, unread, fun filled => absurd rfl filled,
        fun byte _ => not_begins_of_form led⟩
  | some form =>
      obtain ⟨rest, whole⟩ := continuation_prefix form.following form.least form.greatest bytes
      refine ⟨_, rest, whole.symm, ?_, fun _ => ?_, ?_⟩
      · rwa [whole]
      · exact (begins_cons_iff_of_form led).mpr (continuation_continuation _ _ _ _)
      · intro byte first begins
        obtain ⟨later, rfl⟩ := List.head?_eq_some_iff.mp first
        have inside : continuation form.following form.least form.greatest bytes ++ [byte] <+:
            bytes := ⟨later, by rw [List.append_assoc]; exact whole⟩
        have fits := (prefix_continuation_iff.mpr
          ⟨inside, (begins_cons_iff_of_form led).mp begins⟩).length_le
        rw [List.length_append, List.length_singleton] at fits
        exact absurd fits (Nat.not_succ_le_self _)

end Step

/-! ### Texts -/

theorem decode_encoded (character : Char) (rest : List UInt8) :
    decode (String.utf8EncodeChar character ++ rest) = character :: decode rest := by
  obtain ⟨lead, taken, -, encoded, -⟩ := exists_form character
  rw [encoded, List.cons_append, decode, next_of_encoded encoded, List.drop_left]

theorem decode_brokenOff {lead : UInt8} {part rest : List UInt8}
    (broken : BrokenOff lead part rest) :
    decode (lead :: (part ++ rest)) = replacement :: decode rest := by
  rw [decode, next_of_brokenOff broken, List.drop_left]

/-- Bytes and the characters they are read as: where a character stands, it is read, and where none
does, bytes are given up for one replacement. -/
inductive Reads : List UInt8 → List Char → Prop
  | done : Reads [] []
  | character {rest : List UInt8} {text : List Char} (character : Char)
      (others : Reads rest text) :
      Reads (String.utf8EncodeChar character ++ rest) (character :: text)
  | broken {lead : UInt8} {part rest : List UInt8} {text : List Char}
      (broken : BrokenOff lead part rest) (others : Reads rest text) :
      Reads (lead :: (part ++ rest)) (replacement :: text)

theorem reads_decode (bytes : List UInt8) : Reads bytes (decode bytes) := by
  induction bytes using decode.induct with
  | case1 =>
      rw [decode]
      exact .done
  | case2 lead bytes ih =>
      by_cases stands : ∃ character, String.utf8EncodeChar character <+: lead :: bytes
      · obtain ⟨character, rest, whole⟩ := stands
        obtain ⟨first, taken, -, encoded, -⟩ := exists_form character
        rw [encoded, List.cons_append] at whole
        obtain ⟨rfl, rfl⟩ := List.cons.inj whole
        rw [next_of_encoded encoded, List.drop_left] at ih
        rw [← List.cons_append, ← encoded, decode_encoded]
        exact .character character ih
      · obtain ⟨part, rest, rfl, broken⟩ := exists_brokenOff (not_exists.mp stands)
        rw [next_of_brokenOff broken, List.drop_left] at ih
        rw [decode_brokenOff broken]
        exact .broken broken ih

/-- **What bytes are read as**: every sequence of bytes is read in one way. -/
theorem reads_iff {bytes : List UInt8} {text : List Char} :
    Reads bytes text ↔ decode bytes = text := by
  constructor
  · intro reads
    induction reads with
    | done => rw [decode]
    | character character _ ih => rw [decode_encoded, ih]
    | broken broken _ ih => rw [decode_brokenOff broken, ih]
  · rintro rfl
    exact reads_decode bytes

theorem reads_text (bytes : List UInt8) : Reads bytes (text bytes).toList := by
  rw [text, String.toList_ofList]
  exact reads_decode bytes

theorem decode_flatMap (text : List Char) :
    decode (text.flatMap String.utf8EncodeChar) = text := by
  induction text with
  | nil => rw [List.flatMap_nil, decode]
  | cons character rest ih => rw [List.flatMap_cons, decode_encoded, ih]

/-- **The bytes of a text** are read as the text. -/
theorem text_toUTF8 (written : String) : text written.toUTF8.data.toList = written := by
  have bytes : written.toUTF8.data.toList = written.toList.flatMap String.utf8EncodeChar := by
    conv_lhs => rw [← String.ofList_toList (s := written), String.toUTF8_eq_toByteArray,
      String.toByteArray_ofList, List.utf8Encode, List.toList_data_toByteArray]
  rw [text, bytes, decode_flatMap, String.ofList_toList]

/-- **Bytes below `0x80`** are read one by one. -/
theorem text_of_ascii {bytes : List UInt8} (ascii : ∀ byte ∈ bytes, byte < 0x80) :
    text bytes = String.ofList (bytes.map fun byte => Char.ofNat byte.toNat) := by
  have each : decode bytes = bytes.map fun byte => Char.ofNat byte.toNat := by
    induction bytes with
    | nil => rw [decode, List.map_nil]
    | cons byte rest ih =>
        obtain ⟨small, others⟩ := List.forall_mem_cons.mp ascii
        rw [decode_ascii _ _ small, ih others, List.map_cons]
  rw [text, each]

end Edid.Utf8
