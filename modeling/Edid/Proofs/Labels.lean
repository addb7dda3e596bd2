/-
**Labels are read back.** A label spells a width and a height in figures, without zeros in front,
with an `x` between them and an `i` behind them if the area is interlaced. None of the letters is a
figure, so a label falls apart in one way only. Labels have no commas, blanks or line feeds either,
and the lists that are printed fall apart into them: one on a line, or one behind the other on a
line of the report. The notice that there are none is no label, and an empty line has none.

* `number?_eq_some_iff`, `ofLabel?_eq_some_iff`: what is read as a number and as a label is exactly
  what is printed;
* `ofListing?_resolutionText`, `ofReportLine?_line`: the two lists, read back;
* `labels_unambiguous`: labels and lists by the resolutions they stand for.
-/

import Edid.Proofs.ReportLines

namespace Edid

namespace Resolution

/-! ### Labels -/

/-- Reads a number as it is printed, which is without zeros in front. -/
def number? (digits : List Char) : Option UInt16 :=
  let value := UInt16.ofNat (Nat.ofDigitChars 10 digits 0)
  if Nat.toDigits 10 value.toNat = digits then some value else none

/-- Reads a width and a height with an `x` between them. -/
def sides? (text : List Char) : Option (UInt16 × UInt16) :=
  match text.splitOn 'x' with
  | [width, height] => (number? width).bind fun width => (number? height).map (width, ·)
  | _ => none

/-- Reads a label. -/
def ofLabel? (label : String) : Option Resolution :=
  if label.toList.getLast? = some 'i' then
    (sides? label.toList.dropLast).map fun (width, height) => .interlacedArea width height
  else (sides? label.toList).map fun (width, height) => .progressive width height

theorem number?_eq_some_iff {digits : List Char} {value : UInt16} :
    number? digits = some value ↔ digits = Nat.toDigits 10 value.toNat := by
  unfold number?
  constructor
  · intro read
    dsimp only at read
    split_ifs at read with printed
    rw [← Option.some.inj read, printed]
  · rintro rfl
    rw [Nat.ofDigitChars_ten_toDigits, UInt16.ofNat_toNat]
    exact if_pos rfl

/-- The sides of a label in figures. -/
def spelled (width height : UInt16) : List Char :=
  Nat.toDigits 10 width.toNat ++ 'x' :: Nat.toDigits 10 height.toNat

theorem sides?_eq_some_iff {text : List Char} {width height : UInt16} :
    sides? text = some (width, height) ↔ text = spelled width height := by
  have across (number : Nat) : 'x' ∉ Nat.toDigits 10 number := notMem_toDigits rfl number
  unfold sides? spelled
  constructor
  · intro read
    split at read
    · next front back parts =>
        have whole : ['x'].intercalate (text.splitOn 'x') = text := List.intercalate_splitOn 'x'
        rw [parts] at whole
        obtain ⟨one, first, rest⟩ := Option.bind_eq_some_iff.mp read
        obtain ⟨other, second, pair⟩ := Option.map_eq_some_iff.mp rest
        obtain ⟨rfl, rfl⟩ := Prod.mk.inj pair
        rw [← whole, number?_eq_some_iff.mp first, number?_eq_some_iff.mp second]
        simp [List.intercalate]
    · cases read
  · rintro rfl
    rw [List.splitOn_append_cons_self_of_not_mem (across _), List.splitOn_eq_singleton (across _)]
    dsimp only
    rw [number?_eq_some_iff.mpr rfl, number?_eq_some_iff.mpr rfl]
    rfl

theorem toList_label (resolution : Resolution) :
    resolution.label.toList = spelled resolution.width resolution.height ++
      if resolution.interlaced then ['i'] else [] := by
  have mark : (if resolution.interlaced then "i" else "").toList =
      if resolution.interlaced then ['i'] else [] := by
    cases resolution.interlaced <;> rfl
  rw [label, String.toList_append, String.toList_append, String.toList_append, mark,
    Nat.toString_eq_ofList_toDigits, Nat.toString_eq_ofList_toDigits, spelled]
  simp only [String.toList_ofList, List.append_assoc]
  rfl

theorem getLast?_spelled (width height : UInt16) : (spelled width height).getLast? ≠ some 'i' := by
  intro last
  have member := List.mem_of_getLast? last
  rw [spelled, List.mem_append, List.mem_cons] at member
  rcases member with front | mark | back
  · exact notMem_toDigits rfl _ front
  · exact absurd mark (by decide)
  · exact notMem_toDigits rfl _ back

/-- **Labels are read** as the resolutions that they are printed for, and nothing else is read. -/
theorem ofLabel?_eq_some_iff {text : String} {resolution : Resolution} :
    ofLabel? text = some resolution ↔ text = resolution.label := by
  rw [← String.toList_inj, toList_label]
  unfold ofLabel?
  generalize text.toList = text
  constructor
  · intro read
    split_ifs at read with mark
    · obtain ⟨⟨width, height⟩, sides, rfl⟩ := Option.map_eq_some_iff.mp read
      obtain ⟨front, rfl⟩ := List.getLast?_eq_some_iff.mp mark
      rw [List.dropLast_concat] at sides
      rw [sides?_eq_some_iff.mp sides]
      rfl
    · obtain ⟨⟨width, height⟩, sides, rfl⟩ := Option.map_eq_some_iff.mp read
      exact (sides?_eq_some_iff.mp sides).trans (List.append_nil _).symm
  · rintro rfl
    obtain ⟨width, height, interlaced⟩ := resolution
    have sides : sides? (spelled width height) = some (width, height) :=
      sides?_eq_some_iff.mpr rfl
    cases interlaced with
    | true =>
        show (if (spelled width height ++ ['i']).getLast? = some 'i' then
          (sides? (spelled width height ++ ['i']).dropLast).map _ else _) = _
        rw [if_pos List.getLast?_concat, List.dropLast_concat, sides]
        rfl
    | false =>
        show (if (spelled width height ++ []).getLast? = some 'i' then _ else
          (sides? (spelled width height ++ [])).map _) = _
        rw [List.append_nil, if_neg (getLast?_spelled width height), sides]
        rfl

/-- A zero in front is not printed, and so not read. -/
example : ofLabel? "0640x480" = none := by decide +kernel

theorem label_inj {one other : Resolution} : one.label = other.label ↔ one = other := by
  constructor
  · intro same
    have read : ofLabel? one.label = some one := ofLabel?_eq_some_iff.mpr rfl
    rw [same, ofLabel?_eq_some_iff.mpr rfl] at read
    exact (Option.some.inj read).symm
  · rintro rfl
    rfl

theorem ofLabel?_label (resolution : Resolution) :
    ofLabel? resolution.label = some resolution := ofLabel?_eq_some_iff.mpr rfl

/-- Texts that are read one by one. -/
theorem mapM_map_of_reads {α : Type} {read : α → Option Resolution} {write : Resolution → α}
    (reads : ∀ resolution, read (write resolution) = some resolution)
    (resolutions : List Resolution) : (resolutions.map write).mapM read = some resolutions := by
  induction resolutions with
  | nil => rfl
  | cons first rest ih =>
      rw [List.map_cons, List.mapM_cons, reads, ih]
      rfl

/-! ### The list on its own -/

/-- Reads the list of resolutions that is printed one on a line. -/
def ofListing? (text : String) : Option (List Resolution) :=
  if text = "No resolutions advertised.\n" then some []
  else (textLines text).dropLast.mapM ofLabel?

/-- **The list on its own** is read back. -/
theorem ofListing?_resolutionText (resolutions : List Resolution) :
    ofListing? (resolutionText (resolutions.map label)) = some resolutions := by
  unfold ofListing?
  split_ifs with notice
  · rw [List.map_eq_nil_iff.mp (resolutionText_eq_iff.mp notice)]
  · have filled : resolutions.map label ≠ [] := mt resolutionText_eq_iff.mpr notice
    have lines : ∀ line ∈ resolutions.map label, Lacks '\n' line :=
      List.forall_mem_map.mpr fun resolution _ => lacks_label rfl (by decide) (by decide) resolution
    rw [resolutionText, if_neg filled, textLines_join lines, List.dropLast_concat,
      mapM_map_of_reads ofLabel?_label]

/-! ### The line of the report -/

/-- What stands in front of the resolutions on their line. -/
def lineTitle : String := "  Resolutions: "

/-- Reads a label with blanks in front. -/
def ofPiece? (piece : List Char) : Option Resolution :=
  ofLabel? (String.ofList (piece.dropWhile (· == ' ')))

/-- Reads the list of resolutions on their line of a report. -/
def ofReportLine? (line : String) : Option (List Resolution) :=
  if line = lineTitle then some []
  else ((line.toList.drop lineTitle.length).splitOn ',').mapM ofPiece?

theorem splitOn_intercalate_comma {first : List Char} {rest : List (List Char)}
    (each : ∀ piece ∈ first :: rest, ',' ∉ piece) :
    ([',', ' '].intercalate (first :: rest)).splitOn ',' = first :: rest.map (' ' :: ·) := by
  -- The blank of a separator belongs to the piece behind it, so the first piece is any list.
  induction rest generalizing first with
  | nil =>
      rw [List.intercalate_singleton, List.splitOn_eq_singleton (each first List.mem_cons_self)]
      rfl
  | cons second rest ih =>
      obtain ⟨one, others⟩ := List.forall_mem_cons.mp each
      obtain ⟨next, behind⟩ := List.forall_mem_cons.mp others
      have blank : ',' ∉ ' ' :: second := List.not_mem_cons_of_ne_of_not_mem (by decide) next
      have pieces := ih (List.forall_mem_cons.mpr ⟨blank, behind⟩)
      rw [List.intercalate_cons_cons_left] at pieces
      rw [List.intercalate_cons_cons, List.append_assoc, List.cons_append, List.cons_append,
        List.nil_append, List.splitOn_append_cons_self_of_not_mem one, pieces]
      rfl

theorem ofPiece?_label (resolution : Resolution) :
    ofPiece? resolution.label.toList = some resolution ∧
      ofPiece? (' ' :: resolution.label.toList) = some resolution := by
  have solid : resolution.label.toList.dropWhile (· == ' ') = resolution.label.toList := by
    obtain ⟨digit, begins, numeral⟩ := head_label resolution
    obtain ⟨rest, spelled⟩ := List.head?_eq_some_iff.mp begins
    have letter : ¬ (digit == ' ') = true := by
      rintro blank
      rw [beq_iff_eq.mp blank] at numeral
      exact absurd numeral (by decide)
    rw [spelled]
    exact List.dropWhile_cons_of_neg letter
  have read : ofPiece? resolution.label.toList = some resolution := by
    rw [ofPiece?, solid, String.ofList_toList, ofLabel?_label]
  exact ⟨read, read⟩

theorem label_ne_empty (resolution : Resolution) : resolution.label ≠ "" := by
  intro empty
  obtain ⟨digit, begins, -⟩ := head_label resolution
  rw [empty] at begins
  cases begins

/-- **The line of the report** is read back. -/
theorem ofReportLine?_line (resolutions : List Resolution) :
    ofReportLine? (lineTitle ++ ", ".intercalate (resolutions.map label)) = some resolutions := by
  cases resolutions with
  | nil => rfl
  | cons first rest =>
      have filled : lineTitle ++ ", ".intercalate ((first :: rest).map label) ≠ lineTitle := by
        rw [List.map_cons, intercalate_cons]
        intro empty
        have none := (String.append_right_inj lineTitle).mp (empty.trans String.append_empty.symm)
        exact label_ne_empty first (String.append_eq_empty_iff.mp none).1
      have behind : (lineTitle ++ ", ".intercalate ((first :: rest).map label)).toList.drop
          lineTitle.length = [',', ' '].intercalate ((first :: rest).map (·.label.toList)) := by
        rw [String.toList_append, List.drop_left' String.length_toList, String.toList_intercalate,
          List.map_map]
        rfl
      have solid : ∀ piece ∈ (first :: rest).map (·.label.toList), ',' ∉ piece :=
        List.forall_mem_map.mpr fun resolution _ =>
          lacks_label rfl (by decide) (by decide) resolution
      have others : ((rest.map (·.label.toList)).map (' ' :: ·)).mapM ofPiece? = some rest := by
        rw [List.map_map]
        exact mapM_map_of_reads (fun resolution => (ofPiece?_label resolution).2) rest
      rw [ofReportLine?, if_neg filled, behind]
      rw [List.map_cons] at solid ⊢
      rw [splitOn_intercalate_comma solid, List.mapM_cons, (ofPiece?_label first).1, others]
      rfl

end Resolution

/-- **Labels and lists of labels** stand for one thing only. Labels are the same exactly when their
resolutions are, and each is read as the resolution that it is printed for. For a buffer with a
whole base block, the summary has no string twice among its resolutions, and what is printed as the
list of resolutions, like the last line of the report, is read as the resolutions of the buffer in
their order, even if there are none. -/
theorem labels_unambiguous :
    (∀ one other : Resolution, one.label = other.label ↔ one = other) ∧
    (∀ (text : String) (resolution : Resolution),
      Resolution.ofLabel? text = some resolution ↔ text = resolution.label) ∧
    ∀ bytes : Bytes, blockLength ≤ bytes.length →
      ∃ set info, (resolutions bytes).run.value = .ok set ∧
        (Summary.ofBytes bytes).run.value = .ok info ∧
        info.resolutions = set.entries.map Resolution.label ∧ info.resolutions.Nodup ∧
        (∀ made, Resolution.ofListing? (Presentation.resolutions made bytes).run.printed =
          some set.entries) ∧
        ∃ line, (textLines info.report).getLast? = some line ∧
          Resolution.ofReportLine? line = some set.entries := by
  refine ⟨fun _ _ => Resolution.label_inj, fun _ _ => Resolution.ofLabel?_eq_some_iff,
    fun bytes whole => ?_⟩
  have labels : (Decoded.summary bytes).resolutions =
      (Decoded.resolutions bytes).entries.map Resolution.label := rfl
  have last : (textLines (Decoded.summary bytes).report).getLast? =
      some (Resolution.lineTitle ++ ", ".intercalate (Decoded.summary bytes).resolutions) := by
    rw [Decoded.textLines_report, List.getLast?_append]
    rfl
  refine ⟨Decoded.resolutions bytes, Decoded.summary bytes, decodes_advertised.served whole,
    decodes_summary.served whole, labels, ?_, fun made => ?_, _, last, ?_⟩
  · rw [labels]
    exact (Decoded.resolutions bytes).distinct.map fun _ _ => Resolution.label_inj.mp
  · rw [((shows_resolutions made).shown whole).printed, labels]
    exact Resolution.ofListing?_resolutionText _
  · rw [labels]
    exact Resolution.ofReportLine?_line _

/-- The lists of the sample, read back, and a label of an interlaced area. -/
theorem labels_unambiguous_sample :
    blockLength ≤ sample.length ∧
      Resolution.ofLabel? "1920x1080i" = some (.interlacedArea 1920 1080) ∧
      ∃ set info, (resolutions sample).run.value = .ok set ∧
        (Summary.ofBytes sample).run.value = .ok info ∧ info.resolutions.Nodup ∧
        Resolution.ofListing? (Presentation.resolutions none sample).run.printed =
          some set.entries ∧
        ∃ line, (textLines info.report).getLast? = some line ∧
          Resolution.ofReportLine? line = some set.entries := by
  have whole : blockLength ≤ sample.length := by decide +kernel
  obtain ⟨-, read, lists⟩ := labels_unambiguous
  obtain ⟨set, info, listed, summed, -, distinct, printed, last⟩ := lists sample whole
  exact ⟨whole, (read _ _).mpr (by decide +kernel), set, info, listed, summed, distinct,
    printed none, last⟩

end Edid
