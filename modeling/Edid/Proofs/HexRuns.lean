/-
**The tokens of a dump are its maximal runs.** A run is maximal when it is not empty, holds no
separator and cannot be continued on either side: before it stands a separator or nothing, and so
behind it. The scan finds exactly the maximal runs and lists them by their places, which leaves one
list only.

* `mem_tokensFrom_iff`: the tokens are the maximal runs;
* `pairwise_tokensFrom`: each token begins before the ones behind it;
* `runsInOrder_iff`: no other list has both properties.
-/

import Mathlib.Data.List.Sort
import Mathlib.Data.List.TakeWhile
import Edid.Input.HexText

namespace Edid.HexText

/-- What separates tokens: blank, tab, line feed, form feed, carriage return, comma, colon. -/
def separators : Bytes := [0x20, 0x09, 0x0A, 0x0C, 0x0D, 0x2C, 0x3A]

theorem isSeparator_iff {byte : UInt8} : isSeparator byte = true ↔ byte ∈ separators := by
  unfold isSeparator separators
  simp only [Bool.or_eq_true, beq_iff_eq, List.mem_cons, List.not_mem_nil, or_false, or_assoc]

theorem not_isSeparator_iff {byte : UInt8} : (!isSeparator byte) = true ↔ byte ∉ separators := by
  rw [Bool.not_eq_true', ← isSeparator_iff, Bool.not_eq_true]

/-! ### Maximal runs -/

/-- A token that is a maximal run of the text that begins at `start`. -/
def MaximalRun (start : Nat) (text : Bytes) (token : Token) : Prop :=
  ∃ before after, text = before ++ token.bytes ++ after ∧
    token.position = start + before.length ∧ token.bytes ≠ [] ∧
    (∀ byte ∈ token.bytes, byte ∉ separators) ∧
    (∀ byte ∈ before.getLast?, byte ∈ separators) ∧ ∀ byte ∈ after.head?, byte ∈ separators

variable {start : Nat} {text rest : Bytes} {first : UInt8} {token : Token}

theorem not_maximalRun_nil : ¬ MaximalRun start [] token := by
  rintro ⟨before, after, cut, _, filled, _⟩
  exact filled (List.append_eq_nil_iff.mp (List.append_eq_nil_iff.mp cut.symm).1).2

theorem head_notMem_separators {run tail : Bytes} (filled : run ≠ [])
    (solid : ∀ byte ∈ run, byte ∉ separators) (begins : first :: rest = run ++ tail) :
    first ∉ separators := by
  cases run with
  | nil => exact absurd rfl filled
  | cons head others =>
      obtain ⟨rfl, -⟩ := List.cons.inj begins
      exact solid _ List.mem_cons_self

/-- A separator in front of a text leaves its runs as they are, one place further on. -/
theorem maximalRun_cons_separator (separates : first ∈ separators) :
    MaximalRun start (first :: rest) token ↔ MaximalRun (start + 1) rest token := by
  constructor
  · rintro ⟨before, after, cut, position, filled, solid, opened, closed⟩
    cases before with
    | nil =>
        rw [List.nil_append] at cut
        exact absurd separates (head_notMem_separators filled solid cut)
    | cons head others =>
        rw [List.cons_append, List.cons_append] at cut
        refine ⟨others, after, (List.cons.inj cut).2, ?_, filled, solid, ?_, closed⟩
        · rw [position, List.length_cons]
          omega
        · intro byte last
          refine opened byte ?_
          rw [List.getLast?_cons, Option.mem_def.mp last]
          rfl
  · rintro ⟨before, after, cut, position, filled, solid, opened, closed⟩
    refine ⟨first :: before, after, ?_, ?_, filled, solid, ?_, closed⟩
    · rw [cut, List.cons_append, List.cons_append]
    · rw [position, List.length_cons]
      omega
    · intro byte last
      cases inner : before.getLast? with
      | none =>
          rw [List.getLast?_cons, inner] at last
          obtain rfl := Option.mem_some.mp last
          exact separates
      | some other =>
          rw [List.getLast?_cons, inner] at last
          obtain rfl := Option.mem_some.mp last
          exact opened _ inner

/-- What has no separator and yet begins with one, or with nothing, is nothing. -/
theorem eq_nil_of_closed {surplus after : Bytes} (solid : ∀ byte ∈ surplus, byte ∉ separators)
    (closed : ∀ byte ∈ (surplus ++ after).head?, byte ∈ separators) : surplus = [] := by
  cases surplus with
  | nil => rfl
  | cons byte others => exact absurd (closed byte rfl) (solid byte List.mem_cons_self)

/-- Two runs that begin one text and end at a separator or at its end are one run. -/
theorem run_unique {run other tail after : Bytes} (solid : ∀ byte ∈ run, byte ∉ separators)
    (solid' : ∀ byte ∈ other, byte ∉ separators) (closed : ∀ byte ∈ tail.head?, byte ∈ separators)
    (closed' : ∀ byte ∈ after.head?, byte ∈ separators) (same : run ++ tail = other ++ after) :
    run = other := by
  rcases List.append_eq_append_iff.mp same with ⟨surplus, rfl, rfl⟩ | ⟨surplus, rfl, rfl⟩
  · have nothing : surplus = [] :=
      eq_nil_of_closed (fun byte inside => solid' byte (List.mem_append_right _ inside)) closed
    rw [nothing, List.append_nil]
  · have nothing : surplus = [] :=
      eq_nil_of_closed (fun byte inside => solid byte (List.mem_append_right _ inside)) closed'
    rw [nothing, List.append_nil]

/-- What is left behind a run, when that begins with a separator or is empty, has the runs of the
text except for the run itself. -/
theorem maximalRun_append {run tail : Bytes} (filled : run ≠ [])
    (solid : ∀ byte ∈ run, byte ∉ separators) (closed : ∀ byte ∈ tail.head?, byte ∈ separators) :
    MaximalRun start (run ++ tail) token ↔
      token = ⟨start, run⟩ ∨ MaximalRun (start + run.length) tail token := by
  constructor
  · rintro ⟨before, after, cut, position, filled', solid', opened, closed'⟩
    rw [List.append_assoc] at cut
    rcases List.append_eq_append_iff.mp cut with ⟨others, longer, split⟩ | ⟨others, longer, split⟩
    · refine Or.inr ⟨others, after, ?_, ?_, filled', solid', ?_, closed'⟩
      · rw [split, List.append_assoc]
      · rw [position, longer, List.length_append, Nat.add_assoc]
      · intro byte last
        refine opened byte ?_
        rw [longer]
        exact List.mem_getLast?_append_of_mem_getLast? last
    · -- A token that begins within the run begins with it: its last neighbour would separate.
      have begins : before = [] := by
        by_contra more
        have last : before.getLast more ∈ before.getLast? := List.getLast?_eq_getLast_of_ne_nil more
        refine absurd (opened _ last) (solid _ ?_)
        rw [longer]
        exact List.mem_append_left _ (List.getLast_mem more)
      subst begins
      rw [List.nil_append] at cut
      have whole : token.bytes = run := run_unique solid' solid closed' closed cut.symm
      left
      rw [show token = ⟨token.position, token.bytes⟩ from rfl, position, whole]
      rfl
  · rintro (rfl | ⟨before, after, cut, position, filled', solid', opened, closed'⟩)
    · exact ⟨[], tail, rfl, rfl, filled, solid, by simp, closed⟩
    · have apart : before ≠ [] := by
        rintro rfl
        rw [List.nil_append] at cut
        exact filled' (eq_nil_of_closed solid' (cut ▸ closed))
      refine ⟨run ++ before, after, ?_, ?_, filled', solid', ?_, closed'⟩
      · rw [cut]
        simp only [List.append_assoc]
      · rw [position, List.length_append, Nat.add_assoc]
      · intro byte last
        rw [List.getLast?_append_of_ne_nil _ apart] at last
        exact opened byte last

/-! ### The scan -/

theorem head_run (rest : Bytes) (solid : first ∉ separators) :
    (∀ byte ∈ first :: rest.takeWhile fun byte => !isSeparator byte, byte ∉ separators) ∧
      ∀ byte ∈ (rest.dropWhile fun byte => !isSeparator byte).head?, byte ∈ separators := by
  constructor
  · intro byte inside
    rcases List.mem_cons.mp inside with rfl | inside
    · exact solid
    · have kept : (!isSeparator byte) = true :=
        List.mem_takeWhile_imp (p := fun other => !isSeparator other) inside
      exact not_isSeparator_iff.mp kept
  · intro byte begins
    have stopped := List.head?_dropWhile_not (fun byte => !isSeparator byte) rest
    rw [Option.mem_def.mp begins] at stopped
    exact isSeparator_iff.mp (by simpa using stopped)

/-- **The tokens of a text are its maximal runs.** -/
theorem mem_tokensFrom_iff : token ∈ tokensFrom start text ↔ MaximalRun start text token := by
  induction start, text using tokensFrom.induct with
  | case1 start =>
      rw [tokensFrom]
      exact iff_of_false List.not_mem_nil not_maximalRun_nil
  | case2 start first rest separates ih =>
      rw [tokensFrom, if_pos separates, ih,
        maximalRun_cons_separator (isSeparator_iff.mp separates)]
  | case3 start first rest solid run ih =>
      obtain ⟨solidRun, closed⟩ := head_run rest (mt isSeparator_iff.mpr solid)
      have whole : first :: rest = run ++ rest.dropWhile fun byte => !isSeparator byte := by
        rw [List.cons_append, List.takeWhile_append_dropWhile]
      rw [tokensFrom, if_neg solid, List.mem_cons, ih, whole,
        maximalRun_append (List.cons_ne_nil _ _) solidRun closed]

/-- **The tokens are listed by their places.** -/
theorem pairwise_tokensFrom (start : Nat) (text : Bytes) :
    (tokensFrom start text).Pairwise fun one other => one.position < other.position := by
  induction start, text using tokensFrom.induct with
  | case1 start =>
      rw [tokensFrom]
      exact List.Pairwise.nil
  | case2 start first rest separates ih =>
      rw [tokensFrom, if_pos separates]
      exact ih
  | case3 start first rest solid run ih =>
      rw [tokensFrom, if_neg solid]
      refine List.pairwise_cons.mpr ⟨fun token member => ?_, ih⟩
      obtain ⟨before, -, -, position, -⟩ := mem_tokensFrom_iff.mp member
      show start < token.position
      rw [position, List.length_cons]
      omega

theorem nodup_of_ordered {runs : List Token}
    (ordered : runs.Pairwise fun one other => one.position < other.position) : runs.Nodup := by
  refine ordered.imp ?_
  rintro one _ before rfl
  exact Nat.lt_irrefl _ before

/-- The maximal runs of a text, all of them, by their places. -/
def RunsInOrder (text : Bytes) (runs : List Token) : Prop :=
  (runs.Pairwise fun one other => one.position < other.position) ∧
    ∀ token, token ∈ runs ↔ MaximalRun 0 text token

/-- **The tokens are the only list of the maximal runs** by their places. -/
theorem runsInOrder_iff {runs : List Token} : RunsInOrder text runs ↔ runs = tokens text := by
  constructor
  · rintro ⟨ordered, complete⟩
    have sorted := pairwise_tokensFrom 0 text
    have same : runs.Perm (tokens text) :=
      (List.perm_ext_iff_of_nodup (nodup_of_ordered ordered) (nodup_of_ordered sorted)).mpr
        fun token => (complete token).trans mem_tokensFrom_iff.symm
    exact same.eq_of_pairwise (fun _ _ _ _ before behind => absurd before (Nat.lt_asymm behind))
      ordered sorted
  · rintro rfl
    exact ⟨pairwise_tokensFrom 0 text, fun token => mem_tokensFrom_iff⟩

end Edid.HexText
