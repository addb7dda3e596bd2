/-
**Insertion as first occurrence.** A set of resolutions is a list without repetitions that grows
at its end. Inserting a list one member after the other is therefore the same as putting the list
behind the members, keeping the first occurrence of each resolution, and cutting the result at the
capacity:

* `entries_insertAll`: the closed form, with the cut;
* `entries_insertAll_of_fits`: without it, when the distinct resolutions fit;
* `contains_insert_iff`: what one insertion adds to the members, by its placement;
* `full_notMem_placements`: when they fit, no resolution is ever turned away for want of room.

`List.eraseDups` is the list of first occurrences; the first section adds what is needed of it.
-/

import Mathlib.Data.Finset.Card
import Mathlib.Data.List.Nodup
import Edid.ResolutionSet

namespace Edid

/-! ### First occurrences in a list -/

namespace FirstOccurrences

variable {α : Type} [DecidableEq α]

theorem nodup_eraseDups (list : List α) : list.eraseDups.Nodup := by
  match list with
  | [] => exact List.nodup_nil
  | first :: rest =>
      rw [List.eraseDups_cons, List.nodup_cons]
      refine ⟨?_, nodup_eraseDups (rest.filter fun other => !other == first)⟩
      simp
termination_by list.length
decreasing_by exact Nat.lt_succ_of_le (List.length_filter_le _ _)

theorem eraseDups_of_nodup {list : List α} (distinct : list.Nodup) : list.eraseDups = list := by
  induction list with
  | nil => rfl
  | cons first rest ih =>
      obtain ⟨fresh, distinctRest⟩ := List.nodup_cons.mp distinct
      have kept : (rest.filter fun other => !other == first) = rest := by
        refine List.filter_eq_self.mpr fun other member => ?_
        have different : other ≠ first := fun same => fresh (same ▸ member)
        simpa using different
      rw [List.eraseDups_cons, kept, ih distinctRest]

theorem eraseDups_prefix (first second : List α) :
    first.eraseDups <+: (first ++ second).eraseDups := by
  rw [List.eraseDups_append]
  exact List.prefix_append _ _

/-- Behind a list only its first occurrences matter. -/
theorem eraseDups_eraseDups_append (first second : List α) :
    (first.eraseDups ++ second).eraseDups = (first ++ second).eraseDups := by
  have same : second.removeAll first.eraseDups = second.removeAll first := by
    refine List.filter_congr fun member _ => ?_
    simp
  rw [List.eraseDups_append, List.eraseDups_append, same,
    eraseDups_of_nodup (nodup_eraseDups first)]

/-- A member that repeats an earlier one can be left out. -/
theorem eraseDups_append_cons_of_mem {first : List α} {repeated : α} (old : repeated ∈ first)
    (second : List α) :
    (first ++ repeated :: second).eraseDups = (first ++ second).eraseDups := by
  rw [List.eraseDups_append, List.eraseDups_append, List.cons_removeAll, if_neg]
  simpa using old

/-- **Nothing new**: a list adds no first occurrence exactly when all its members came before. -/
theorem eraseDups_append_eq_left_iff (first second : List α) :
    (first ++ second).eraseDups = first.eraseDups ↔ ∀ member ∈ second, member ∈ first := by
  constructor
  · intro equal member inside
    have present : member ∈ (first ++ second).eraseDups :=
      List.mem_eraseDups.mpr (List.mem_append_right _ inside)
    rw [equal] at present
    exact List.mem_eraseDups.mp present
  · intro old
    induction second with
    | nil => rw [List.append_nil]
    | cons head rest ih =>
        rw [eraseDups_append_cons_of_mem (old head List.mem_cons_self)]
        exact ih fun member inside => old member (List.mem_cons_of_mem _ inside)

theorem length_eraseDups (list : List α) : list.eraseDups.length = list.toFinset.card := by
  rw [← List.toFinset_card_of_nodup (nodup_eraseDups list)]
  congr 1
  ext member
  simp

/-- A list with no other members has no more first occurrences. -/
theorem length_eraseDups_le_of_subset {first second : List α} (fewer : first ⊆ second) :
    first.eraseDups.length ≤ second.eraseDups.length := by
  rw [length_eraseDups, length_eraseDups]
  refine Finset.card_le_card fun member inside => ?_
  exact List.mem_toFinset.mpr (fewer (List.mem_toFinset.mp inside))

end FirstOccurrences

/-! ### Insertion of a list -/

namespace ResolutionSet

open FirstOccurrences

theorem insert_of_mem {set : ResolutionSet} {resolution : Resolution}
    (member : resolution ∈ set.entries) : set.insert resolution = set := by
  apply ResolutionSet.ext
  rw [entries_insert, if_neg fun fits => fits.1 member]

theorem insert_of_full {set : ResolutionSet} (full : capacity ≤ set.size)
    (resolution : Resolution) : set.insert resolution = set := by
  apply ResolutionSet.ext
  rw [entries_insert, if_neg fun fits => Nat.not_lt_of_le full fits.2]

theorem entries_insert_of_fits {set : ResolutionSet} {resolution : Resolution}
    (new : resolution ∉ set.entries) (room : set.size < capacity) :
    (set.insert resolution).entries = set.entries ++ [resolution] := by
  rw [entries_insert, if_pos ⟨new, room⟩]

theorem entries_prefix (set : ResolutionSet) (resolutions : List Resolution) :
    set.entries <+: (set.entries ++ resolutions).eraseDups := by
  have kept := eraseDups_prefix set.entries resolutions
  rwa [eraseDups_of_nodup set.distinct] at kept

/-- Inserting a resolution that is old or has room is putting it behind the members. -/
theorem eraseDups_insert {set : ResolutionSet} {first : Resolution}
    (room : first ∈ set.entries ∨ set.size < capacity) (rest : List Resolution) :
    ((set.insert first).entries ++ rest).eraseDups = (set.entries ++ first :: rest).eraseDups := by
  by_cases member : first ∈ set.entries
  · rw [insert_of_mem member, eraseDups_append_cons_of_mem member]
  · rw [entries_insert_of_fits member (room.resolve_left member), List.append_assoc,
      List.singleton_append]

/-- **Inserting a list** leaves the first occurrences of the members and the list, up to the
capacity. -/
theorem entries_insertAll (set : ResolutionSet) (resolutions : List Resolution) :
    (set.insertAll resolutions).entries =
      (set.entries ++ resolutions).eraseDups.take capacity := by
  induction resolutions generalizing set with
  | nil =>
      rw [insertAll_nil, List.append_nil, eraseDups_of_nodup set.distinct,
        List.take_of_length_le set.bounded]
  | cons first rest ih =>
      rw [insertAll_cons, ih]
      by_cases room : first ∈ set.entries ∨ set.size < capacity
      · rw [eraseDups_insert room]
      · -- A full set is the cut of whatever list it begins.
        have small : capacity ≤ set.size := Nat.le_of_not_lt fun less => room (Or.inr less)
        have full : set.entries.length = capacity := Nat.le_antisymm set.bounded small
        have cut : ∀ resolutions : List Resolution,
            (set.entries ++ resolutions).eraseDups.take capacity = set.entries := by
          intro resolutions
          rw [← full]
          exact (List.prefix_iff_eq_take.mp (set.entries_prefix resolutions)).symm
        rw [insert_of_full small, cut, cut]

/-- Inserting a list whose distinct members fit leaves exactly the first occurrences. -/
theorem entries_insertAll_of_fits {set : ResolutionSet} {resolutions : List Resolution}
    (fits : (set.entries ++ resolutions).eraseDups.length ≤ capacity) :
    (set.insertAll resolutions).entries = (set.entries ++ resolutions).eraseDups := by
  rw [entries_insertAll, List.take_of_length_le fits]

/-- **Nothing changes** when all members of a list are in the set already. -/
theorem insertAll_of_subset {set : ResolutionSet} {resolutions : List Resolution}
    (old : resolutions ⊆ set.entries) : set.insertAll resolutions = set := by
  induction resolutions with
  | nil => rfl
  | cons first rest ih =>
      obtain ⟨member, others⟩ := List.cons_subset.mp old
      rw [insertAll_cons, insert_of_mem member, ih others]

/-! ### What becomes of each resolution -/

/-- The placements of the members of a list that are inserted one after the other. -/
def placements (set : ResolutionSet) : List Resolution → List Placement
  | [] => []
  | first :: rest => set.placement first :: placements (set.insert first) rest

theorem placement_full_iff (set : ResolutionSet) (resolution : Resolution) :
    set.placement resolution = .full ↔ resolution ∉ set.entries ∧ capacity ≤ set.size := by
  unfold placement
  by_cases member : resolution ∈ set.entries
  · simp [member]
  · by_cases room : set.size < capacity
    · simp [member, room]
    · simp [member, Nat.le_of_not_lt room]

/-- **A resolution is contained** from its insertion on, unless it is turned away. -/
theorem contains_insert_iff (set : ResolutionSet) (resolution other : Resolution) :
    (set.insert resolution).contains other = true ↔
      set.contains other = true ∨ other = resolution ∧ set.placement resolution ≠ .full := by
  rw [contains, contains, decide_eq_true_iff, decide_eq_true_iff, entries_insert, Ne,
    placement_full_iff, not_and, Nat.not_le]
  by_cases old : resolution ∈ set.entries
  · rw [if_neg fun fits => fits.1 old]
    constructor
    · exact Or.inl
    · rintro (member | ⟨rfl, -⟩)
      · exact member
      · exact old
  · by_cases room : set.size < capacity
    · rw [if_pos ⟨old, room⟩, List.mem_append, List.mem_singleton]
      exact or_congr_right ⟨fun same => ⟨same, fun _ => room⟩, And.left⟩
    · rw [if_neg fun fits => room fits.2]
      constructor
      · exact Or.inl
      · rintro (member | ⟨-, kept⟩)
        · exact member
        · exact absurd (kept old) room

/-- A resolution that begins a list whose distinct members fit is old or has room. -/
theorem room_of_fits {set : ResolutionSet} {first : Resolution} {rest : List Resolution}
    (fits : (set.entries ++ first :: rest).eraseDups.length ≤ capacity) :
    first ∈ set.entries ∨ set.size < capacity := by
  by_contra! lost
  obtain ⟨new, full⟩ := lost
  have longer : (set.entries ++ [first]).Nodup := by
    rw [List.nodup_append]
    refine ⟨set.distinct, List.nodup_singleton _, fun member old other last same => ?_⟩
    rw [List.mem_singleton] at last
    exact new (last ▸ same ▸ old)
  have kept := eraseDups_prefix (set.entries ++ [first]) rest
  rw [eraseDups_of_nodup longer, List.append_assoc, List.singleton_append] at kept
  have grown := kept.length_le
  rw [List.length_append, List.length_singleton] at grown
  exact absurd (grown.trans fits) (Nat.not_le_of_lt (Nat.lt_succ_of_le full))

/-- **No resolution is turned away** when the distinct ones fit. -/
theorem full_notMem_placements {set : ResolutionSet} {resolutions : List Resolution}
    (fits : (set.entries ++ resolutions).eraseDups.length ≤ capacity) :
    Placement.full ∉ set.placements resolutions := by
  induction resolutions generalizing set with
  | nil => exact List.not_mem_nil
  | cons first rest ih =>
      have room := room_of_fits fits
      rw [placements, List.mem_cons]
      rintro (now | later)
      · obtain ⟨new, full⟩ := (placement_full_iff set first).mp now.symm
        exact room.elim new (Nat.not_lt_of_le full)
      · rw [← eraseDups_insert room] at fits
        exact ih fits later

end ResolutionSet

end Edid
