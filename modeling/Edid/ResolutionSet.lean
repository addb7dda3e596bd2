/-
**Sets of resolutions.** A set keeps its members in the order in which they came, holds none of
them twice, and never more than `capacity`; both bounds stand in the type.

* `entries_insert`: an insertion appends a resolution that is new and has room, and changes
  nothing otherwise.
* `placement_added_iff`: the answer of an insertion says which of these happened.
-/

import Edid.Log
import Edid.Resolution

namespace Edid

def ResolutionSet.capacity : Nat := 32

/-- Distinct resolutions in the order of their arrival, at most `capacity` of them. -/
structure ResolutionSet where
  entries : List Resolution
  distinct : entries.Nodup
  bounded : entries.length ≤ ResolutionSet.capacity

/-- What became of a resolution that was offered to a set. -/
inductive Placement where
  | added
  | present
  | full
deriving DecidableEq

namespace ResolutionSet

def empty : ResolutionSet := ⟨[], List.nodup_nil, Nat.zero_le _⟩

/-- Sets with the same members in the same order are the same. -/
@[ext]
theorem ext {first second : ResolutionSet} (equal : first.entries = second.entries) :
    first = second := by
  cases first
  cases second
  simp_all

instance : DecidableEq ResolutionSet := fun first second =>
  decidable_of_iff (first.entries = second.entries) ⟨ext, fun equal => equal ▸ rfl⟩

def size (set : ResolutionSet) : Nat := set.entries.length

def isEmpty (set : ResolutionSet) : Bool := set.entries.isEmpty

def contains (set : ResolutionSet) (resolution : Resolution) : Bool :=
  decide (resolution ∈ set.entries)

/-- The labels of the members, the earliest first. -/
def labels (set : ResolutionSet) : List String := set.entries.map Resolution.label

def placement (set : ResolutionSet) (resolution : Resolution) : Placement :=
  if resolution ∈ set.entries then .present
  else if set.size < capacity then .added
  else .full

/-- Appends a resolution that is new and has room, and is the same set otherwise. -/
def insert (set : ResolutionSet) (resolution : Resolution) : ResolutionSet :=
  if fits : resolution ∉ set.entries ∧ set.size < capacity then
    { entries := set.entries ++ [resolution]
      distinct := by
        rw [List.nodup_append]
        refine ⟨set.distinct, by simp, ?_⟩
        intro member old other new
        rw [List.mem_singleton] at new
        rintro rfl
        exact fits.1 (new ▸ old)
      bounded := by
        rw [List.length_append, List.length_singleton]
        exact fits.2 }
  else set

/-- Inserts a list of resolutions, the first one first. -/
def insertAll (set : ResolutionSet) (resolutions : List Resolution) : ResolutionSet :=
  resolutions.foldl insert set

/-- The record of a placement: an addition is traced, a loss warned of, and a repetition is not
worth a line. -/
def placementRecords (resolution : Resolution) : Placement → List Record
  | .added => [⟨.trace, "Added resolution " ++ resolution.label⟩]
  | .present => []
  | .full => [⟨.warn, "Resolution set full, dropping " ++ resolution.label⟩]

def offer (set : ResolutionSet) (resolution : Resolution) : Logged ResolutionSet :=
  ⟨set.insert resolution, placementRecords resolution (set.placement resolution)⟩

/-- **What an insertion does**: it appends a resolution that is new and has room. -/
theorem entries_insert (set : ResolutionSet) (resolution : Resolution) :
    (set.insert resolution).entries =
      if resolution ∉ set.entries ∧ set.size < capacity then set.entries ++ [resolution]
      else set.entries := by
  unfold insert
  split <;> simp_all

/-- **What the placement means**: a resolution is added if it is new and has room. -/
theorem placement_added_iff (set : ResolutionSet) (resolution : Resolution) :
    set.placement resolution = .added ↔ resolution ∉ set.entries ∧ set.size < capacity := by
  unfold placement
  split
  · simp_all
  · split <;> simp_all

@[simp]
theorem insertAll_nil (set : ResolutionSet) : set.insertAll [] = set := rfl

@[simp]
theorem insertAll_cons (set : ResolutionSet) (first : Resolution) (rest : List Resolution) :
    set.insertAll (first :: rest) = (set.insert first).insertAll rest := rfl

theorem insertAll_append (set : ResolutionSet) (first second : List Resolution) :
    set.insertAll (first ++ second) = (set.insertAll first).insertAll second :=
  List.foldl_append

end ResolutionSet

end Edid
