/-
**Readings.** A timing source is read into a list of steps, each a note for the log or a
resolution on offer, and the error that cut the reading short, if one did. The steps before an
error stand: what a source offered before it failed is kept.

* `value_enter`: entering a reading into a set inserts exactly the resolutions on offer, in order.
* `value_enterOrFail`: the same, up to the failure of the reading.
-/

import Edid.ReadError
import Edid.ResolutionSet

namespace Edid

/-- One step of a reading. -/
inductive Step where
  | note (level : Level) (message : String)
  | offer (resolution : Resolution)

/-- What a timing source says. -/
structure Reading where
  steps : List Step
  /-- Why the reading stopped early, if it did. -/
  failure : Option ReadError

namespace Step

def offered? : Step → Option Resolution
  | note _ _ => none
  | offer resolution => some resolution

def enter (set : ResolutionSet) : Step → Logged ResolutionSet
  | note level message => ⟨set, [⟨level, message⟩]⟩
  | offer resolution => set.offer resolution

end Step

namespace Reading

def complete (steps : List Step) : Reading := ⟨steps, none⟩

def failed (failure : ReadError) : Reading := ⟨[], some failure⟩

/-- The resolutions on offer, in order. -/
def offers (reading : Reading) : List Resolution := reading.steps.filterMap Step.offered?

/-- One reading after the other; the second is not reached when the first one failed. -/
def andThen (first : Reading) (second : Reading) : Reading :=
  match first.failure with
  | some _ => first
  | none => ⟨first.steps ++ second.steps, second.failure⟩

/-- Carries the steps out on a set, the earliest first. -/
def enterSteps (set : ResolutionSet) : List Step → Logged ResolutionSet
  | [] => pure set
  | step :: rest => step.enter set >>= fun next => enterSteps next rest

def enter (reading : Reading) (set : ResolutionSet) : Logged ResolutionSet :=
  enterSteps set reading.steps

/-- Carries a reading out on a set, and then fails if the reading did. -/
def enterOrFail (reading : Reading) (set : ResolutionSet) :
    ExceptT ReadError Logged ResolutionSet :=
  let next := reading.enter set
  ExceptT.mk
    { value := match reading.failure with
        | some failure => .error failure
        | none => .ok next.value
      records := next.records }

theorem value_enterSteps (set : ResolutionSet) (steps : List Step) :
    (enterSteps set steps).value = set.insertAll (steps.filterMap Step.offered?) := by
  induction steps generalizing set with
  | nil => rfl
  | cons step rest ih =>
      cases step with
      | note level message => exact ih set
      | offer resolution => exact ih (set.insert resolution)

/-- **Entering a reading** inserts exactly the resolutions on offer, in order. -/
theorem value_enter (reading : Reading) (set : ResolutionSet) :
    (reading.enter set).value = set.insertAll reading.offers :=
  value_enterSteps set reading.steps

/-- **Entering a reading or failing**: the failure is that of the reading, and without one the
resolutions on offer are inserted. -/
theorem value_enterOrFail (reading : Reading) (set : ResolutionSet) :
    (reading.enterOrFail set).run.value =
      match reading.failure with
      | some failure => .error failure
      | none => .ok (set.insertAll reading.offers) := by
  rw [← value_enter]
  rfl

end Reading

end Edid
