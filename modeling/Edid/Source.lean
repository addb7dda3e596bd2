/-
**Where resolutions come from.** An EDID advertises display modes in four places. Each is read on
its own; the resolutions of a display are the four readings entered one after the other, in the
order established, standard, detailed, extension.

* `value_enterAll`: sources that are read to their ends insert what they have on offer, in order.
-/

import Edid.Extension.Video
import Edid.Timing.Detailed
import Edid.Timing.Established
import Edid.Timing.Standard

namespace Edid

/-- A place that advertises resolutions. -/
inductive Source where
  | established
  | standard
  | detailed
  | extension
deriving DecidableEq

namespace Source

/-- The sources in the order in which they are read. -/
def all : List Source := [established, standard, detailed, extension]

def reading (bytes : Bytes) : Source → Reading
  | established => Established.reading bytes
  | standard => StandardTiming.reading bytes
  | detailed => DetailedTiming.reading bytes
  | extension => Extension.reading bytes

def name : Source → String
  | established => "established timings"
  | standard => "standard timings"
  | detailed => "detailed timings"
  | extension => "CTA-861 extension"

/-- Enters the readings of some sources into a set and notes its size after each. -/
def enterAll (bytes : Bytes) (set : ResolutionSet) :
    List Source → ExceptT ReadError Logged ResolutionSet
  | [] => return set
  | source :: rest => do
      let next ← (source.reading bytes).enterOrFail set
      Logged.note .debug (toString next.size ++ " resolution(s) after " ++ source.name)
      enterAll bytes next rest

/-- The resolutions that some sources of a buffer have on offer, in order. -/
def offers (bytes : Bytes) (sources : List Source) : List Resolution :=
  sources.flatMap fun source => (source.reading bytes).offers

/-- **Entering sources** that are read to their ends inserts what they have on offer, in order. -/
theorem value_enterAll {bytes : Bytes} {sources : List Source} (set : ResolutionSet)
    (complete : ∀ source ∈ sources, (source.reading bytes).failure = none) :
    (enterAll bytes set sources).run.value = .ok (set.insertAll (offers bytes sources)) := by
  induction sources generalizing set with
  | nil => rfl
  | cons source rest ih =>
      rw [enterAll, Logged.value_run_bind, Reading.value_enterOrFail,
        complete source List.mem_cons_self]
      dsimp only
      rw [Logged.value_run_bind, offers, List.flatMap_cons, ResolutionSet.insertAll_append]
      exact ih _ fun other member => complete other (List.mem_cons_of_mem _ member)

end Source

/-- Every resolution that a buffer with a whole base block advertises. -/
def resolutions (bytes : Bytes) : ExceptT ReadError Logged ResolutionSet := do
  Field.require bytes blockLength
  Source.enterAll bytes .empty Source.all

end Edid
