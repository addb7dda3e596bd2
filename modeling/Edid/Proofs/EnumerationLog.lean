/-
**What the log of an enumeration tells.** The records of an enumeration are those of its additions
and others that are made whatever the set holds. The additions tell the set: there is one for each
member, in order. The others are the notes of the sources, and the count of the members after each
source. A chain of data blocks that breaks off is warned of, once and with the place; nothing else
is, since no resolution is ever turned away.

* `Accounts`: records that tell how one set grew into another one, and what else was noted;
* `accounts_step`, `accounts_enterSteps`, `accounts_enterAll`: one step, the steps of a source, and
  all sources;
* `warnings_eq`: the warning, by the maximal chain of data blocks;
* `log_tells_enumeration`: the log of an enumeration.
-/

import Mathlib.Data.List.Infix
import Edid.Proofs.Advertised
import Edid.Proofs.Remarks

namespace Edid

open FirstOccurrences

/-! ### Records by what they say -/

namespace Record

/-- The record of a resolution that is added to a set. -/
def addition (resolution : Resolution) : Record :=
  ⟨.trace, "Added resolution " ++ resolution.label⟩

/-- The record of the number of members after a source. -/
def count (size : Nat) (source : Source) : Record :=
  ⟨.debug, toString size ++ " resolution(s) after " ++ source.name⟩

/-- Whether a record is a trace that begins like that of an addition. -/
def isAddition (record : Record) : Bool :=
  decide (record.level = .trace ∧ "Added resolution ".toList <+: record.message.toList)

/-- Whether a record for debugging has the words of a count. -/
def isCount (record : Record) : Bool :=
  decide (record.level = .debug ∧ " resolution(s) after ".toList <:+: record.message.toList)

def isWarning (record : Record) : Bool := decide (record.level = .warn)

theorem isAddition_addition (resolution : Resolution) :
    (addition resolution).isAddition = true := by
  refine decide_eq_true ⟨rfl, ?_⟩
  rw [addition, String.toList_append]
  exact List.prefix_append _ _

theorem isCount_count (size : Nat) (source : Source) : (count size source).isCount = true := by
  refine decide_eq_true ⟨rfl, ?_⟩
  rw [count, String.toList_append, String.toList_append]
  exact ⟨_, _, rfl⟩

theorem isAddition_eq_false_of_level {record : Record} (level : record.level ≠ .trace) :
    record.isAddition = false :=
  decide_eq_false fun both => level both.1

theorem isCount_eq_false_of_level {record : Record} (level : record.level ≠ .debug) :
    record.isCount = false :=
  decide_eq_false fun both => level both.1

theorem isAddition_eq_false_of_isCount {record : Record} (counts : record.isCount = true) :
    record.isAddition = false :=
  isAddition_eq_false_of_level (by rw [(of_decide_eq_true counts).1]; decide)

theorem isAddition_eq_false_of_isWarning {record : Record} (warns : record.isWarning = true) :
    record.isAddition = false :=
  isAddition_eq_false_of_level (by rw [of_decide_eq_true warns]; decide)

/-- **Plain records** are none of these. -/
theorem Plain.isAddition {record : Record} (plain : record.Plain) : record.isAddition = false :=
  decide_eq_false fun both => plain.clear.1 (both.2.subset (by decide +kernel))

theorem Plain.isCount {record : Record} (plain : record.Plain) : record.isCount = false :=
  decide_eq_false fun both => plain.clear.1 (both.2.subset (by decide +kernel))

theorem Plain.isWarning {record : Record} (plain : record.Plain) : record.isWarning = false :=
  decide_eq_false plain.calm

theorem lacks_addition (resolution : Resolution) : Lacks 'R' (addition resolution).message := by
  rw [addition, lacks_append]
  exact ⟨by decide, resolution.lacks_label rfl (by decide) (by decide)⟩

theorem lacks_count (size : Nat) (source : Source) : Lacks 'R' (count size source).message := by
  have name : Lacks 'R' source.name := by cases source <;> decide
  rw [count, lacks_append, lacks_append]
  exact ⟨⟨lacks_toString rfl size, by decide⟩, name⟩

end Record

/-! ### Records that account for the growth of a set -/

/-- Records that tell how one set grew into another one: the resolutions it grew by are those of the
additions, in order, and the other records are the given remarks. -/
structure Accounts (set left : ResolutionSet) (records remarks : List Record) : Prop where
  additions : ∃ new, left.entries = set.entries ++ new ∧
    records.filter Record.isAddition = new.map Record.addition
  others : records.filter (fun record => !record.isAddition) = remarks

namespace Accounts

variable {set middle left : ResolutionSet} {records later remarks behind : List Record}

theorem refl (set : ResolutionSet) : Accounts set set [] [] where
  additions := ⟨[], (List.append_nil _).symm, rfl⟩
  others := rfl

theorem trans (first : Accounts set middle records remarks)
    (second : Accounts middle left later behind) :
    Accounts set left (records ++ later) (remarks ++ behind) where
  additions := by
    obtain ⟨old, grown, told⟩ := first.additions
    obtain ⟨new, grownAgain, toldAgain⟩ := second.additions
    refine ⟨old ++ new, ?_, ?_⟩
    · rw [grownAgain, grown, List.append_assoc]
    · rw [List.filter_append, told, toldAgain, List.map_append]
  others := by rw [List.filter_append, first.others, second.others]

/-- A record that is no addition leaves the set as it is. -/
theorem remark (set : ResolutionSet) {record : Record} (other : record.isAddition = false) :
    Accounts set set [record] [record] where
  additions := ⟨[], (List.append_nil _).symm, List.filter_cons_of_neg (by simp [other])⟩
  others := List.filter_cons_of_pos (by simp [other])

/-- **An insertion** that has room, or is not needed, is told by its records. -/
theorem offer {resolution : Resolution}
    (room : resolution ∈ set.entries ∨ set.size < ResolutionSet.capacity) :
    Accounts set (set.offer resolution).value (set.offer resolution).records [] := by
  unfold ResolutionSet.offer
  by_cases member : resolution ∈ set.entries
  · have present : set.placement resolution = .present := if_pos member
    rw [present, ResolutionSet.insert_of_mem member]
    exact refl set
  · have free := room.resolve_left member
    have added : set.placement resolution = .added :=
      (set.placement_added_iff resolution).mpr ⟨member, free⟩
    have known : (Record.addition resolution).isAddition = true :=
      Record.isAddition_addition resolution
    have dropped : (!(Record.addition resolution).isAddition) ≠ true := by
      rw [known]
      decide
    rw [added]
    exact
      { additions := ⟨[resolution], ResolutionSet.entries_insert_of_fits member free,
          List.filter_cons_of_pos known⟩
        others := List.filter_cons_of_neg dropped }

/-- Of records of some other kind the remarks have all. -/
theorem filter_eq (accounts : Accounts set left records remarks) {kind : Record → Bool}
    (apart : ∀ {record}, kind record = true → record.isAddition = false) :
    records.filter kind = remarks.filter kind := by
  rw [← accounts.others, List.filter_filter]
  refine List.filter_congr fun record _ => ?_
  cases known : kind record with
  | false => rfl
  | true => rw [apart known]; rfl

/-- Every record is that of an addition or one of the remarks. -/
theorem mem_or_mem (accounts : Accounts set left records remarks) {record : Record}
    (member : record ∈ records) :
    (∃ resolution, record = Record.addition resolution) ∨ record ∈ remarks := by
  obtain ⟨new, _, told⟩ := accounts.additions
  cases known : record.isAddition with
  | true =>
      have listed : record ∈ new.map Record.addition := told ▸ List.mem_filter.mpr ⟨member, known⟩
      obtain ⟨resolution, _, same⟩ := List.mem_map.mp listed
      exact .inl ⟨resolution, same.symm⟩
  | false =>
      refine .inr (accounts.others ▸ List.mem_filter.mpr ⟨member, ?_⟩)
      rw [known]
      rfl

end Accounts

/-! ### The steps of a source -/

/-- What fits has a first part that fits. -/
theorem ResolutionSet.fits_left {set : ResolutionSet} {first second : List Resolution}
    (fits : (set.entries ++ (first ++ second)).eraseDups.length ≤ capacity) :
    (set.entries ++ first).eraseDups.length ≤ capacity := by
  have kept := eraseDups_prefix (set.entries ++ first) second
  rw [List.append_assoc] at kept
  exact kept.length_le.trans fits

/-- Whatever comes next has room as well, once a first part of what fits has been inserted. -/
theorem ResolutionSet.fits_insertAll {set : ResolutionSet} {first second : List Resolution}
    (fits : (set.entries ++ (first ++ second)).eraseDups.length ≤ capacity) :
    ((set.insertAll first).entries ++ second).eraseDups.length ≤ capacity := by
  have shorter : (set.entries ++ first).eraseDups.length ≤ capacity := fits_left fits
  rwa [entries_insertAll_of_fits shorter, eraseDups_eraseDups_append, List.append_assoc]

/-- **One step** is told by its records: a note is its own record. -/
theorem accounts_step {set : ResolutionSet} {step : Step}
    (other : ∀ record, step.remark? = some record → record.isAddition = false)
    (room : ∀ resolution, step.offered? = some resolution →
      resolution ∈ set.entries ∨ set.size < ResolutionSet.capacity) :
    Accounts set (step.enter set).value (step.enter set).records step.remark?.toList := by
  cases step with
  | note level message => exact .remark set (other _ rfl)
  | offer resolution => exact .offer (room _ rfl)

/-- **The steps of a source** are told by their records, if all that is on offer fits. -/
theorem accounts_enterSteps {set : ResolutionSet} {steps : List Step}
    (other : ∀ record ∈ steps.filterMap Step.remark?, record.isAddition = false)
    (fits : (set.entries ++ steps.filterMap Step.offered?).eraseDups.length ≤
      ResolutionSet.capacity) :
    Accounts set (Reading.enterSteps set steps).value (Reading.enterSteps set steps).records
      (steps.filterMap Step.remark?) := by
  induction steps generalizing set with
  | nil => exact .refl set
  | cons step rest ih =>
      have remarks : (step :: rest).filterMap Step.remark? =
          step.remark?.toList ++ rest.filterMap Step.remark? := by
        cases step <;> rfl
      have offers : (step :: rest).filterMap Step.offered? =
          step.offered?.toList ++ rest.filterMap Step.offered? := by
        cases step <;> rfl
      have entered : (step.enter set).value = set.insertAll step.offered?.toList := by
        cases step <;> rfl
      rw [remarks, List.forall_mem_append] at other
      rw [offers] at fits
      rw [remarks, Reading.enterSteps, Logged.value_bind, Logged.records_bind]
      refine (accounts_step ?_ ?_).trans (ih other.2 ?_)
      · exact fun record remarked => other.1 record (remarked ▸ List.mem_singleton_self record)
      · intro resolution offered
        rw [offered] at fits
        exact ResolutionSet.room_of_fits fits
      · rw [entered]
        exact ResolutionSet.fits_insertAll fits

/-! ### All sources -/

namespace Source

/-- The records of some sources apart from the additions: after the notes of each source the number
of members that it leaves. -/
def remarks (bytes : Bytes) (set : ResolutionSet) : List Source → List Record
  | [] => []
  | source :: rest =>
      let next := set.insertAll (source.reading bytes).offers
      (source.reading bytes).remarks ++ Record.count next.size source :: remarks bytes next rest

/-- **Sources one after the other** are told by their records. -/
theorem accounts_enterAll {bytes : Bytes} {sources : List Source} {set : ResolutionSet}
    (complete : ∀ source ∈ sources, (source.reading bytes).failure = none)
    (other : ∀ source ∈ sources, ∀ record ∈ (source.reading bytes).remarks,
      record.isAddition = false)
    (fits : (set.entries ++ offers bytes sources).eraseDups.length ≤ ResolutionSet.capacity) :
    Accounts set (set.insertAll (offers bytes sources)) (enterAll bytes set sources).run.records
      (remarks bytes set sources) := by
  induction sources generalizing set with
  | nil => exact .refl set
  | cons source rest ih =>
      obtain ⟨ended, completeRest⟩ := List.forall_mem_cons.mp complete
      obtain ⟨otherFirst, otherRest⟩ := List.forall_mem_cons.mp other
      rw [offers, List.flatMap_cons] at fits ⊢
      have first : Accounts set (set.insertAll (source.reading bytes).offers)
          ((source.reading bytes).enter set).records (source.reading bytes).remarks := by
        rw [← Reading.value_enter]
        exact accounts_enterSteps otherFirst (ResolutionSet.fits_left fits)
      have counted : Accounts (set.insertAll (source.reading bytes).offers)
          (set.insertAll (source.reading bytes).offers)
          [Record.count (set.insertAll (source.reading bytes).offers).size source]
          [Record.count (set.insertAll (source.reading bytes).offers).size source] :=
        .remark _ (Record.isAddition_eq_false_of_isCount (Record.isCount_count _ _))
      have later := ih completeRest otherRest (ResolutionSet.fits_insertAll fits)
      rw [enterAll, Logged.records_run_bind, Reading.value_enterOrFail, ended,
        ResolutionSet.insertAll_append]
      exact first.trans (counted.trans later)

end Source

/-! ### The warning -/

/-- **The warning** is about the first block that is not complete, by the maximal chain. -/
theorem Extension.warnings_eq {bytes : Bytes} {blocks : List DataBlock} {last : Nat}
    (maximal : DataBlock.MaximalChain bytes (128 + octet bytes 130) 132 blocks last) :
    warnings bytes =
      if Inspected bytes ∧ 4 < octet bytes 130 ∧ last ≠ 128 + octet bytes 130 then
        [⟨.warn, "Stopped CTA-861 data block walk: " ++
          if last < bytes.length then
            "malformed CTA-861 data block at offset 0x" ++ Hexadecimal.padded 2 last
          else "read of 1 byte(s) at offset 0x" ++ Hexadecimal.padded 2 last ++
            " exceeds buffer length " ++ toString bytes.length⟩]
      else [] := by
  have walked : (firstWalk bytes).failure =
      DataBlock.breakAt bytes (128 + octet bytes 130) last := by
    rw [firstWalk_eq, DataBlock.walk_of_maximal maximal]
  have ends := DataBlock.breakAt_eq_none_iff maximal.chain
  unfold warnings
  rw [walked]
  by_cases inspected : Inspected bytes
  · rw [if_pos inspected]
    by_cases broken : 4 < octet bytes 130 ∧ last ≠ 128 + octet bytes 130
    · have fails : DataBlock.breakAt bytes (128 + octet bytes 130) last ≠ none := by
        intro none
        rcases ends.mp none with reached | small
        · exact broken.2 reached
        · omega
      rw [if_pos ⟨inspected, broken⟩, DataBlock.breakAt_of_ne_none fails]
      by_cases inside : last < bytes.length
      · rw [if_pos inside, if_pos inside]
        rfl
      · rw [if_neg inside, if_neg inside]
        rfl
    · have none : DataBlock.breakAt bytes (128 + octet bytes 130) last = none := by
        refine ends.mpr ?_
        by_contra! apart
        exact broken ⟨by omega, apart.1⟩
      rw [if_neg fun all => broken all.2, none]
      rfl
  · rw [if_neg inspected, if_neg fun all => inspected all.1]

theorem Extension.exists_failure_of_mem_warnings {bytes : Bytes} {record : Record}
    (member : record ∈ warnings bytes) : ∃ failure, record = warning failure := by
  unfold warnings at member
  split at member
  · obtain ⟨failure, _, same⟩ := Option.map_eq_some_iff.mp (Option.mem_toList.mp member)
    exact ⟨failure, same.symm⟩
  · exact absurd member List.not_mem_nil

theorem Extension.level_of_mem_warnings {bytes : Bytes} {record : Record}
    (member : record ∈ warnings bytes) : record.level = .warn := by
  obtain ⟨failure, rfl⟩ := exists_failure_of_mem_warnings member
  rfl

theorem Extension.lacks_of_mem_warnings {bytes : Bytes} {record : Record}
    (member : record ∈ warnings bytes) : Lacks 'R' record.message := by
  obtain ⟨failure, rfl⟩ := exists_failure_of_mem_warnings member
  exact lacks_append.mpr ⟨by decide, failure.lacks_message⟩

/-! ### The enumeration -/

namespace Source

variable {bytes : Bytes}

/-- **The notes of a source** are plain, but for the warning of the extension. -/
theorem exists_remarks_eq_append (whole : blockLength ≤ bytes.length) (source : Source) :
    ∃ front : List Record, (∀ record ∈ front, record.Plain) ∧
      (source.reading bytes).remarks =
        front ++ if source = .extension then Extension.warnings bytes else [] := by
  have plain {reading : Reading} (steps : ∀ step ∈ reading.steps, step.Plain) :
      ∃ front : List Record, (∀ record ∈ front, record.Plain) ∧ reading.remarks = front ++ [] :=
    ⟨reading.remarks, fun _ member => plain_of_mem_remarks steps member,
      (List.append_nil _).symm⟩
  cases source with
  | established => exact plain (Established.plain_steps bytes)
  | standard => exact plain (StandardTiming.plain_steps bytes)
  | detailed => exact plain (DetailedTiming.plain_steps bytes)
  | extension =>
      obtain ⟨front, steps, split⟩ :=
        Extension.exists_steps_eq_append (Nat.le_trans (by decide) whole : 0x7F ≤ bytes.length)
      refine ⟨front.filterMap Step.remark?, fun _ member => plain_of_mem_remarks steps member, ?_⟩
      show (Extension.reading bytes).steps.filterMap Step.remark? = _
      rw [split, List.filterMap_append, List.filterMap_map]
      exact congrArg (front.filterMap Step.remark? ++ ·) List.filterMap_some

variable (whole : blockLength ≤ bytes.length)

include whole

theorem plain_or_mem_warnings {source : Source} {record : Record}
    (member : record ∈ (source.reading bytes).remarks) :
    record.Plain ∨ record ∈ Extension.warnings bytes := by
  obtain ⟨front, plain, split⟩ := exists_remarks_eq_append whole source
  rw [split] at member
  rcases List.mem_append.mp member with early | last
  · exact .inl (plain record early)
  · split at last
    · exact .inr last
    · exact absurd last List.not_mem_nil

theorem isAddition_of_mem_remarks {source : Source} {record : Record}
    (member : record ∈ (source.reading bytes).remarks) : record.isAddition = false := by
  rcases plain_or_mem_warnings whole member with plain | warned
  · exact plain.isAddition
  · exact Record.isAddition_eq_false_of_level
      (by rw [Extension.level_of_mem_warnings warned]; decide)

theorem isCount_of_mem_remarks {source : Source} {record : Record}
    (member : record ∈ (source.reading bytes).remarks) : record.isCount = false := by
  rcases plain_or_mem_warnings whole member with plain | warned
  · exact plain.isCount
  · exact Record.isCount_eq_false_of_level
      (by rw [Extension.level_of_mem_warnings warned]; decide)

theorem lacks_of_mem_remarks {sources : List Source} {set : ResolutionSet} {record : Record}
    (member : record ∈ remarks bytes set sources) : Lacks 'R' record.message := by
  induction sources generalizing set with
  | nil => exact absurd member List.not_mem_nil
  | cons source rest ih =>
      rcases List.mem_append.mp member with noted | later
      · rcases plain_or_mem_warnings whole noted with plain | warned
        · exact plain.clear.2
        · exact Extension.lacks_of_mem_warnings warned
      · rcases List.mem_cons.mp later with rfl | behind
        · exact Record.lacks_count _ source
        · exact ih behind

/-- The counts after some sources. -/
theorem filter_isCount_remarks (source : Source) (rest : List Source) (set : ResolutionSet) :
    (remarks bytes set (source :: rest)).filter Record.isCount =
      Record.count (set.insertAll (source.reading bytes).offers).size source ::
        (remarks bytes (set.insertAll (source.reading bytes).offers) rest).filter
          Record.isCount := by
  have none : (source.reading bytes).remarks.filter Record.isCount = [] :=
    List.filter_eq_nil_iff.mpr fun record member =>
      Bool.eq_false_iff.mp (isCount_of_mem_remarks whole member)
  rw [remarks, List.filter_append, none, List.nil_append,
    List.filter_cons_of_pos (Record.isCount_count _ source)]

/-- The warnings of some sources. -/
theorem filter_isWarning_remarks (sources : List Source) (set : ResolutionSet) :
    (remarks bytes set sources).filter Record.isWarning =
      sources.flatMap fun source =>
        if source = .extension then Extension.warnings bytes else [] := by
  induction sources generalizing set with
  | nil => rfl
  | cons source rest ih =>
      obtain ⟨front, plain, split⟩ := exists_remarks_eq_append whole source
      have none : front.filter Record.isWarning = [] := by
        refine List.filter_eq_nil_iff.mpr fun record member => ?_
        rw [(plain record member).isWarning]
        decide
      have all : (if source = .extension then Extension.warnings bytes else []).filter
          Record.isWarning = if source = .extension then Extension.warnings bytes else [] := by
        refine List.filter_eq_self.mpr fun record member => ?_
        split at member
        · exact decide_eq_true (Extension.level_of_mem_warnings member)
        · exact absurd member List.not_mem_nil
      have count : (Record.count (set.insertAll (source.reading bytes).offers).size
          source).isWarning ≠ true := of_decide_eq_true rfl
      rw [remarks, List.flatMap_cons, List.filter_append, split, List.filter_append, none, all,
        List.nil_append, List.filter_cons_of_neg count, ih]

end Source

theorem ResolutionSet.size_le_insertAll (set : ResolutionSet) (resolutions : List Resolution) :
    set.size ≤ (set.insertAll resolutions).size := by
  rw [size, size, entries_insertAll, List.length_take]
  exact Nat.le_min.mpr ⟨set.bounded, (set.entries_prefix resolutions).length_le⟩

/-- **The records of an enumeration** tell how the empty set grew. -/
theorem accounts_resolutions {bytes : Bytes} (whole : blockLength ≤ bytes.length) :
    Accounts .empty (ResolutionSet.empty.insertAll (Source.offers bytes Source.all))
      (resolutions bytes).run.records (Source.remarks bytes .empty Source.all) := by
  have records : (resolutions bytes).run.records =
      (Source.enterAll bytes .empty Source.all).run.records := by
    unfold resolutions
    rw [Logged.records_run_bind, require_of_le whole]
    rfl
  rw [records]
  refine Source.accounts_enterAll (fun source _ => failure_reading whole source)
    (fun source _ _ member => Source.isAddition_of_mem_remarks whole member) ?_
  rw [offers_all whole]
  exact fits_advertised bytes

/-- **The log tells the enumeration.** On a buffer with a whole base block the traces of additions
are the labels of the set, in order; the four counts never decrease, and the last one is the size of
the set. There is one warning if the first extension is looked into, its data blocks may take up
space, and its maximal chain of complete blocks does not end exactly at the limit: it has the place
of the first block that is not complete. There is no other warning, and no resolution is ever said
to be dropped. -/
theorem log_tells_enumeration {bytes : Bytes} (whole : blockLength ≤ bytes.length) :
    ∃ (set : ResolutionSet) (records : List Record),
      (resolutions bytes).run.value = .ok set ∧
      (resolutions bytes).run.records = records ∧
      records.filter Record.isAddition =
        set.labels.map (fun label => ⟨.trace, "Added resolution " ++ label⟩) ∧
      (∃ one two three, one ≤ two ∧ two ≤ three ∧ three ≤ set.size ∧
        records.filter Record.isCount =
          [.count one .established, .count two .standard, .count three .detailed,
            .count set.size .extension]) ∧
      (∃ blocks last,
        (∀ otherBlocks otherLast,
          DataBlock.MaximalChain bytes (128 + octet bytes 130) 132 otherBlocks otherLast ↔
            otherBlocks = blocks ∧ otherLast = last) ∧
        records.filter Record.isWarning =
          if Extension.Inspected bytes ∧ 4 < octet bytes 130 ∧ last ≠ 128 + octet bytes 130 then
            [⟨.warn, "Stopped CTA-861 data block walk: " ++
              if last < bytes.length then
                "malformed CTA-861 data block at offset 0x" ++ Hexadecimal.padded 2 last
              else "read of 1 byte(s) at offset 0x" ++ Hexadecimal.padded 2 last ++
                " exceeds buffer length " ++ toString bytes.length⟩]
          else []) ∧
      ∀ record ∈ records, ¬ "Resolution set full".toList <:+: record.message.toList := by
  have accounts := accounts_resolutions whole
  refine ⟨_, _, value_resolutions whole, rfl, ?_, ?_, ?_, ?_⟩
  · obtain ⟨new, grown, told⟩ := accounts.additions
    rw [told, ResolutionSet.labels, grown, List.map_map]
    rfl
  · rw [accounts.filter_eq Record.isAddition_eq_false_of_isCount, Source.all,
      Source.filter_isCount_remarks whole, Source.filter_isCount_remarks whole,
      Source.filter_isCount_remarks whole, Source.filter_isCount_remarks whole]
    simp only [Source.offers, List.flatMap_cons, List.flatMap_nil, List.append_nil,
      ResolutionSet.insertAll_append]
    exact ⟨_, _, _, ResolutionSet.size_le_insertAll _ _, ResolutionSet.size_le_insertAll _ _,
      ResolutionSet.size_le_insertAll _ _, rfl⟩
  · obtain ⟨blocks, last, maximal⟩ :=
      DataBlock.exists_maximal bytes (128 + octet bytes 130) 132
    refine ⟨blocks, last, fun otherBlocks otherLast => ⟨maximal.unique, ?_⟩, ?_⟩
    · rintro ⟨rfl, rfl⟩
      exact maximal
    · rw [accounts.filter_eq Record.isAddition_eq_false_of_isWarning,
        Source.filter_isWarning_remarks whole, ← Extension.warnings_eq maximal]
      exact List.append_nil _
  · intro record member full
    have large : 'R' ∈ record.message.toList := full.subset (by decide +kernel)
    rcases accounts.mem_or_mem member with ⟨resolution, rfl⟩ | noted
    · exact Record.lacks_addition resolution large
    · exact Source.lacks_of_mem_remarks whole noted large

/-- The sample with a header that claims more payload than the first data block can have. -/
def overrun : Bytes := sample.set 132 0x5F

/-- The log of that buffer has an addition for each resolution of the base block, and warns of the
first data block. -/
theorem log_tells_enumeration_overrun :
    blockLength ≤ overrun.length ∧
      (resolutions overrun).run.records.filter Record.isAddition =
        ["720x400", "640x480", "800x600", "1024x768", "1280x1024", "1152x870", "1152x864",
          "1280x800", "1600x900", "1920x1080"].map
            (fun label => ⟨.trace, "Added resolution " ++ label⟩) ∧
      (resolutions overrun).run.records.filter Record.isWarning =
        [⟨.warn, "Stopped CTA-861 data block walk: " ++
          "malformed CTA-861 data block at offset 0x84"⟩] := by
  have whole : blockLength ≤ overrun.length := by decide +kernel
  have header : overrun[132]? = some 0x5F := by decide +kernel
  have longer : ¬ DataBlock.nextOf 132 0x5F ≤ 128 + octet overrun 130 := by decide +kernel
  have broken : DataBlock.Broken overrun (128 + octet overrun 130) 132 := by
    intro other complete
    obtain rfl := Option.some_injective _ (header.symm.trans complete.found)
    exact longer complete.within
  obtain ⟨set, _, found, rfl, told, _, ⟨blocks, last, unique, warned⟩, _⟩ :=
    log_tells_enumeration whole
  obtain ⟨rfl, rfl⟩ := (unique [] 132).mp ⟨.done 132, broken⟩
  have labels : (resolutions overrun).run.value.map ResolutionSet.labels =
      .ok ["720x400", "640x480", "800x600", "1024x768", "1280x1024", "1152x870", "1152x864",
        "1280x800", "1600x900", "1920x1080"] := by decide +kernel
  rw [found] at labels
  refine ⟨whole, ?_, ?_⟩
  · rw [told, Except.ok.inj labels]
  · rw [warned]
    decide +kernel

end Edid
