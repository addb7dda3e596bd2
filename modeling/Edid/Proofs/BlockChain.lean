/-
**The chain of data blocks.** What the walk through an extension finds is described without the
walk: a block is *complete* when its header is in the buffer and its payload ends within the limit
and within the buffer, and a *chain* is a sequence of complete blocks each of which begins where
the one before it ends. A chain is maximal when no complete block begins where it stops.

* `walk_of_maximal`: the walk gives the blocks of the maximal chain, and its failure is decided by
  where that chain stops (`breakAt`);
* `exists_maximal`: there is a maximal chain from every position, so there is exactly one;
* `blocks_walk_take`: in a buffer cut short the walk finds the blocks that end before the cut;
* `walk_congr`: buffers that are alike up to the limit are walked alike;
* `maximal_layOut`: blocks that are laid out one behind the other up to the limit are the maximal
  chain.
-/

import Mathlib.Data.Nat.Bitwise
import Edid.Extension.DataBlock

namespace Edid

namespace DataBlock

/-! ### The fields of a header -/

theorem lengthOf_eq (header : UInt8) : lengthOf header = header.toNat % 32 := by
  rw [lengthOf, UInt8.toNat_and]
  exact Nat.and_two_pow_sub_one_eq_mod header.toNat 5

theorem tagOf_eq (header : UInt8) : tagOf header = .ofNat (header.toNat / 32) := by
  apply UInt8.toNat_inj.mp
  have small := header.toNat_lt
  rw [tagOf, UInt8.toNat_shiftRight, UInt8.toNat_ofNat']
  show header.toNat >>> 5 = _
  rw [Nat.shiftRight_eq_div_pow]
  omega

/-! ### Complete blocks -/

def stop (block : DataBlock) : Nat := block.offset + 1 + block.payload.length

/-- The offset after the block that a header at `position` opens. -/
def nextOf (position : Nat) (header : UInt8) : Nat := position + 1 + header.toNat % 32

/-- The header at `position` opens a complete block: it is in the buffer, and its payload ends
within the limit and within the buffer. -/
structure Complete (bytes : Bytes) (limit position : Nat) (header : UInt8) : Prop where
  found : bytes[position]? = some header
  within : nextOf position header ≤ limit
  held : nextOf position header ≤ bytes.length

/-- The block that a header at `position` opens. -/
def ofHeader (bytes : Bytes) (position : Nat) (header : UInt8) : DataBlock :=
  ⟨position, .ofNat (header.toNat / 32), (bytes.drop (position + 1)).take (header.toNat % 32)⟩

/-- No complete block begins at `position`. -/
def Broken (bytes : Bytes) (limit position : Nat) : Prop :=
  ∀ header, ¬ Complete bytes limit position header

/-- What a walk answers that finds no complete block at `position`: all is well from the limit on,
a header within the buffer opens a malformed block, and one past it is out of range. -/
def breakAt (bytes : Bytes) (limit position : Nat) : Option ReadError :=
  if limit ≤ position then none
  else if position < bytes.length then some (.malformedBlock position)
  else some (.outOfRange position 1 bytes.length)

variable {bytes : Bytes} {limit position : Nat} {header : UInt8}

theorem Complete.stop_ofHeader (complete : Complete bytes limit position header) :
    (ofHeader bytes position header).stop = nextOf position header := by
  have held := complete.held
  unfold nextOf at held
  simp only [stop, ofHeader, nextOf, List.length_take, List.length_drop]
  omega

theorem Complete.header_eq {other : UInt8} {otherLimit : Nat}
    (complete : Complete bytes limit position header)
    (also : Complete bytes otherLimit position other) : other = header :=
  Option.some_injective _ (also.found.symm.trans complete.found)

/-- **One step of the walk**: a complete block is taken, and the walk goes on behind it. -/
theorem walk_of_complete (complete : Complete bytes limit position header) :
    walk bytes limit position =
      ⟨ofHeader bytes position header :: (walk bytes limit (nextOf position header)).blocks,
        (walk bytes limit (nextOf position header)).failure⟩ := by
  obtain ⟨found, within, held⟩ := complete
  obtain ⟨inside, rfl⟩ := List.getElem?_eq_some_iff.mp found
  unfold nextOf at within held ⊢
  rw [walk, if_pos (by omega), Field.byteAt_of_lt inside]
  simp only [lengthOf_eq]
  rw [if_neg (by omega), Field.slice_of_fits (by omega)]
  simp only [tagOf_eq, ofHeader]

/-- **The last step of the walk**: where no complete block begins it stops, with the failure of
that place. -/
theorem walk_of_broken (broken : Broken bytes limit position) :
    walk bytes limit position = ⟨[], breakAt bytes limit position⟩ := by
  unfold breakAt
  rw [walk]
  by_cases before : position < limit
  · rw [if_pos before, if_neg (Nat.not_le_of_lt before)]
    by_cases inside : position < bytes.length
    · have overruns : limit < nextOf position bytes[position] ∨
          bytes.length < nextOf position bytes[position] := by
        by_contra! fits
        exact broken _ ⟨List.getElem?_eq_getElem inside, fits.1, fits.2⟩
      unfold nextOf at overruns
      rw [Field.byteAt_of_lt inside, if_pos inside]
      simp only [lengthOf_eq]
      by_cases past : limit < position + 1 + bytes[position].toNat % 32
      · rw [if_pos past]
      · rw [if_neg past, Field.slice_of_overruns (overruns.resolve_left past)]
    · rw [Field.byteAt_of_le (Nat.le_of_not_lt inside), if_neg inside]
  · rw [if_neg before, if_pos (Nat.le_of_not_lt before)]

/-! ### Chains -/

/-- A chain of complete blocks from one offset to another. -/
inductive Chain (bytes : Bytes) (limit : Nat) : Nat → List DataBlock → Nat → Prop where
  | done (position : Nat) : Chain bytes limit position [] position
  | block {position : Nat} {header : UInt8} {blocks : List DataBlock} {last : Nat}
      (complete : Complete bytes limit position header)
      (rest : Chain bytes limit (nextOf position header) blocks last) :
      Chain bytes limit position (ofHeader bytes position header :: blocks) last

/-- A chain that no complete block continues. -/
structure MaximalChain (bytes : Bytes) (limit position : Nat) (blocks : List DataBlock)
    (last : Nat) : Prop where
  chain : Chain bytes limit position blocks last
  broken : Broken bytes limit last

variable {blocks : List DataBlock} {last : Nat}

/-- **The walk finds the maximal chain.** -/
theorem walk_of_maximal (maximal : MaximalChain bytes limit position blocks last) :
    walk bytes limit position = ⟨blocks, breakAt bytes limit last⟩ := by
  obtain ⟨chain, broken⟩ := maximal
  induction chain with
  | done position => exact walk_of_broken broken
  | block complete rest ih => rw [walk_of_complete complete, ih broken]

/-- **There is a maximal chain** from every position: each block takes the chain closer to the
limit. -/
theorem exists_maximal (bytes : Bytes) (limit position : Nat) :
    ∃ blocks last, MaximalChain bytes limit position blocks last := by
  by_cases broken : Broken bytes limit position
  · exact ⟨[], position, .done position, broken⟩
  · unfold Broken at broken
    push Not at broken
    obtain ⟨header, complete⟩ := broken
    have closer : limit - nextOf position header < limit - position := by
      have within := complete.within
      unfold nextOf at within ⊢
      omega
    obtain ⟨blocks, last, chain, stuck⟩ := exists_maximal bytes limit (nextOf position header)
    exact ⟨_, last, .block complete chain, stuck⟩
termination_by limit - position

theorem Chain.le_limit (chain : Chain bytes limit position blocks last)
    (start : position ≤ limit) : last ≤ limit := by
  induction chain with
  | done position => exact start
  | block complete rest ih => exact ih complete.within

theorem Chain.le_last (chain : Chain bytes limit position blocks last) : position ≤ last := by
  induction chain with
  | done position => exact Nat.le_refl _
  | block complete rest ih =>
      unfold nextOf at ih
      omega

/-- Beyond the limit there is no chain but the one without blocks. -/
theorem Chain.eq_of_limit_le (chain : Chain bytes limit position blocks last)
    (beyond : limit ≤ position) : last = position := by
  cases chain with
  | done => rfl
  | block complete rest =>
      have within := complete.within
      unfold nextOf at within
      omega

/-- The walk ends well exactly when its chain fills the space up to the limit, or there is none. -/
theorem breakAt_eq_none_iff (chain : Chain bytes limit position blocks last) :
    breakAt bytes limit last = none ↔ last = limit ∨ limit ≤ position := by
  have ended : breakAt bytes limit last = none ↔ limit ≤ last := by
    unfold breakAt
    by_cases reached : limit ≤ last
    · simp [reached]
    · by_cases inside : last < bytes.length <;> simp [reached, inside]
  rw [ended]
  rcases Nat.le_total limit position with beyond | start
  · have stay := chain.eq_of_limit_le beyond
    omega
  · have bound := chain.le_limit start
    have forward := chain.le_last
    omega

/-- A walk that does not end well fails on the first block that is not complete. -/
theorem breakAt_of_ne_none (fails : breakAt bytes limit last ≠ none) :
    breakAt bytes limit last = some (if last < bytes.length then .malformedBlock last
      else .outOfRange last 1 bytes.length) := by
  unfold breakAt at fails ⊢
  split
  · rename_i ended
    exact absurd (if_pos ended) fails
  · split <;> rfl

/-- **There is one maximal chain** from a position. -/
theorem MaximalChain.unique {otherBlocks : List DataBlock} {otherLast : Nat}
    (maximal : MaximalChain bytes limit position blocks last)
    (other : MaximalChain bytes limit position otherBlocks otherLast) :
    otherBlocks = blocks ∧ otherLast = last := by
  obtain ⟨chain, broken⟩ := maximal
  obtain ⟨otherChain, otherBroken⟩ := other
  induction chain generalizing otherBlocks with
  | done position =>
      cases otherChain with
      | done => exact ⟨rfl, rfl⟩
      | block complete _ => exact absurd complete (broken _)
  | block complete rest ih =>
      cases otherChain with
      | done => exact absurd complete (otherBroken _)
      | block also otherRest =>
          obtain rfl := complete.header_eq also
          obtain ⟨sameBlocks, sameLast⟩ := ih broken otherRest
          exact ⟨by rw [sameBlocks], sameLast⟩

theorem Chain.lt_stop (chain : Chain bytes limit position blocks last) :
    ∀ block ∈ blocks, position < block.stop := by
  induction chain with
  | done position => exact fun block member => absurd member List.not_mem_nil
  | @block position header blocks last complete rest ih =>
      have forward : position < nextOf position header := by
        unfold nextOf
        omega
      intro block member
      rcases List.mem_cons.mp member with rfl | later
      · rw [complete.stop_ofHeader]
        exact forward
      · exact forward.trans (ih block later)

theorem Chain.stop_le_limit (chain : Chain bytes limit position blocks last) :
    ∀ block ∈ blocks, block.stop ≤ limit := by
  induction chain with
  | done position => exact fun block member => absurd member List.not_mem_nil
  | block complete rest ih =>
      intro block member
      rcases List.mem_cons.mp member with rfl | later
      · rw [complete.stop_ofHeader]
        exact complete.within
      · exact ih block later

/-! ### Buffers cut short -/

theorem complete_take_iff {length : Nat} :
    Complete (bytes.take length) limit position header ↔
      Complete bytes limit position header ∧ nextOf position header ≤ length := by
  constructor
  · rintro ⟨found, within, held⟩
    rw [List.length_take] at held
    rw [List.getElem?_take] at found
    split at found
    · exact ⟨⟨found, within, by omega⟩, by omega⟩
    · cases found
  · rintro ⟨⟨found, within, held⟩, kept⟩
    have inside : position < length := by
      unfold nextOf at kept
      omega
    refine ⟨?_, within, ?_⟩
    · rw [List.getElem?_take_of_lt inside, found]
    · rw [List.length_take]
      omega

theorem ofHeader_take {length : Nat} (kept : nextOf position header ≤ length) :
    ofHeader (bytes.take length) position header = ofHeader bytes position header := by
  unfold nextOf at kept
  unfold ofHeader
  rw [List.drop_take, List.take_take, Nat.min_eq_left (by omega)]

/-- The blocks of a chain that begins behind an offset all end behind it. -/
theorem Chain.filter_of_lt {length : Nat} (chain : Chain bytes limit position blocks last)
    (behind : length < position) :
    (blocks.filter fun block => block.stop ≤ length) = [] ∧
      (blocks.filter fun block => length < block.stop) = blocks := by
  have later : ∀ block ∈ blocks, length < block.stop := fun block member =>
    behind.trans (chain.lt_stop block member)
  constructor
  · refine List.filter_eq_nil_iff.mpr fun block member => ?_
    simpa using later block member
  · refine List.filter_eq_self.mpr fun block member => ?_
    simpa using later block member

/-- The blocks of a chain that end by an offset stand before those that end behind it. -/
theorem Chain.filter_append_filter (chain : Chain bytes limit position blocks last)
    (length : Nat) :
    (blocks.filter fun block => block.stop ≤ length) ++
      (blocks.filter fun block => length < block.stop) = blocks := by
  induction chain with
  | done position => rfl
  | @block position header blocks last complete rest ih =>
      by_cases kept : nextOf position header ≤ length
      · have notLost : ¬ length < nextOf position header := Nat.not_lt_of_le kept
        simp only [List.filter_cons, complete.stop_ofHeader, kept, notLost, decide_true,
          decide_false, if_true, Bool.false_eq_true, if_false, List.cons_append]
        rw [ih]
      · have lost : length < nextOf position header := Nat.lt_of_not_le kept
        obtain ⟨none, all⟩ := rest.filter_of_lt lost
        simp only [List.filter_cons, complete.stop_ofHeader, kept, lost, decide_true,
          decide_false, if_true, Bool.false_eq_true, if_false]
        rw [none, all, List.nil_append]

/-- **A buffer cut short** has the blocks that end before the cut as its maximal chain. -/
theorem MaximalChain.take (maximal : MaximalChain bytes limit position blocks last)
    (length : Nat) :
    ∃ cut, MaximalChain (bytes.take length) limit position
      (blocks.filter fun block => block.stop ≤ length) cut := by
  obtain ⟨chain, broken⟩ := maximal
  induction chain with
  | done position =>
      exact ⟨position, .done position, fun header complete =>
        broken header (complete_take_iff.mp complete).1⟩
  | @block position header blocks last complete rest ih =>
      by_cases kept : nextOf position header ≤ length
      · obtain ⟨cut, chain, stuck⟩ := ih broken
        refine ⟨cut, ?_, stuck⟩
        rw [List.filter_cons, complete.stop_ofHeader, if_pos (by simpa using kept),
          ← ofHeader_take kept]
        exact .block (complete_take_iff.mpr ⟨complete, kept⟩) chain
      · obtain ⟨none, _⟩ := rest.filter_of_lt (Nat.lt_of_not_le kept)
        refine ⟨position, ?_, ?_⟩
        · rw [List.filter_cons, complete.stop_ofHeader, if_neg (by simpa using kept), none]
          exact .done position
        · intro other also
          obtain ⟨whole, ends⟩ := complete_take_iff.mp also
          rw [complete.header_eq whole] at ends
          exact kept ends

theorem stop_le_of_mem_walk {block : DataBlock}
    (member : block ∈ (walk bytes limit position).blocks) :
    block.stop ≤ limit := by
  obtain ⟨blocks, last, maximal⟩ := exists_maximal bytes limit position
  rw [walk_of_maximal maximal] at member
  exact maximal.chain.stop_le_limit block member

theorem filter_append_filter_walk (bytes : Bytes) (limit position length : Nat) :
    ((walk bytes limit position).blocks.filter fun block => block.stop ≤ length) ++
      ((walk bytes limit position).blocks.filter fun block => length < block.stop) =
        (walk bytes limit position).blocks := by
  obtain ⟨blocks, last, maximal⟩ := exists_maximal bytes limit position
  rw [walk_of_maximal maximal]
  exact maximal.chain.filter_append_filter length

/-- The walk through a buffer cut short finds the blocks that end before the cut. -/
theorem blocks_walk_take (bytes : Bytes) (limit position length : Nat) :
    (walk (bytes.take length) limit position).blocks =
      (walk bytes limit position).blocks.filter fun block => block.stop ≤ length := by
  obtain ⟨blocks, last, maximal⟩ := exists_maximal bytes limit position
  obtain ⟨cut, maximalCut⟩ := maximal.take length
  rw [walk_of_maximal maximal, walk_of_maximal maximalCut]

/-! ### Buffers alike up to the limit -/

section Alike

variable {first second : Bytes}

theorem Complete.congr (complete : Complete first limit position header)
    (length : first.length = second.length) (same : first[position]? = second[position]?) :
    Complete second limit position header :=
  ⟨same ▸ complete.found, complete.within, length ▸ complete.held⟩

theorem ofHeader_congr
    (same : ∀ offset, position < offset → offset < nextOf position header →
      first[offset]? = second[offset]?) :
    ofHeader first position header = ofHeader second position header := by
  have payload : (first.drop (position + 1)).take (header.toNat % 32) =
      (second.drop (position + 1)).take (header.toNat % 32) := by
    apply List.ext_getElem?
    intro index
    rw [List.getElem?_take, List.getElem?_take]
    split
    · rename_i inside
      unfold nextOf at same
      rw [List.getElem?_drop, List.getElem?_drop, same _ (by omega) (by omega)]
    · rfl
  rw [ofHeader, ofHeader, payload]

/-- Buffers of one length that are alike from the start of a chain up to the limit have the same
maximal chain. -/
theorem MaximalChain.congr (maximal : MaximalChain first limit position blocks last)
    (length : first.length = second.length)
    (same : ∀ offset, position ≤ offset → offset < limit → first[offset]? = second[offset]?) :
    MaximalChain second limit position blocks last := by
  obtain ⟨chain, broken⟩ := maximal
  induction chain with
  | done position =>
      refine ⟨.done position, fun header complete => broken header ?_⟩
      have inside : position < limit := by
        have within := complete.within
        unfold nextOf at within
        omega
      exact complete.congr length.symm (same position (Nat.le_refl _) inside).symm
  | @block position header blocks last complete rest ih =>
      have within := complete.within
      have forward : position < nextOf position header := by
        unfold nextOf
        omega
      have behind : ∀ offset, nextOf position header ≤ offset → offset < limit →
          first[offset]? = second[offset]? :=
        fun offset after before => same offset (forward.le.trans after) before
      obtain ⟨chain, stuck⟩ := ih behind broken
      have here := same position (Nat.le_refl _) (forward.trans_le within)
      refine ⟨?_, stuck⟩
      rw [ofHeader_congr fun offset after before => same offset after.le (before.trans_le within)]
      exact .block (complete.congr length here) chain

/-- **The walk sees nothing behind the limit**: buffers of one length that are alike up to it are
walked alike. -/
theorem walk_congr (length : first.length = second.length)
    (same : ∀ offset, position ≤ offset → offset < limit → first[offset]? = second[offset]?) :
    walk first limit position = walk second limit position := by
  obtain ⟨blocks, last, maximal⟩ := exists_maximal first limit position
  rw [walk_of_maximal maximal, walk_of_maximal (maximal.congr length same), breakAt, breakAt,
    length]

end Alike

/-! ### Blocks laid out -/

/-- A block without a place: a tag of three bits and at most 31 bytes of payload. -/
structure Content where
  tag : UInt8
  payload : Bytes
  tag_lt : tag.toNat < 8
  length_lt : payload.length < 32

namespace Content

/-- The header of a block: the tag above the length. -/
def opening (content : Content) : UInt8 := .ofNat (32 * content.tag.toNat + content.payload.length)

/-- A block as bytes: the header, then the payload. -/
def encode (content : Content) : Bytes := content.opening :: content.payload

theorem toNat_opening (content : Content) :
    content.opening.toNat = 32 * content.tag.toNat + content.payload.length := by
  have tag := content.tag_lt
  have length := content.length_lt
  rw [opening, UInt8.toNat_ofNat']
  omega

def encodeAll (contents : List Content) : Bytes := contents.flatMap encode

/-- The places that blocks one behind the other take from `position` on. -/
def layOut : Nat → List Content → List DataBlock
  | _, [] => []
  | position, content :: rest =>
      ⟨position, content.tag, content.payload⟩ ::
        layOut (position + content.encode.length) rest

end Content

open Content

/-- A block whose bytes stand in the buffer and end within the limit is complete. -/
theorem complete_of_encode {content : Content} {rest : Bytes}
    (laid : content.encode ++ rest <+: bytes.drop position)
    (within : position + content.encode.length ≤ limit) :
    Complete bytes limit position content.opening ∧
      ofHeader bytes position content.opening = ⟨position, content.tag, content.payload⟩ ∧
      nextOf position content.opening = position + content.encode.length := by
  have tag := content.tag_lt
  have length := content.length_lt
  have opening := content.toNat_opening
  obtain ⟨after, split⟩ := laid
  have size := congrArg List.length split
  have next : nextOf position content.opening = position + content.encode.length := by
    simp only [nextOf, encode, List.length_cons]
    omega
  simp only [encode, List.length_append, List.length_cons, List.length_drop] at size within
  have tail : bytes.drop (position + 1) = content.payload ++ (rest ++ after) := by
    rw [← List.drop_drop, ← split]
    simp [encode]
  refine ⟨⟨?_, ?_, ?_⟩, ?_, next⟩
  · have first := congrArg (·[0]?) split
    simpa [encode] using first.symm
  · rw [next]
    simpa only [encode, List.length_cons] using within
  · rw [next]
    simp only [encode, List.length_cons]
    omega
  · unfold ofHeader
    have upper : content.opening.toNat / 32 = content.tag.toNat := by omega
    have lower : content.opening.toNat % 32 = content.payload.length := by omega
    rw [upper, lower, tail, List.take_left, UInt8.ofNat_toNat]

/-- Blocks that stand in the buffer one behind the other are a chain. -/
theorem chain_layOut {contents : List Content}
    (laid : encodeAll contents <+: bytes.drop position)
    (within : position + (encodeAll contents).length ≤ limit) :
    Chain bytes limit position (layOut position contents)
      (position + (encodeAll contents).length) := by
  induction contents generalizing position with
  | nil => exact .done position
  | cons content rest ih =>
      rw [encodeAll, List.flatMap_cons] at laid within ⊢
      rw [List.length_append] at within ⊢
      have fits : position + content.encode.length ≤ limit := by omega
      obtain ⟨complete, same, next⟩ := complete_of_encode laid fits
      have laidRest : encodeAll rest <+: bytes.drop (position + content.encode.length) := by
        obtain ⟨after, split⟩ := laid
        refine ⟨after, ?_⟩
        rw [← List.drop_drop, ← split, List.append_assoc, List.drop_left]
        rfl
      have chain := ih laidRest (by
        unfold encodeAll
        omega)
      rw [layOut, ← same, ← next, ← Nat.add_assoc, ← next]
      rw [← next] at chain
      exact .block complete chain

/-- **Blocks laid out up to the limit** are the maximal chain. -/
theorem maximal_layOut {contents : List Content}
    (laid : encodeAll contents <+: bytes.drop position)
    (filled : position + (encodeAll contents).length = limit) :
    MaximalChain bytes limit position (layOut position contents) limit := by
  have chain : Chain bytes limit position (layOut position contents)
      (position + (encodeAll contents).length) := chain_layOut laid (Nat.le_of_eq filled)
  rw [filled] at chain
  refine ⟨chain, fun header complete => ?_⟩
  have within := complete.within
  unfold nextOf at within
  omega

end DataBlock

end Edid
