import DisruptaBLE.Bundle7.FirstFragment
import DisruptaBLE.Bundle7.Parser

/-!
# The blocks of fragments

`bundle7_fragment_bundle` step by step: the remainder is built from copies while any request for
memory may be refused, and only then the working bundle is changed (`cutStepwise_eq`).  The payload
block of the remainder is made by `bundle_block_create`, and nothing of the original payload block
but its bytes gets into it (`fragment_semantics_iff`).
-/

namespace Bundle7

open BundleProcessor BundleStorage

/-! ## Definitions -/

/-- The pointer that `bundle7_fragment_bundle` returns. -/
inductive CutResult where
  | null
  | same
  | new (remainder : Bundle)
  deriving DecidableEq, Repr

variable (served : Nat → Bool)

/-- `bundle_block_entry_dup`, with the number of requests so far.  Its requests are those for the
block, its data and its entry. -/
def bundleBlockEntryDup (i : Nat) (x : Block) : Option (Block × Nat) :=
  if !served i then none
  else if !served (i + 1) then none
  else if !served (i + 2) then none
  else some (bundleBlockDup x, i + 3)

/-- The loop that replicates the required extension blocks. -/
def replicateBlocks7 : Nat → List Block → Option (List Block × Nat)
  | i, [] => some ([], i)
  | i, x :: xs =>
      if bundleBlockMustBeReplicated x && x.type ≠ blockTypePayload then
        match bundleBlockEntryDup served i x with
        | none => none
        | some (y, i) => (replicateBlocks7 i xs).map fun (ys, i) => (y :: ys, i)
      else replicateBlocks7 i xs

/-- The payload block of the remainder, with its data, in its entry. -/
def remainderPayload (i : Nat) (b : Bundle) (firstPayloadLength : UInt32) : Option BlockBody :=
  if !served i then none
  else
    let block := (bundleBlockCreate blockTypePayload).toBlockBody
    if !served (i + 1) then none
    else if !served (i + 2) then none
    else some { block with data := otherBytes b.payload.data firstPayloadLength.toNat }

/-- The headers of `bundlefragmenter_create_new_fragment`.  The blocks are not those of the new
fragment. -/
def bundlefragmenterCreateNewFragment (b : Bundle) : Bundle :=
  { b with
    id := invId
    totalAduLength := if b.isFragmented then b.totalAduLength else b.payloadLength
    procFlags := b.procFlags ||| flagIsFragment }

/-- The end of `bundle7_fragment_bundle`, which changes both bundles. -/
def finishCut (b remainder : Bundle) (firstPayloadLength : UInt32) : CutResult × Bundle :=
  let b := if b.isFragmented then b else { b with totalAduLength := b.payloadLength }
  let b := { b with
    payload := { b.payload with data := firstBytes b.payload.data firstPayloadLength.toNat } }
  let remainder := { remainder with
    fragmentOffset := b.fragmentOffset + firstPayloadLength
    totalAduLength := b.totalAduLength }
  let b := { b with procFlags := b.procFlags ||| flagIsFragment }
  let remainder := { remainder with procFlags := remainder.procFlags ||| flagIsFragment }
  (.new (bundleRecalculateHeaderLength remainder), bundleRecalculateHeaderLength b)

/-- `bundle7_fragment_bundle`: the pointer, and the working bundle when it returns. -/
def cutStepwise (b : Bundle) (firstMax : UInt64) : CutResult × Bundle :=
  let firstMin := bundle7GetFirstFragmentMinSize b
  if firstMax.toNat < firstMin then (.null, b)
  else
    let firstPayloadLength := UInt32.ofNat (firstMax.toNat - firstMin)
    if b.payloadLength ≤ firstPayloadLength then (.same, b)
    else if !served 0 then (.null, b)
    else
      let remainder := bundlefragmenterCreateNewFragment b
      match replicateBlocks7 served 1 b.blocks with
      | none => (.null, b)
      | some (blocks, i) =>
          match remainderPayload served i b firstPayloadLength with
          | none => (.null, b)
          | some payload =>
              finishCut b { remainder with blocksBefore := blocks, payload, blocksAfter := [] }
                firstPayloadLength

/-! ## The steps -/

variable {served} {b w remainder : Bundle} {firstMax : UInt64}

/-- The blocks that are replicated. -/
def replicatedBlocks (b : Bundle) : List Block :=
  b.blocks.filter fun x => bundleBlockMustBeReplicated x && x.type ≠ blockTypePayload

theorem replicateBlocks7_eq (served : Nat → Bool) (i : Nat) (xs : List Block) :
    replicateBlocks7 served i xs = none ∨
      ∃ j, replicateBlocks7 served i xs =
        some ((xs.filter fun x => bundleBlockMustBeReplicated x && x.type ≠ blockTypePayload).map
          bundleBlockDup, j) := by
  induction xs generalizing i with
  | nil => exact .inr ⟨i, rfl⟩
  | cons x xs ih =>
      unfold replicateBlocks7
      rw [List.filter_cons]
      split
      · next hcopy =>
        cases hdup : bundleBlockEntryDup served i x with
        | none => exact .inl rfl
        | some copied =>
            obtain ⟨y, j⟩ := copied
            have hy : y = bundleBlockDup x := by
              unfold bundleBlockEntryDup at hdup
              split_ifs at hdup
              exact (Prod.mk.inj (Option.some.inj hdup)).1.symm
            dsimp only
            rcases ih j with hnone | ⟨k, hk⟩
            · left
              rw [hnone]
              rfl
            · refine .inr ⟨k, ?_⟩
              rw [hk, hy]
              rfl
      · exact ih i

/-- The payload block of the remainder is a new one. -/
theorem payload_remainderOf (b : Bundle) (n : UInt32) :
    (remainderOf b n).payload =
      { (bundleBlockCreate blockTypePayload).toBlockBody with
        data := otherBytes b.payload.data n.toNat } := by
  unfold remainderOf
  rw [(recalculate_eq _).choose_spec]
  rfl

theorem remainderPayload_eq (served : Nat → Bool) (i : Nat) (b : Bundle) (n : UInt32) :
    remainderPayload served i b n = none ∨
      remainderPayload served i b n = some (remainderOf b n).payload := by
  unfold remainderPayload
  rw [payload_remainderOf]
  split_ifs
  · exact .inl rfl
  · exact .inl rfl
  · exact .inl rfl
  · exact .inr rfl

theorem finishCut_eq (b : Bundle) (n : UInt32) :
    finishCut b { bundlefragmenterCreateNewFragment b with
        blocksBefore := (replicatedBlocks b).map bundleBlockDup
        payload := (remainderOf b n).payload
        blocksAfter := [] } n =
      (.new (remainderOf b n), firstOf b n) := by
  have hflags : b.procFlags ||| flagIsFragment ||| flagIsFragment =
      b.procFlags ||| flagIsFragment := by
    rw [UInt32.or_assoc, UInt32.or_self]
  unfold finishCut
  rw [payload_remainderOf]
  unfold remainderOf firstOf totalAduLengthOf bundlefragmenterCreateNewFragment
  dsimp only
  rw [hflags]
  split <;> rfl

/-- **The steps** give what the cut as a whole gives, and a cut that is given up leaves the working
bundle as it was. -/
theorem cutStepwise_eq (served : Nat → Bool) (b : Bundle) (firstMax : UInt64) :
    (cutStepwise served b firstMax = (.null, b) ∧
        ∃ mem, bundle7FragmentBundle mem b firstMax = .null) ∨
      (cutStepwise served b firstMax = (.same, b) ∧
        bundle7FragmentBundle true b firstMax = .same) ∨
      ∃ first remainder, cutStepwise served b firstMax = (.new remainder, first) ∧
        bundle7FragmentBundle true b firstMax = .split first remainder := by
  unfold cutStepwise bundle7FragmentBundle
  dsimp only
  split
  · exact .inl ⟨rfl, true, rfl⟩
  · split
    · exact .inr (.inl ⟨rfl, rfl⟩)
    · have hnull : ∃ mem : Bool, (if mem = true then
          Fragmented.split
            (firstOf b (UInt32.ofNat (firstMax.toNat - bundle7GetFirstFragmentMinSize b)))
            (remainderOf b (UInt32.ofNat (firstMax.toNat - bundle7GetFirstFragmentMinSize b)))
          else .null) = .null := ⟨false, rfl⟩
      split
      · exact .inl ⟨rfl, hnull⟩
      · rcases replicateBlocks7_eq served 1 b.blocks with hnone | ⟨j, hcopies⟩
        · rw [hnone]
          exact .inl ⟨rfl, hnull⟩
        · rw [hcopies]
          dsimp only
          rcases remainderPayload_eq served j b
              (UInt32.ofNat (firstMax.toNat - bundle7GetFirstFragmentMinSize b)) with
            hnone | hpayload
          · rw [hnone]
            exact .inl ⟨rfl, hnull⟩
          · rw [hpayload]
            exact .inr (.inr ⟨_, _, finishCut_eq b _, rfl⟩)

/-! ## The blocks -/

/-- What the fragments of a bundle are to have: the first one its blocks with a shorter payload, and
the remainder the blocks that must be replicated and a payload block like the original one. -/
structure SemanticsKept (b first remainder : Bundle) : Prop where
  before : first.blocksBefore = b.blocksBefore
  after : first.blocksAfter = b.blocksAfter
  payload : first.payload = { b.payload with data := first.payload.data }
  blocks : remainder.blocks = replicatedBlocks b ++ [payloadBlock remainder]
  number : remainder.payload.number = b.payload.number
  flags : remainder.payload.flags = b.payload.flags
  crcType : remainder.payload.crcType = b.payload.crcType
  bytes : first.payload.data.bytes ++ remainder.payload.data.bytes = b.payload.data.bytes
  fragments : first.isFragmented = true ∧ remainder.isFragmented = true
  total : remainder.totalAduLength = first.totalAduLength
  offset : remainder.fragmentOffset.toNat = first.fragmentOffset.toNat + first.payloadLength.toNat

/-- The original payload block has the defaults of `bundle_block_create`, copies of EID references
are in their order, and the offset of the remainder is a `uint32_t`. -/
structure HasDefaults (b : Bundle) (firstMax : UInt64) : Prop where
  number : b.payload.number = 1
  flags : b.payload.flags = 0
  crcType : b.payload.crcType = .none
  references : ∀ x ∈ replicatedBlocks b, x.eidRefs.reverse = x.eidRefs
  offset : b.fragmentOffset.toNat + roomForPayload b firstMax < 2 ^ 32

theorem map_bundleBlockDup_iff (xs : List Block) :
    xs.map bundleBlockDup = xs ↔ ∀ x ∈ xs, x.eidRefs.reverse = x.eidRefs := by
  have hdup : ∀ x : Block, bundleBlockDup x = id x ↔ x.eidRefs.reverse = x.eidRefs := by
    intro x
    constructor
    · exact fun h => congrArg (fun y : Block => y.eidRefs) h
    · intro h
      rw [bundleBlockDup, h]
      rfl
  have hmap := List.map_inj_left (l := xs) (f := bundleBlockDup) (g := id)
  rw [List.map_id] at hmap
  rw [hmap]
  exact forall₂_congr fun x _ => hdup x

/-- **One cut** keeps the blocks exactly when the payload block is what a new one is. -/
theorem semanticsKept_iff (hfits : LimitFits b firstMax)
    (hcut : firstPayloadLength b firstMax < b.payloadLength) :
    SemanticsKept b (firstOf b (firstPayloadLength b firstMax))
        (remainderOf b (firstPayloadLength b firstMax)) ↔ HasDefaults b firstMax := by
  have hn : (firstPayloadLength b firstMax).toNat = roomForPayload b firstMax :=
    UInt32.toNat_ofNat_of_lt hfits.2
  generalize firstPayloadLength b firstMax = n at hcut hn ⊢
  obtain ⟨hoffset, htotal, hdata, -, hflag⟩ := firstOf_fields b n
  obtain ⟨hoffset', htotal', hdata', -, hflag'⟩ := remainderOf_fields b n
  have hlength : (firstOf b n).payloadLength = n := by
    rw [Bundle.payloadLength, hdata]
    exact length_firstBytes hcut
  have hfirst : (firstOf b n).blocksBefore = b.blocksBefore ∧
      (firstOf b n).blocksAfter = b.blocksAfter ∧
      (firstOf b n).payload = { b.payload with data := (firstOf b n).payload.data } := by
    unfold firstOf
    rw [(recalculate_eq _).choose_spec]
    exact ⟨rfl, rfl, rfl⟩
  have hremainder : (remainderOf b n).blocks =
        (replicatedBlocks b).map bundleBlockDup ++ [payloadBlock (remainderOf b n)] ∧
      (remainderOf b n).payload.number = 1 ∧ (remainderOf b n).payload.flags = 0 ∧
      (remainderOf b n).payload.crcType = .none := by
    unfold remainderOf
    rw [(recalculate_eq _).choose_spec]
    exact ⟨rfl, rfl, rfl, rfl⟩
  obtain ⟨hblocks, hnumber, hflags, hcrcType⟩ := hremainder
  constructor
  · intro h
    refine ⟨?_, ?_, ?_, ?_, ?_⟩
    · rw [← h.number, hnumber]
    · rw [← h.flags, hflags]
    · rw [← h.crcType, hcrcType]
    · have hmap := hblocks.symm.trans h.blocks
      exact (map_bundleBlockDup_iff _).mp (List.append_cancel_right hmap)
    · have hadd := h.offset
      rw [hoffset', hoffset, hlength, hn] at hadd
      rw [← hadd]
      exact UInt32.toNat_lt _
  · intro h
    refine ⟨hfirst.1, hfirst.2.1, hfirst.2.2, ?_, ?_, ?_, ?_, ?_, ⟨hflag, hflag'⟩, ?_, ?_⟩
    · rw [hblocks, (map_bundleBlockDup_iff _).mpr h.references]
    · rw [hnumber, h.number]
    · rw [hflags, h.flags]
    · rw [hcrcType, h.crcType]
    · rw [hdata, hdata']
      exact List.take_append_drop _ _
    · rw [htotal, htotal']
    · rw [hoffset', hoffset, hlength, UInt32.toNat_add, hn]
      exact Nat.mod_eq_of_lt h.offset

/-- **The cut of version 7** keeps the meaning of the blocks exactly in the bundles whose payload
block has the defaults, and leaves the working bundle as it is when it gives up. -/
theorem fragment_semantics_iff (served : Nat → Bool) (b : Bundle) (firstMax : UInt64)
    (hfits : LimitFits b firstMax) :
    (∀ remainder w, cutStepwise served b firstMax = (.new remainder, w) →
      (SemanticsKept b w remainder ↔ HasDefaults b firstMax)) ∧
      ∀ w, cutStepwise served b firstMax = (.null, w) → w = b := by
  rcases cutStepwise_eq served b firstMax with
    ⟨hnull, -⟩ | ⟨hsame, -⟩ | ⟨first, remainder, hnew, hsplit⟩
  · rw [hnull]
    refine ⟨fun remainder w h => ?_, fun w h => (Prod.mk.inj h).2.symm⟩
    cases (Prod.mk.inj h).1
  · rw [hsame]
    refine ⟨fun remainder w h => ?_, fun w h => ?_⟩
    · cases (Prod.mk.inj h).1
    · cases (Prod.mk.inj h).1
  · rw [hnew]
    refine ⟨fun remainder' w h => ?_, fun w h => ?_⟩
    · obtain ⟨hresult, rfl⟩ := Prod.mk.inj h
      obtain rfl := CutResult.new.inj hresult
      obtain ⟨-, hcut, rfl, rfl⟩ := firstOf_of_split hsplit
      exact semanticsKept_iff hfits hcut
    · cases (Prod.mk.inj h).1

theorem fragment_semantics_iff_seven :
    ∃ remainder w,
      cutStepwise (fun _ => true) (helloBundle 0 28) (sevenBytesOf (helloBundle 0 28)) =
        (.new remainder, w) ∧
      (SemanticsKept (helloBundle 0 28) w remainder ↔
        HasDefaults (helloBundle 0 28) (sevenBytesOf (helloBundle 0 28))) := by
  have hnew : cutStepwise (fun _ => true) (helloBundle 0 28) (sevenBytesOf (helloBundle 0 28)) =
      (.new (remainderOf (helloBundle 0 28) 7), firstOf (helloBundle 0 28) 7) := rfl
  exact ⟨_, _, hnew, (fragment_semantics_iff _ _ _ ⟨by decide, by decide⟩).1 _ _ hnew⟩

/-- **The CRC of the payload** is lost with the first cut. -/
theorem payload_crc_lost :
    ∃ remainder w,
      cutStepwise (fun _ => true) (helloBundle 0 28) (sevenBytesOf (helloBundle 0 28)) =
        (.new remainder, w) ∧
      remainder.payload.crcType = .none ∧ (helloBundle 0 28).payload.crcType = .crc16 ∧
      ¬ SemanticsKept (helloBundle 0 28) w remainder := by
  refine ⟨remainderOf (helloBundle 0 28) 7, firstOf (helloBundle 0 28) 7, rfl, rfl, rfl, ?_⟩
  intro h
  have hcrc : CrcType.none = CrcType.crc16 := h.crcType
  cases hcrc

end Bundle7
