import DisruptaBLE.Bundle7.FragmentBlocks
import DisruptaBLE.Contact.Fragmenter

/-!
# Fragments of version 6

`bundle6_fragment_bundle` and `replicate_blocks` of `components/bundle6/fragment.c`, when the
requests for memory are served.  The list of blocks is cut behind the payload block, its second
part moves to the remainder, and copies of the blocks that must be replicated are added to both
lists.

`replicate_blocks` writes through the null pointer behind its copies of the blocks before the
payload, and nothing sets the flag of the last block in the copies of the blocks after it
(`cut_six_iff`).
-/

namespace Bundle6

open BundleProcessor BundleStorage Bundle7 ContactRouter

/-! ## Definitions -/

/-- The blocks of a list that `replicate_blocks` copies. -/
def mustReplicate (blocks : List Block) : List Block :=
  blocks.filter fun x => bundleBlockMustBeReplicated x && x.type ≠ blockTypePayload

/-- The remainder before `replicate_blocks`: the fragment of `bundlefragmenter_create_new_fragment`,
whose payload block has the flags of the original one, with the other bytes of the payload, and the
blocks behind the payload block. -/
def cutOff (b : Bundle) (firstPayloadLength : UInt32) : Bundle :=
  { bundlefragmenterCreateNewFragment b with
    fragmentOffset := b.fragmentOffset + firstPayloadLength
    blocksBefore := []
    payload :=
      { (Bundle7.bundleBlockCreate blockTypePayload).toBlockBody with
        flags := b.payload.flags
        data := otherBytes b.payload.data firstPayloadLength.toNat }
    blocksAfter := b.blocksAfter }

/-- The working bundle before `replicate_blocks`: its payload block is now the last one. -/
def shortened (b : Bundle) (firstPayloadLength : UInt32) : Bundle :=
  let b := if b.isFragmented then b else { b with totalAduLength := b.payloadLength }
  { b with
    payload :=
      { b.payload with
        flags := b.payload.flags ||| blockFlagLastBlock
        data := firstBytes b.payload.data firstPayloadLength.toNat }
    blocksAfter := [] }

/-- `replicate_blocks`.  The first loop leaves `item` at the slot behind the last copy.  This slot
is `NULL`, and the blocks of the remainder are to be linked behind it.  The second loop begins at
the payload block of the remainder. -/
def replicateBlocks (first second : Bundle) : Except Fault (Bundle × Bundle) :=
  if replicated (first.blocksBefore ++ [payloadBlock first]) ≠ [] then .error (.other .nullDeref)
  else
    let list := replicated (payloadBlock second :: second.blocksAfter)
    if list = [] then .ok (first, second)
    else
      .ok ({ first with
          payload := { first.payload with flags := first.payload.flags &&& ~~~blockFlagLastBlock }
          blocksAfter := list },
        second)

/-- `bundle6_fragment_bundle`: the pointer, and the working bundle when it returns.  `realloc`
returns `NULL` for no bytes, which an assertion excludes. -/
def fragmentBundle (b : Bundle) (firstMax : UInt64) : Except Fault (CutResult × Bundle) :=
  let (firstMin, b) := getSerializedSize b true true false
  let firstPayloadLength := (firstMax - UInt64.ofNat firstMin).toUInt32
  if b.payloadLength ≤ firstPayloadLength then .ok (.same, b)
  else if firstPayloadLength = 0 then .error (.other .assertFailed)
  else
    match replicateBlocks (shortened b firstPayloadLength) (cutOff b firstPayloadLength) with
    | .error f => .error f
    | .ok (b, remainder) =>
        let b := { b with procFlags := b.procFlags ||| flagIsFragment }
        .ok (.new (bundleRecalculateHeaderLength remainder), bundleRecalculateHeaderLength b)

/-- Exactly the final block has `BUNDLE_V6_BLOCK_FLAG_LAST_BLOCK`. -/
def finalOnly : List Block → Bool
  | [] => false
  | [x] => hasFlag x.flags blockFlagLastBlock
  | x :: y :: xs => !hasFlag x.flags blockFlagLastBlock && finalOnly (y :: xs)

/-- `first_payload_length`. -/
def firstLength (b : Bundle) (firstMax : UInt64) : UInt32 :=
  (firstMax - UInt64.ofNat (getSerializedSize b true true false).1).toUInt32

/-- What the fragments are to have. -/
structure CutInTwo (b first remainder : Bundle) : Prop where
  firstBlocks : first.blocks =
    b.blocksBefore ++ payloadBlock first :: mustReplicate b.blocksAfter
  payload : ∃ flags, flags &&& ~~~blockFlagLastBlock = b.payload.flags &&& ~~~blockFlagLastBlock ∧
    first.payload = { b.payload with flags, data := first.payload.data }
  remainderBlocks : remainder.blocks =
    mustReplicate b.blocksBefore ++ payloadBlock remainder :: b.blocksAfter
  bytes : first.payload.data.bytes ++ remainder.payload.data.bytes = b.payload.data.bytes
  fragments : first.isFragmented = true ∧ remainder.isFragmented = true
  total : first.totalAduLength = totalAduLengthOf b ∧ remainder.totalAduLength = totalAduLengthOf b
  offset : first.fragmentOffset = b.fragmentOffset ∧
    remainder.fragmentOffset.toNat = first.fragmentOffset.toNat + first.payloadLength.toNat
  last : finalOnly first.blocks = true ∧ finalOnly remainder.blocks = true

/-- The bundles, and the limits, for which they have it. -/
structure Cuttable (b : Bundle) (firstMax : UInt64) : Prop where
  length : 0 < firstLength b firstMax ∧ firstLength b firstMax < b.payloadLength
  before : mustReplicate b.blocksBefore = []
  references : ∀ x ∈ mustReplicate b.blocksAfter, x.eidRefs.reverse = x.eidRefs
  offset : b.fragmentOffset.toNat + (firstLength b firstMax).toNat < 2 ^ 32
  notLast : ∀ x ∈ b.blocksBefore, hasFlag x.flags blockFlagLastBlock = false
  last : finalOnly (payloadBlock b :: b.blocksAfter) = true
  copies : mustReplicate b.blocksAfter ≠ [] → finalOnly (mustReplicate b.blocksAfter) = true

/-! ## The cut -/

variable {b : Bundle} {firstMax : UInt64} {n : UInt32}

theorem replicated_eq (xs : List Block) : replicated xs = (mustReplicate xs).map bundleBlockDup :=
  rfl

theorem replicated_eq_nil {xs : List Block} : replicated xs = [] ↔ mustReplicate xs = [] := by
  rw [replicated_eq, List.map_eq_nil_iff]

/-- The payload block is never replicated. -/
theorem mustReplicate_payload (b : Bundle) (xs ys : List Block) :
    mustReplicate (xs ++ payloadBlock b :: ys) = mustReplicate (xs ++ ys) := by
  have hpayload : (bundleBlockMustBeReplicated (payloadBlock b) &&
      (payloadBlock b).type ≠ blockTypePayload) = false := by
    simp [payloadBlock]
  unfold mustReplicate
  rw [List.filter_append, List.filter_append, List.filter_cons_of_neg (by rw [hpayload]; decide)]

theorem shortened_blocks (b : Bundle) (n : UInt32) :
    (shortened b n).blocksBefore = b.blocksBefore ∧ (shortened b n).blocksAfter = [] := by
  unfold shortened
  split <;> exact ⟨rfl, rfl⟩

/-- The lists behind `replicate_blocks`. -/
theorem replicateBlocks_eq (b : Bundle) (n : UInt32) :
    replicateBlocks (shortened b n) (cutOff b n) =
      if mustReplicate b.blocksBefore ≠ [] then .error (.other .nullDeref)
      else
        .ok ({ shortened b n with
            payload := { (shortened b n).payload with
              flags :=
                if replicated b.blocksAfter = [] then (shortened b n).payload.flags
                else (shortened b n).payload.flags &&& ~~~blockFlagLastBlock }
            blocksAfter := replicated b.blocksAfter },
          cutOff b n) := by
  obtain ⟨hbefore, hafter⟩ := shortened_blocks b n
  have hfirst : replicated ((shortened b n).blocksBefore ++ [payloadBlock (shortened b n)]) =
      replicated b.blocksBefore := by
    rw [hbefore, replicated_eq, mustReplicate_payload, List.append_nil, replicated_eq]
  have hsecond : replicated (payloadBlock (cutOff b n) :: (cutOff b n).blocksAfter) =
      replicated b.blocksAfter := by
    have hpayload := mustReplicate_payload (cutOff b n) [] (cutOff b n).blocksAfter
    rw [List.nil_append, List.nil_append] at hpayload
    rw [replicated_eq, hpayload, replicated_eq]
    rfl
  unfold replicateBlocks
  rw [hfirst, hsecond]
  by_cases hnull : mustReplicate b.blocksBefore = []
  · rw [if_neg (not_not.mpr (replicated_eq_nil.mpr hnull)), if_neg (not_not.mpr hnull)]
    dsimp only
    by_cases hcopies : replicated b.blocksAfter = []
    · simp only [if_pos hcopies]
      rw [hcopies, ← hafter]
    · simp only [if_neg hcopies]
  · rw [if_pos (mt replicated_eq_nil.mp hnull), if_pos hnull]

/-- The bundle with the length that the query of its size writes. -/
def sized (b : Bundle) : Bundle := (getSerializedSize b true true false).2

/-- **What the cut can do.** -/
theorem fragmentBundle_eq (b : Bundle) (firstMax : UInt64) :
    fragmentBundle b firstMax =
      if b.payloadLength ≤ firstLength b firstMax then .ok (.same, sized b)
      else if firstLength b firstMax = 0 then .error (.other .assertFailed)
      else if mustReplicate b.blocksBefore ≠ [] then .error (.other .nullDeref)
      else .ok (.new (remainderOf6 (sized b) (firstLength b firstMax)),
        firstOf6 (sized b) (firstLength b firstMax)) := by
  have hcut : fragmentBundle b firstMax =
      if b.payloadLength ≤ firstLength b firstMax then .ok (.same, sized b)
      else if firstLength b firstMax = 0 then .error (.other .assertFailed)
      else
        match replicateBlocks (shortened (sized b) (firstLength b firstMax))
            (cutOff (sized b) (firstLength b firstMax)) with
        | .error f => .error f
        | .ok (b, remainder) =>
            .ok (.new (bundleRecalculateHeaderLength remainder), bundleRecalculateHeaderLength
              { b with procFlags := b.procFlags ||| flagIsFragment }) := rfl
  have hblocks : mustReplicate (sized b).blocksBefore = mustReplicate b.blocksBefore := rfl
  rw [hcut, replicateBlocks_eq, hblocks]
  generalize firstLength b firstMax = n
  by_cases hnull : mustReplicate b.blocksBefore = []
  · simp only [if_neg (not_not.mpr hnull)]
    congr 4
    unfold firstOf6 shortened totalAduLengthOf
    split <;> rfl
  · simp only [if_pos hnull]

/-- The cut is that of the model with a Boolean for the memory. -/
theorem fragmentBundle_eq_bundle6FragmentBundle (hlength : firstLength b firstMax ≠ 0) :
    fragmentBundle b firstMax =
      (bundle6FragmentBundle true b firstMax).map fun
        | (.null, b) => (.null, b)
        | (.same, b) => (.same, b)
        | (.split first remainder, _) => (.new remainder, first) := by
  have hwhole : bundle6FragmentBundle true b firstMax =
      if b.payloadLength ≤ firstLength b firstMax then .ok (.same, sized b)
      else if replicated b.blocksBefore ≠ [] then .error (.other .nullDeref)
      else .ok (.split (firstOf6 (sized b) (firstLength b firstMax))
        (remainderOf6 (sized b) (firstLength b firstMax)), sized b) := rfl
  rw [fragmentBundle_eq, if_neg hlength, hwhole]
  split
  · rfl
  · by_cases hnull : mustReplicate b.blocksBefore = []
    · rw [if_neg (not_not.mpr hnull), if_neg (not_not.mpr (replicated_eq_nil.mpr hnull))]
      rfl
    · rw [if_pos hnull, if_pos (mt replicated_eq_nil.mp hnull)]
      rfl

/-! ## The flag of the last block -/

theorem finalOnly_append (xs ys : List Block) (y : Block) :
    finalOnly (xs ++ y :: ys) =
      (xs.all (fun x => !hasFlag x.flags blockFlagLastBlock) && finalOnly (y :: ys)) := by
  induction xs with
  | nil => rfl
  | cons x xs ih =>
      obtain ⟨z, zs, hzs⟩ : ∃ z zs, xs ++ y :: ys = z :: zs := by
        cases xs with
        | nil => exact ⟨y, ys, rfl⟩
        | cons z zs => exact ⟨z, zs ++ y :: ys, rfl⟩
      rw [List.cons_append, hzs, finalOnly, ← hzs, ih, List.all_cons, Bool.and_assoc]

theorem finalOnly_cons_append {x : Block} {ys : List Block} (h : ys ≠ []) :
    finalOnly (x :: ys) = (!hasFlag x.flags blockFlagLastBlock && finalOnly ys) := by
  obtain ⟨y, ys, rfl⟩ := List.exists_cons_of_ne_nil h
  rfl

/-- Copies have the flags of their blocks. -/
theorem finalOnly_map_bundleBlockDup (xs : List Block) :
    finalOnly (xs.map bundleBlockDup) = finalOnly xs := by
  induction xs with
  | nil => rfl
  | cons x xs ih =>
      cases xs with
      | nil => rfl
      | cons y ys =>
          rw [List.map_cons, finalOnly_cons_append (by simp), ih,
            finalOnly_cons_append (List.cons_ne_nil y ys)]
          rfl

theorem hasFlag_clear (flags : UInt32) :
    hasFlag (flags &&& ~~~blockFlagLastBlock) blockFlagLastBlock = false := by
  have hand : flags &&& ~~~blockFlagLastBlock &&& blockFlagLastBlock = 0 := by
    rw [UInt32.and_assoc]
    exact UInt32.and_zero
  rw [hasFlag, hand]
  rfl

/-- Without the flag of the last block the flags are those of the original block. -/
theorem clear_or (flags : UInt32) :
    (flags ||| blockFlagLastBlock) &&& ~~~blockFlagLastBlock = flags &&& ~~~blockFlagLastBlock := by
  apply UInt32.eq_of_toBitVec_eq
  ext i hi
  simp only [UInt32.toBitVec_and, UInt32.toBitVec_or, UInt32.toBitVec_not, BitVec.getElem_and,
    BitVec.getElem_or, BitVec.getElem_not]
  cases flags.toBitVec[i] <;> cases blockFlagLastBlock.toBitVec[i] <;> rfl

/-! ## The fragments -/

theorem firstOf6_blocks (b : Bundle) (n : UInt32) :
    (firstOf6 b n).blocks =
      b.blocksBefore ++ payloadBlock (firstOf6 b n) :: replicated b.blocksAfter := by
  unfold firstOf6
  rw [(Bundle7.recalculate_eq _).choose_spec]
  rfl

theorem firstOf6_payload (b : Bundle) (n : UInt32) :
    (firstOf6 b n).payload =
      { b.payload with
        flags :=
          if replicated b.blocksAfter = [] then b.payload.flags ||| blockFlagLastBlock
          else (b.payload.flags ||| blockFlagLastBlock) &&& ~~~blockFlagLastBlock
        data := firstBytes b.payload.data n.toNat } :=
  recalculate_payload _

theorem remainderOf6_blocks (b : Bundle) (n : UInt32) :
    (remainderOf6 b n).blocks = payloadBlock (remainderOf6 b n) :: b.blocksAfter := by
  unfold remainderOf6
  rw [(Bundle7.recalculate_eq _).choose_spec]
  rfl

theorem remainderOf6_payload (b : Bundle) (n : UInt32) :
    (remainderOf6 b n).payload =
      { number := 1
        flags := b.payload.flags
        data := otherBytes b.payload.data n.toNat
        eidRefs := []
        crcType := .none } :=
  recalculate_payload _

theorem firstOf6_fields (b : Bundle) (n : UInt32) :
    (firstOf6 b n).isFragmented = true ∧ (firstOf6 b n).totalAduLength = totalAduLengthOf b ∧
      (firstOf6 b n).fragmentOffset = b.fragmentOffset := by
  unfold firstOf6
  rw [(Bundle7.recalculate_eq _).choose_spec]
  exact ⟨hasFlag_or (by decide), rfl, rfl⟩

theorem remainderOf6_fields (b : Bundle) (n : UInt32) :
    (remainderOf6 b n).isFragmented = true ∧
      (remainderOf6 b n).totalAduLength = totalAduLengthOf b ∧
      (remainderOf6 b n).fragmentOffset = b.fragmentOffset + n := by
  unfold remainderOf6
  rw [(Bundle7.recalculate_eq _).choose_spec]
  exact ⟨hasFlag_or (by decide), rfl, rfl⟩

/-- The last block of the first fragment. -/
theorem finalOnly_firstOf6 (b : Bundle) (n : UInt32) :
    finalOnly (firstOf6 b n).blocks = true ↔
      (∀ x ∈ b.blocksBefore, hasFlag x.flags blockFlagLastBlock = false) ∧
        (mustReplicate b.blocksAfter ≠ [] → finalOnly (mustReplicate b.blocksAfter) = true) := by
  have hflags : (payloadBlock (firstOf6 b n)).flags =
      if replicated b.blocksAfter = [] then b.payload.flags ||| blockFlagLastBlock
      else (b.payload.flags ||| blockFlagLastBlock) &&& ~~~blockFlagLastBlock :=
    congrArg BlockBody.flags (firstOf6_payload b n)
  rw [firstOf6_blocks, finalOnly_append, Bool.and_eq_true, List.all_eq_true]
  refine and_congr (forall₂_congr fun x _ => by simp) ?_
  by_cases hnone : mustReplicate b.blocksAfter = []
  · have hcopies := replicated_eq_nil.mpr hnone
    rw [if_pos hcopies] at hflags
    rw [hcopies, finalOnly, hflags]
    exact iff_of_true (hasFlag_or (by decide)) fun h => absurd hnone h
  · have hcopies := mt replicated_eq_nil.mp hnone
    rw [if_neg hcopies] at hflags
    rw [finalOnly_cons_append hcopies, hflags, hasFlag_clear, replicated_eq,
      finalOnly_map_bundleBlockDup]
    simp [hnone]

/-- The last block of the remainder. -/
theorem finalOnly_remainderOf6 (b : Bundle) (n : UInt32) :
    finalOnly (remainderOf6 b n).blocks = finalOnly (payloadBlock b :: b.blocksAfter) := by
  have hflags : (payloadBlock (remainderOf6 b n)).flags = (payloadBlock b).flags := by
    rw [payloadBlock, remainderOf6_payload]
    rfl
  rw [remainderOf6_blocks]
  cases b.blocksAfter with
  | nil => rw [finalOnly, finalOnly, hflags]
  | cons y ys => rw [finalOnly, finalOnly, hflags]

/-- **The fragments** are as they should be exactly for these bundles. -/
theorem cutInTwo_iff (b : Bundle) {n : UInt32} (hn : n < b.payloadLength)
    (hbefore : mustReplicate b.blocksBefore = []) :
    CutInTwo b (firstOf6 (sized b) n) (remainderOf6 (sized b) n) ↔
      (∀ x ∈ mustReplicate b.blocksAfter, x.eidRefs.reverse = x.eidRefs) ∧
        b.fragmentOffset.toNat + n.toNat < 2 ^ 32 ∧
        (∀ x ∈ b.blocksBefore, hasFlag x.flags blockFlagLastBlock = false) ∧
        finalOnly (payloadBlock b :: b.blocksAfter) = true ∧
        (mustReplicate b.blocksAfter ≠ [] → finalOnly (mustReplicate b.blocksAfter) = true) := by
  obtain ⟨hfragment, htotal, hoffset⟩ := firstOf6_fields (sized b) n
  obtain ⟨hfragment', htotal', hoffset'⟩ := remainderOf6_fields (sized b) n
  have hpayload := firstOf6_payload (sized b) n
  have hlength : (firstOf6 (sized b) n).payloadLength = n := by
    rw [Bundle.payloadLength, hpayload]
    exact length_firstBytes hn
  have hlast := finalOnly_firstOf6 (sized b) n
  have hlast' := finalOnly_remainderOf6 (sized b) n
  have hfirst := firstOf6_blocks (sized b) n
  constructor
  · intro h
    have hcopies : b.blocksBefore ++ payloadBlock (firstOf6 (sized b) n) ::
        replicated b.blocksAfter = _ := hfirst.symm.trans h.firstBlocks
    refine ⟨(map_bundleBlockDup_iff _).mp (List.cons.inj (List.append_cancel_left hcopies)).2, ?_,
      (hlast.mp h.last.1).1, hlast'.symm.trans h.last.2, (hlast.mp h.last.1).2⟩
    have hadd := h.offset.2
    rw [hoffset', hoffset, hlength] at hadd
    exact hadd ▸ UInt32.toNat_lt _
  · rintro ⟨hrefs, hfits, hnotLast, hend, hend'⟩
    refine ⟨?_, ⟨(firstOf6 (sized b) n).payload.flags, ?_, ?_⟩, ?_, ?_, ⟨hfragment, hfragment'⟩,
      ⟨htotal, htotal'⟩, ⟨hoffset, ?_⟩, hlast.mpr ⟨hnotLast, hend'⟩, hlast'.trans hend⟩
    · rw [hfirst, replicated_eq]
      exact congrArg _ (congrArg _ ((map_bundleBlockDup_iff _).mpr hrefs))
    · rw [hpayload]
      dsimp only
      split
      · exact clear_or _
      · rw [UInt32.and_assoc, UInt32.and_self]
        exact clear_or _
    · rw [hpayload]
      rfl
    · rw [remainderOf6_blocks, hbefore]
      rfl
    · rw [hpayload, remainderOf6_payload]
      exact List.take_append_drop _ _
    · rw [hoffset', hoffset, hlength, UInt32.toNat_add]
      exact Nat.mod_eq_of_lt hfits

/-- **The cut of version 6** returns a remainder, and both fragments are as they should be, exactly
for the cuttable bundles: the payload is cut, no block before it is to be replicated, the flag of the
last block is where it should be, and the last one of the replicated blocks has it. -/
theorem cut_six_iff (b : Bundle) (firstMax : UInt64) :
    (∃ remainder first, fragmentBundle b firstMax = .ok (.new remainder, first) ∧
      CutInTwo b first remainder) ↔ Cuttable b firstMax := by
  rw [fragmentBundle_eq]
  constructor
  · rintro ⟨remainder, first, hcut, hsound⟩
    split at hcut
    · cases (Prod.mk.inj (Except.ok.inj hcut)).1
    · next hlength =>
      split at hcut
      · cases hcut
      · next hzero =>
        split at hcut
        · cases hcut
        · next hbefore =>
          obtain ⟨hnew, rfl⟩ := Prod.mk.inj (Except.ok.inj hcut)
          obtain rfl := CutResult.new.inj hnew
          have hlt := UInt32.not_le.mp hlength
          obtain ⟨hrefs, hoffset, hnotLast, hlast, hcopies⟩ :=
            (cutInTwo_iff b hlt (not_not.mp hbefore)).mp hsound
          exact ⟨⟨UInt32.pos_iff_ne_zero.mpr hzero, hlt⟩, not_not.mp hbefore, hrefs, hoffset,
            hnotLast, hlast, hcopies⟩
  · intro h
    refine ⟨_, _, ?_, (cutInTwo_iff b h.length.2 h.before).mpr
      ⟨h.references, h.offset, h.notLast, h.last, h.copies⟩⟩
    rw [if_neg (UInt32.not_le.mpr h.length.2), if_neg (UInt32.pos_iff_ne_zero.mp h.length.1),
      if_neg (not_not.mpr h.before)]

/-! ## Bundles with one last block -/

/-- A bundle of 13 bytes with some blocks around its payload block. -/
def letterWith (before after : List Block) (flags : UInt32) : Bundle where
  id := 1
  protocolVersion := 6
  procFlags := 0
  ret := RetConstraints.none
  crcType := .none
  destination := "dtn:b".toList
  source := "dtn:a".toList
  reportTo := "dtn:none".toList
  currentCustodian := "dtn:none".toList
  creationTimestampMs := 0
  sequenceNumber := 1
  lifetimeMs := 1000
  fragmentOffset := 0
  totalAduLength := 0
  primaryBlockLength := 60
  blocksBefore := before
  payload := ⟨1, flags,
    ⟨[72, 101, 108, 108, 111, 32, 119, 111, 114, 108, 100, 33, 10], Buffer.hello_fits⟩, [], .none⟩
  blocksAfter := after

/-- An extension block with some flags. -/
def extension (flags : UInt32) : Block := ⟨⟨0, flags, ⟨[1, 2], Buffer.oneTwo_fits⟩, [], .none⟩, 20⟩

/-- The limit that leaves 7 bytes for the payload. -/
def sevenBytesMore (b : Bundle) : UInt64 :=
  UInt64.ofNat ((getSerializedSize b true true false).1 + 7)

/-- **A replicated block before the payload** makes the cut write through a null pointer, and with
**a replicated block before the final one** the first fragment has no last block. -/
theorem cuts_fail :
    (fragmentBundle (letterWith [extension blockFlagMustBeReplicated] [] blockFlagLastBlock)
        (sevenBytesMore (letterWith [extension blockFlagMustBeReplicated] [] blockFlagLastBlock)) =
      .error (.other .nullDeref)) ∧
    ∃ remainder first,
      fragmentBundle
          (letterWith [] [extension blockFlagMustBeReplicated, extension blockFlagLastBlock] 0)
          (sevenBytesMore
            (letterWith [] [extension blockFlagMustBeReplicated, extension blockFlagLastBlock] 0)) =
        .ok (.new remainder, first) ∧
      ∀ x ∈ first.blocks, hasFlag x.flags blockFlagLastBlock = false := by
  refine ⟨by rfl, _, _, by rfl, by decide⟩

end Bundle6
