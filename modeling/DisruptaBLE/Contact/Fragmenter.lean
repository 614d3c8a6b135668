import DisruptaBLE.Bundle7.Fragment

/-!
# The bundle fragmenter

`components/ud3tn/bundle_fragmenter.c` chooses between the versions of the bundle protocol.
The cut of version 7 is that of `Bundle7.Fragment`; the one of version 6
(`components/bundle6/fragment.c`) is here.  In version 6 a query of a size writes the length of
the primary block, so the queries return the bundle too.
-/

namespace ContactRouter

open BundleProcessor BundleStorage Bundle7

/-- `BUNDLE_FLAG_MUST_NOT_BE_FRAGMENTED`. -/
def flagMustNotBeFragmented : UInt32 := 0x000004

/-- `bundle_must_not_fragment`. -/
def bundleMustNotFragment (b : Bundle) : Bool := hasFlag b.procFlags flagMustNotBeFragmented

/-- `bundle_get_first_fragment_min_size`. -/
def bundleGetFirstFragmentMinSize (b : Bundle) : Nat × Bundle :=
  if b.protocolVersion = 6 then getSerializedSize b true true false
  else if b.protocolVersion = 7 then (bundle7GetFirstFragmentMinSize b, b)
  else (0, b)

/-- `bundle_get_mid_fragment_min_size`. -/
def bundleGetMidFragmentMinSize (b : Bundle) : Nat × Bundle :=
  if b.protocolVersion = 6 then getSerializedSize b true false false
  else if b.protocolVersion = 7 then (bundle7GetLastFragmentMinSize b, b)
  else (0, b)

/-- `bundle_get_last_fragment_min_size`. -/
def bundleGetLastFragmentMinSize (b : Bundle) : Nat × Bundle :=
  if b.protocolVersion = 6 then getSerializedSize b true false true
  else if b.protocolVersion = 7 then (bundle7GetLastFragmentMinSize b, b)
  else (0, b)

/-- `bundlefragmenter_initialize_first_fragment`, for a bundle of version 6 or 7. -/
def initializeFirstFragment (b : Bundle) : Bundle :=
  bundleRecalculateHeaderLength
    { b with
      id := invId
      procFlags := b.procFlags ||| flagIsFragment
      totalAduLength := totalAduLengthOf b
      blocksBefore := b.blocksBefore.map bundleBlockDup
      payload := { b.payload with eidRefs := b.payload.eidRefs.reverse }
      blocksAfter := b.blocksAfter.map bundleBlockDup }

/-- The blocks of a list that `replicate_blocks` copies. -/
def replicated (blocks : List Block) : List Block :=
  (blocks.filter fun x => bundleBlockMustBeReplicated x && x.type ≠ blockTypePayload).map
    bundleBlockDup

/-- The first fragment of version 6: the blocks after the payload move to the remainder, and
copies of those that must be replicated come back. -/
def firstOf6 (b : Bundle) (firstPayloadLength : UInt32) : Bundle :=
  let copies := replicated b.blocksAfter
  let flags := b.payload.flags ||| blockFlagLastBlock
  bundleRecalculateHeaderLength
    { b with
      procFlags := b.procFlags ||| flagIsFragment
      totalAduLength := totalAduLengthOf b
      payload :=
        { b.payload with
          flags := if copies = [] then flags else flags &&& ~~~blockFlagLastBlock
          data := firstBytes b.payload.data firstPayloadLength.toNat }
      blocksAfter := copies }

/-- The remainder of version 6. -/
def remainderOf6 (b : Bundle) (firstPayloadLength : UInt32) : Bundle :=
  bundleRecalculateHeaderLength
    { b with
      id := invId
      procFlags := b.procFlags ||| flagIsFragment
      totalAduLength := totalAduLengthOf b
      fragmentOffset := b.fragmentOffset + firstPayloadLength
      blocksBefore := []
      payload :=
        { number := 1
          flags := b.payload.flags
          data := otherBytes b.payload.data firstPayloadLength.toNat
          eidRefs := []
          crcType := .none } }

/-- `bundle6_fragment_bundle`: the result, and the bundle itself if it was not cut.  If a block
before the payload must be replicated, `replicate_blocks` follows the null pointer at the end of
its list. -/
def bundle6FragmentBundle (mem : Bool) (b : Bundle) (firstMax : UInt64) :
    Except Fault (Fragmented × Bundle) :=
  let (firstMin, b) := getSerializedSize b true true false
  let firstPayloadLength := (firstMax - UInt64.ofNat firstMin).toUInt32
  if b.payloadLength ≤ firstPayloadLength then .ok (.same, b)
  else if !mem then .ok (.null, b)
  else if replicated b.blocksBefore ≠ [] then .error (.other .nullDeref)
  else .ok (.split (firstOf6 b firstPayloadLength) (remainderOf6 b firstPayloadLength), b)

/-- `bundlefragmenter_fragment_bundle`: the result, and the bundle itself if it was not cut. -/
def bundlefragmenterFragmentBundle (mem : Bool) (b : Bundle) (firstMax : UInt64) :
    Except Fault (Fragmented × Bundle) :=
  if b.protocolVersion = 6 then bundle6FragmentBundle mem b firstMax
  else if b.protocolVersion = 7 then .ok (bundle7FragmentBundle mem b firstMax, b)
  else .ok (.null, b)

/-! ## What does not change -/

/-- The same bundle, up to the length of its primary block, which queries of sizes write. -/
def SameContents (b b' : Bundle) : Prop :=
  b' = { b with primaryBlockLength := b'.primaryBlockLength }

theorem SameContents.refl (b : Bundle) : SameContents b b := rfl

theorem SameContents.trans {b c d : Bundle} (h₁ : SameContents b c) (h₂ : SameContents c d) :
    SameContents b d := by
  unfold SameContents at *
  rw [h₂, h₁]

theorem SameContents.id_eq {b c : Bundle} (h : SameContents b c) : c.id = b.id := by
  rw [h]

theorem sameContents_getSerializedSize (b : Bundle) (excludePayload first last : Bool) :
    SameContents b (getSerializedSize b excludePayload first last).2 := rfl

theorem sameContents_size (b : Bundle) : SameContents b (bundleGetSerializedSize b).2 := by
  unfold bundleGetSerializedSize
  split
  · rfl
  · split
    · rfl
    · rfl

theorem sameContents_first (b : Bundle) : SameContents b (bundleGetFirstFragmentMinSize b).2 := by
  unfold bundleGetFirstFragmentMinSize
  split
  · rfl
  · split
    · rfl
    · rfl

theorem sameContents_last (b : Bundle) : SameContents b (bundleGetLastFragmentMinSize b).2 := by
  unfold bundleGetLastFragmentMinSize
  split
  · rfl
  · split
    · rfl
    · rfl

theorem sameContents_mid (b : Bundle) : SameContents b (bundleGetMidFragmentMinSize b).2 := by
  unfold bundleGetMidFragmentMinSize
  split
  · rfl
  · split
    · rfl
    · rfl

theorem recalculate_id (b : Bundle) : (bundleRecalculateHeaderLength b).id = b.id := by
  obtain ⟨k, hk⟩ := recalculate_eq b
  rw [hk]

theorem recalculate_payload (b : Bundle) :
    (bundleRecalculateHeaderLength b).payload = b.payload := by
  obtain ⟨k, hk⟩ := recalculate_eq b
  rw [hk]

/-- The fragments of a cut: the first one keeps the id, the other one has none, and together
they have the payload. -/
structure CutOf (b first remainder : Bundle) : Prop where
  id_first : first.id = b.id
  id_remainder : remainder.id = invId
  bytes : first.payload.data.bytes ++ remainder.payload.data.bytes = b.payload.data.bytes

theorem CutOf.of_same {b c first remainder : Bundle} (h : CutOf c first remainder)
    (hsame : SameContents b c) : CutOf b first remainder where
  id_first := h.id_first.trans hsame.id_eq
  id_remainder := h.id_remainder
  bytes := h.bytes.trans (by rw [hsame])

theorem CutOf.same {b c first remainder : Bundle} (h : CutOf b first remainder)
    (hsame : SameContents b c) : CutOf c first remainder where
  id_first := h.id_first.trans hsame.id_eq.symm
  id_remainder := h.id_remainder
  bytes := h.bytes.trans (by rw [hsame])

theorem cutOf_six (b : Bundle) (n : UInt32) : CutOf b (firstOf6 b n) (remainderOf6 b n) := by
  refine ⟨recalculate_id _, recalculate_id _, ?_⟩
  rw [firstOf6, remainderOf6, recalculate_payload, recalculate_payload]
  exact List.take_append_drop _ _

theorem cutOf_seven (b : Bundle) (n : UInt32) : CutOf b (firstOf b n) (remainderOf b n) := by
  refine ⟨recalculate_id _, recalculate_id _, ?_⟩
  rw [firstOf, remainderOf, recalculate_payload, recalculate_payload]
  exact List.take_append_drop _ _

/-- **What a cut can do**: the bundle itself keeps its contents up to the cached length, and what
it is split into are its fragments. -/
theorem fragmentBundle_spec {mem : Bool} {b w : Bundle} {firstMax : UInt64} {r : Fragmented}
    (h : bundlefragmenterFragmentBundle mem b firstMax = .ok (r, w)) :
    SameContents b w ∧ ∀ first remainder, r = .split first remainder →
      CutOf b first remainder := by
  unfold bundlefragmenterFragmentBundle at h
  split at h
  · unfold bundle6FragmentBundle at h
    dsimp only at h
    split at h
    · obtain ⟨rfl, rfl⟩ := Prod.mk.inj (Except.ok.inj h)
      exact ⟨rfl, fun _ _ hr => by cases hr⟩
    · split at h
      · obtain ⟨rfl, rfl⟩ := Prod.mk.inj (Except.ok.inj h)
        exact ⟨rfl, fun _ _ hr => by cases hr⟩
      · split at h
        · cases h
        · obtain ⟨rfl, rfl⟩ := Prod.mk.inj (Except.ok.inj h)
          refine ⟨rfl, fun first remainder hr => ?_⟩
          obtain ⟨rfl, rfl⟩ := Fragmented.split.inj hr
          exact (cutOf_six _ _).of_same (sameContents_getSerializedSize b true true false)
  · split at h
    · obtain ⟨rfl, rfl⟩ := Prod.mk.inj (Except.ok.inj h)
      refine ⟨.refl _, fun first remainder hr => ?_⟩
      unfold bundle7FragmentBundle at hr
      dsimp only at hr
      split at hr
      · cases hr
      · split at hr
        · cases hr
        · split at hr
          · obtain ⟨rfl, rfl⟩ := Fragmented.split.inj hr
            exact cutOf_seven _ _
          · cases hr
    · obtain ⟨rfl, rfl⟩ := Prod.mk.inj (Except.ok.inj h)
      exact ⟨.refl _, fun _ _ hr => by cases hr⟩

end ContactRouter
