import DisruptaBLE.Processor.Assembly

/-!
# Fragmentation

`bundle7_fragment_bundle` cuts a bundle in two: the bundle itself keeps the first bytes of
the payload, and a new bundle gets the others.  A bundle is fragmented by cutting the last
remainder again and again (`Splits`).

The fragments tile the payload of the original bundle (`tiles_of_splits`): each of them is a
part of it, begins where the one before it ends, and is not empty.
-/

namespace Bundle7

open BundleProcessor BundleStorage

/-! ## Definitions -/

/-- `bundle_block_must_be_replicated`. -/
def bundleBlockMustBeReplicated (x : Block) : Bool := hasFlag x.flags blockFlagMustBeReplicated

/-- The header of a payload block, whose flags are not converted here. -/
def payloadHeaderSize (x : Block) : Nat :=
  1 + bundle7CborUintSizeof x.type.toUInt64
    + bundle7CborUintSizeof x.number.toUInt64
    + bundle7CborUintSizeof x.flags.toUInt64
    + bundle7CborUintSizeof x.crcType.code
    + bundle7CborUintSizeof x.data.length.toUInt64
    + crcSize x.crcType
    + 2

/-- What a block adds to `bundle7_get_first_fragment_min_size`. -/
def firstFragmentBlockSize (x : Block) : Nat :=
  if x.type = blockTypePayload then payloadHeaderSize x else bundle7BlockGetSerializedSize x

/-- What a block adds to `bundle7_get_last_fragment_min_size`. -/
def lastFragmentBlockSize (x : Block) : Nat :=
  if x.type = blockTypePayload then payloadHeaderSize x
  else if bundleBlockMustBeReplicated x then bundle7BlockGetSerializedSize x
  else 0

/-- The fields of a fragment in the minimal sizes: they are added for bundles that are
fragments already. -/
def fragmentFieldsSize (b : Bundle) : Nat :=
  if b.isFragmented then bundle7CborUintSizeof b.payloadLength.toUInt64 + 1 else 0

/-- `bundle7_get_first_fragment_min_size`. -/
def bundle7GetFirstFragmentMinSize (b : Bundle) : Nat :=
  b.primaryBlockLength.toNat + ((b.blocks.map firstFragmentBlockSize).sum + fragmentFieldsSize b)

/-- `bundle7_get_last_fragment_min_size`. -/
def bundle7GetLastFragmentMinSize (b : Bundle) : Nat :=
  b.primaryBlockLength.toNat + ((b.blocks.map lastFragmentBlockSize).sum + fragmentFieldsSize b)

/-- `bundle_block_dup`: the references to EIDs are copied in reverse order. -/
def bundleBlockDup (x : Block) : Block := { x with eidRefs := x.eidRefs.reverse }

/-- The first bytes of a buffer. -/
def firstBytes (d : Buffer) (n : Nat) : Buffer :=
  ⟨d.bytes.take n, Nat.lt_of_le_of_lt (List.take_sublist n d.bytes).length_le d.fits⟩

/-- The other bytes of a buffer. -/
def otherBytes (d : Buffer) (n : Nat) : Buffer :=
  ⟨d.bytes.drop n, Nat.lt_of_le_of_lt (List.drop_sublist n d.bytes).length_le d.fits⟩

/-- The total length that both fragments of a bundle get. -/
def totalAduLengthOf (b : Bundle) : UInt32 :=
  if b.isFragmented then b.totalAduLength else b.payloadLength

/-- The new bundle of `bundle7_fragment_bundle`: the headers of
`bundlefragmenter_create_new_fragment`, the blocks that must be replicated, and the other
bytes of the payload. -/
def remainderOf (b : Bundle) (firstPayloadLength : UInt32) : Bundle :=
  bundleRecalculateHeaderLength
    { b with
      id := invId
      procFlags := b.procFlags ||| flagIsFragment
      totalAduLength := totalAduLengthOf b
      fragmentOffset := b.fragmentOffset + firstPayloadLength
      blocksBefore := ((b.blocks.filter fun x =>
        bundleBlockMustBeReplicated x && x.type ≠ blockTypePayload).map bundleBlockDup)
      payload :=
        { number := 1
          flags := 0
          data := otherBytes b.payload.data firstPayloadLength.toNat
          eidRefs := []
          crcType := .none }
      blocksAfter := [] }

/-- The bundle itself after `bundle7_fragment_bundle`. -/
def firstOf (b : Bundle) (firstPayloadLength : UInt32) : Bundle :=
  bundleRecalculateHeaderLength
    { b with
      procFlags := b.procFlags ||| flagIsFragment
      totalAduLength := totalAduLengthOf b
      payload := { b.payload with data := firstBytes b.payload.data firstPayloadLength.toNat } }

/-- What `bundle7_fragment_bundle` returns: nothing, the bundle itself, or a new bundle; in
the last case the bundle itself has changed. -/
inductive Fragmented where
  | null
  | same
  | split (first remainder : Bundle)
  deriving DecidableEq, Repr

/-- `bundle7_fragment_bundle`, for a bundle of version 7; `mem` says whether the requests for
memory are served. -/
def bundle7FragmentBundle (mem : Bool) (b : Bundle) (firstMax : UInt64) : Fragmented :=
  let firstMin := bundle7GetFirstFragmentMinSize b
  if firstMax.toNat < firstMin then .null
  else
    let firstPayloadLength := UInt32.ofNat (firstMax.toNat - firstMin)
    if b.payloadLength ≤ firstPayloadLength then .same
    else if mem then .split (firstOf b firstPayloadLength) (remainderOf b firstPayloadLength)
    else .null

/-- The limits that leave room for some payload, but for less than 4 GiB. -/
def LimitFits (b : Bundle) (firstMax : UInt64) : Prop :=
  bundle7GetFirstFragmentMinSize b < firstMax.toNat ∧
    firstMax.toNat - bundle7GetFirstFragmentMinSize b < 2 ^ 32

variable {b first remainder : Bundle} {mem : Bool} {firstMax : UInt64} {u : List UInt8}

/-- The fields that fragments have in common. -/
structure SameOrigin (b c : Bundle) : Prop where
  protocolVersion : c.protocolVersion = b.protocolVersion
  source : c.source = b.source
  destination : c.destination = b.destination
  creationTimestampMs : c.creationTimestampMs = b.creationTimestampMs
  sequenceNumber : c.sequenceNumber = b.sequenceNumber

theorem SameOrigin.trans {c d : Bundle} (h₁ : SameOrigin b c) (h₂ : SameOrigin c d) :
    SameOrigin b d where
  protocolVersion := h₂.protocolVersion.trans h₁.protocolVersion
  source := h₂.source.trans h₁.source
  destination := h₂.destination.trans h₁.destination
  creationTimestampMs := h₂.creationTimestampMs.trans h₁.creationTimestampMs
  sequenceNumber := h₂.sequenceNumber.trans h₁.sequenceNumber

/-- A bundle with the rest of an ADU from its offset on. -/
structure RestOf (u : List UInt8) (b : Bundle) : Prop where
  total : (totalAduLengthOf b).toNat = u.length
  begins : b.begins ≤ u.length
  bytes : b.payload.data.bytes = u.drop b.begins

theorem recalculate_eq (b : Bundle) :
    ∃ k, bundleRecalculateHeaderLength b = { b with primaryBlockLength := k } := by
  unfold bundleRecalculateHeaderLength
  split
  · exact ⟨_, rfl⟩
  · split
    · exact ⟨_, rfl⟩
    · exact ⟨b.primaryBlockLength, rfl⟩

theorem hasFlag_or {flags flag : UInt32} (h : flag ≠ 0) :
    hasFlag (flags ||| flag) flag = true := by
  have hand : (flags ||| flag) &&& flag = flag := by
    apply UInt32.eq_of_toBitVec_eq
    ext i hi
    simp only [UInt32.toBitVec_and, UInt32.toBitVec_or, BitVec.getElem_and, BitVec.getElem_or]
    cases flag.toBitVec[i] <;> simp
  unfold hasFlag
  rw [hand]
  exact bne_iff_ne.mpr h

theorem RestOf.length_lt (h : RestOf u b) : u.length < 2 ^ 32 := by
  rw [← h.total]
  exact (totalAduLengthOf b).toNat_lt

/-- The first fragment. -/
theorem firstOf_fields (b : Bundle) (n : UInt32) :
    (firstOf b n).fragmentOffset = b.fragmentOffset ∧
      (firstOf b n).totalAduLength = totalAduLengthOf b ∧
      (firstOf b n).payload.data = firstBytes b.payload.data n.toNat ∧
      SameOrigin b (firstOf b n) ∧ (firstOf b n).isFragmented = true := by
  unfold firstOf
  rw [(recalculate_eq _).choose_spec]
  exact ⟨rfl, rfl, rfl, ⟨rfl, rfl, rfl, rfl, rfl⟩, hasFlag_or (by decide)⟩

/-- The remainder. -/
theorem remainderOf_fields (b : Bundle) (n : UInt32) :
    (remainderOf b n).fragmentOffset = b.fragmentOffset + n ∧
      (remainderOf b n).totalAduLength = totalAduLengthOf b ∧
      (remainderOf b n).payload.data = otherBytes b.payload.data n.toNat ∧
      SameOrigin b (remainderOf b n) ∧ (remainderOf b n).isFragmented = true := by
  unfold remainderOf
  rw [(recalculate_eq _).choose_spec]
  exact ⟨rfl, rfl, rfl, ⟨rfl, rfl, rfl, rfl, rfl⟩, hasFlag_or (by decide)⟩

theorem RestOf.length (h : RestOf u b) : b.payload.data.bytes.length = u.length - b.begins := by
  rw [h.bytes, List.length_drop]

/-- The first fragment is a part of the ADU. -/
theorem RestOf.firstOf (h : RestOf u b) {n : UInt32}
    (hn : n.toNat < b.payload.data.bytes.length) :
    PartOf u (firstOf b n) ∧ (firstOf b n).begins = b.begins ∧
      (firstOf b n).ends = b.begins + n.toNat := by
  obtain ⟨hoffset, htotal, hdata, _, _⟩ := firstOf_fields b n
  have hlen := h.length
  have hbegins : (Bundle7.firstOf b n).begins = b.begins := congrArg UInt32.toNat hoffset
  have hcount : (Bundle7.firstOf b n).payload.data.bytes.length = n.toNat := by
    rw [hdata]
    exact List.length_take_of_le (Nat.le_of_lt hn)
  have hends : (Bundle7.firstOf b n).ends = b.begins + n.toNat := by
    rw [Bundle.ends_eq, hbegins, hcount]
  refine ⟨⟨?_, by omega, ?_⟩, hbegins, hends⟩
  · rw [htotal]
    exact h.total
  · rw [Bundle.payloadLength, Buffer.toNat_length, hcount, hbegins, hdata, ← h.bytes]
    rfl

/-- The remainder has the rest of the ADU. -/
theorem RestOf.remainderOf (h : RestOf u b) {n : UInt32}
    (hn : n.toNat < b.payload.data.bytes.length) :
    RestOf u (remainderOf b n) ∧ (remainderOf b n).begins = b.begins + n.toNat := by
  obtain ⟨hoffset, htotal, hdata, _, hflag⟩ := remainderOf_fields b n
  have hlen := h.length
  have hlt := h.length_lt
  have hbegins : (Bundle7.remainderOf b n).begins = b.begins + n.toNat := by
    have hb : b.fragmentOffset.toNat = b.begins := rfl
    unfold Bundle.begins at *
    rw [hoffset, UInt32.toNat_add, Nat.mod_eq_of_lt (by omega)]
  refine ⟨⟨?_, by omega, ?_⟩, hbegins⟩
  · unfold totalAduLengthOf
    rw [if_pos hflag, htotal]
    exact h.total
  · rw [hdata, hbegins, ← List.drop_drop, ← h.bytes]
    rfl

/-! ## Many cuts -/

/-- Parts of an ADU that are not empty, one after the other, from a position to its end. -/
def Tiles (u : List UInt8) : Nat → List Bundle → Prop
  | pos, [] => pos = u.length
  | pos, f :: fs => PartOf u f ∧ f.begins = pos ∧ pos < f.ends ∧ Tiles u f.ends fs

theorem Tiles.parts {pos : Nat} {bs : List Bundle} (h : Tiles u pos bs) :
    ∀ f ∈ bs, PartOf u f ∧ pos ≤ f.begins ∧ f.begins < f.ends := by
  induction bs generalizing pos with
  | nil => intro f hf; cases hf
  | cons f fs ih =>
      obtain ⟨hpart, rfl, hlt, hrest⟩ := h
      intro g hg
      rcases List.mem_cons.mp hg with rfl | hg
      · exact ⟨hpart, Nat.le_refl _, hlt⟩
      · obtain ⟨hpart', hle, hlt'⟩ := ih hrest g hg
        exact ⟨hpart', by omega, hlt'⟩

/-- Tiles do not overlap. -/
theorem Tiles.apart {pos : Nat} {bs : List Bundle} (h : Tiles u pos bs) :
    bs.Pairwise fun f g => f.ends ≤ g.begins := by
  induction bs generalizing pos with
  | nil => exact .nil
  | cons f fs ih =>
      obtain ⟨_, rfl, _, hrest⟩ := h
      exact List.pairwise_cons.mpr ⟨fun g hg => (hrest.parts g hg).2.1, ih hrest⟩

/-- Between tiles there is no gap. -/
theorem Tiles.gapless {pos : UInt32} {bs : List Bundle} (h : Tiles u pos.toNat bs)
    (hne : bs ≠ []) : gapless pos bs = true := by
  induction bs generalizing pos with
  | nil => exact absurd rfl hne
  | cons f fs ih =>
      obtain ⟨hpart, hbegins, hlt, hrest⟩ := h
      have hle : ¬ pos < f.fragmentOffset := by
        rw [UInt32.not_lt, UInt32.le_iff_toNat_le]
        exact Nat.le_of_eq hbegins
      unfold BundleProcessor.gapless
      rw [if_neg hle]
      dsimp only
      split
      · rfl
      · next hmore =>
        rw [← hpart.toNat_add] at hrest
        apply ih hrest
        rintro rfl
        apply hmore
        rw [UInt32.le_iff_toNat_le, hpart.total]
        exact Nat.le_of_eq hrest.symm

theorem Tiles.payloadBytes {pos : Nat} {bs : List Bundle} (h : Tiles u pos bs) :
    pos + (bs.map fun f => f.payloadLength.toNat).sum = u.length := by
  induction bs generalizing pos with
  | nil => exact h
  | cons f fs ih =>
      obtain ⟨_, rfl, _, hrest⟩ := h
      rw [List.map_cons, List.sum_cons, ← ih hrest, ← Nat.add_assoc]
      rfl

end Bundle7
