import DisruptaBLE.Bundle7.Fragment

/-!
# The size of the first fragment

`bundle7_get_first_fragment_min_size` says how many bytes of `first_max` the first fragment needs
besides its payload.  Its comment wants to reserve the fields of a fragment in bundles that were not
fragmented before, and its condition reserves them in those that were.

`first_fragment_fits_iff` compares what the first fragment has with what was reserved.  For a bundle
whose cached length is its length (`Accurate`) only a fragment of a fragment fits
(`reserves_iff_fragment`).
-/

namespace Bundle7

open BundleProcessor

/-- The length of the primary block of the fragments of a bundle. -/
def fragmentPrimaryLength (b : Bundle) : UInt16 :=
  bundle7RecalculatePrimaryBlockLength
    { b with procFlags := b.procFlags ||| flagIsFragment, totalAduLength := totalAduLengthOf b }

/-- The blocks beside the payload block. -/
def extensionBlocks (b : Bundle) : List Block := b.blocksBefore ++ b.blocksAfter

/-- The payload block. -/
def payloadBlock (b : Bundle) : Block := ⟨b.payload, blockTypePayload⟩

/-- The bytes that `first_max` leaves for the payload. -/
def roomForPayload (b : Bundle) (firstMax : UInt64) : Nat :=
  firstMax.toNat - bundle7GetFirstFragmentMinSize b

/-- The length of the payload of the first fragment, a `uint32_t`. -/
def firstPayloadLength (b : Bundle) (firstMax : UInt64) : UInt32 :=
  UInt32.ofNat (roomForPayload b firstMax)

/-- What a bundle reserves: its primary block, its other blocks, the fields of a fragment, and the
flags and the length of its payload block. -/
def reservedSize (b : Bundle) : Nat :=
  b.primaryBlockLength.toNat + ((extensionBlocks b).map firstFragmentBlockSize).sum
    + fragmentFieldsSize b
    + bundle7CborUintSizeof b.payload.flags.toUInt64
    + bundle7CborUintSizeof b.payloadLength.toUInt64

/-- What its first fragment has in these places, with a payload of some length. -/
def neededSize (b : Bundle) (payloadLength : UInt32) : Nat :=
  (fragmentPrimaryLength b).toNat + ((extensionBlocks b).map bundle7BlockGetSerializedSize).sum
    + bundle7CborUintSizeof (bundle7ConvertToProtocolBlockFlags (payloadBlock b)).toUInt64
    + bundle7CborUintSizeof payloadLength.toUInt64

/-- The reserved bytes are enough. -/
def Reserves (b : Bundle) (firstMax : UInt64) : Prop :=
  neededSize b (firstPayloadLength b firstMax) + (firstPayloadLength b firstMax).toNat ≤
    reservedSize b + roomForPayload b firstMax

instance (b : Bundle) (firstMax : UInt64) : Decidable (Reserves b firstMax) :=
  inferInstanceAs (Decidable (_ ≤ _))

/-- `bundle7_recalculate_primary_block_length` before its result is cut to 16 bits. -/
def primarySize (b : Bundle) : Nat :=
  1 + bundle7CborUintSizeof b.protocolVersion.toUInt64
    + bundle7CborUintSizeof b.procFlags.toUInt64
    + bundle7CborUintSizeof b.crcType.code
    + bundle7EidSizeof b.destination + bundle7EidSizeof b.source + bundle7EidSizeof b.reportTo
    + 1
    + bundle7CborUintSizeof b.creationTimestampMs
    + bundle7CborUintSizeof b.sequenceNumber
    + bundle7CborUintSizeof b.lifetimeMs
    + (if b.isFragmented then
        bundle7CborUintSizeof b.fragmentOffset.toUInt64
          + bundle7CborUintSizeof b.totalAduLength.toUInt64
      else 0)
    + crcSize b.crcType

/-- A bundle whose cached length is its length, with one payload block that has only flags of its
protocol. -/
structure Accurate (b : Bundle) : Prop where
  length : b.primaryBlockLength.toNat = primarySize b
  fits : primarySize b + 10 < 2 ^ 16
  payload : ∀ x ∈ extensionBlocks b, x.type ≠ blockTypePayload
  flags : bundle7ConvertToProtocolBlockFlags (payloadBlock b) = b.payload.flags

/-! ## Sizes of numbers -/

variable {b first remainder : Bundle} {mem : Bool} {firstMax : UInt64}

theorem cborUintSizeof_pos (n : UInt64) : 1 ≤ bundle7CborUintSizeof n := by
  unfold bundle7CborUintSizeof
  split_ifs <;> omega

theorem cborUintSizeof_le_five (n : UInt32) : bundle7CborUintSizeof n.toUInt64 ≤ 5 := by
  have hlt := n.toNat_lt
  have hle : n.toUInt64 ≤ 0xFFFFFFFF := by
    rw [UInt64.le_iff_toNat_le, UInt32.toNat_toUInt64]
    change n.toNat ≤ 2 ^ 32 - 1
    omega
  unfold bundle7CborUintSizeof
  split_ifs <;> omega

theorem cborUintSizeof_mono {m n : UInt64} (h : m ≤ n) :
    bundle7CborUintSizeof m ≤ bundle7CborUintSizeof n := by
  rw [UInt64.le_iff_toNat_le] at h
  unfold bundle7CborUintSizeof
  simp only [UInt64.le_iff_toNat_le]
  split_ifs <;> omega

/-- The flag of a fragment is the lowest one. -/
theorem toNat_or_isFragment (flags : UInt32) :
    (flags ||| flagIsFragment).toNat = flags.toNat / 2 * 2 + 1 := by
  rw [UInt32.toNat_or]
  change flags.toNat ||| 1 = _
  have hdiv := Nat.or_div_two (a := flags.toNat) (b := 1)
  have hmod : (flags.toNat ||| 1) % 2 = 1 := Nat.or_mod_two_eq_one.mpr (.inr rfl)
  have hone : (1 : Nat) / 2 = 0 := rfl
  rw [hone, Nat.or_zero] at hdiv
  omega

/-- The limits between the sizes are odd numbers, so the flag does not lengthen the flags. -/
theorem cborUintSizeof_or_isFragment (flags : UInt32) :
    bundle7CborUintSizeof (flags ||| flagIsFragment).toUInt64 =
      bundle7CborUintSizeof flags.toUInt64 := by
  have hor := toNat_or_isFragment flags
  unfold bundle7CborUintSizeof
  simp only [UInt64.le_iff_toNat_le, UInt32.toNat_toUInt64]
  change (if (flags ||| flagIsFragment).toNat ≤ 65535 then
      if (flags ||| flagIsFragment).toNat ≤ 255 then
        if (flags ||| flagIsFragment).toNat ≤ 23 then 1 else 2
      else 3
    else if (flags ||| flagIsFragment).toNat ≤ 4294967295 then 5 else 9) =
    if flags.toNat ≤ 65535 then
      if flags.toNat ≤ 255 then if flags.toNat ≤ 23 then 1 else 2 else 3
    else if flags.toNat ≤ 4294967295 then 5 else 9
  split_ifs <;> omega

/-! ## The first fragment -/

theorem primaryLength_eq (b : Bundle) :
    bundle7RecalculatePrimaryBlockLength b = UInt16.ofNat (primarySize b) := rfl

theorem blocks_eq (b : Bundle) :
    b.blocks = b.blocksBefore ++ payloadBlock b :: b.blocksAfter := rfl

/-- A sum over the blocks, with the payload block apart. -/
theorem sum_blocks (b : Bundle) (f : Block → Nat) :
    (b.blocks.map f).sum = f (payloadBlock b) + ((extensionBlocks b).map f).sum := by
  rw [blocks_eq, extensionBlocks, List.map_append, List.map_append, List.sum_append,
    List.sum_append, List.map_cons, List.sum_cons]
  omega

/-- The minimal size, sorted into what the fields of the payload block do not change. -/
theorem firstMinSize_eq (b : Bundle) :
    bundle7GetFirstFragmentMinSize b = reservedSize b + (1 + bundle7CborUintSizeof 1
      + bundle7CborUintSizeof b.payload.number.toUInt64
      + bundle7CborUintSizeof b.payload.crcType.code + crcSize b.payload.crcType + 2) := by
  have hpayload : firstFragmentBlockSize (payloadBlock b) = payloadHeaderSize (payloadBlock b) :=
    if_pos rfl
  rw [bundle7GetFirstFragmentMinSize, sum_blocks, hpayload, reservedSize, payloadHeaderSize]
  change _ + (1 + bundle7CborUintSizeof 1 + bundle7CborUintSizeof b.payload.number.toUInt64
    + bundle7CborUintSizeof b.payload.flags.toUInt64
    + bundle7CborUintSizeof b.payload.crcType.code
    + bundle7CborUintSizeof b.payloadLength.toUInt64 + crcSize b.payload.crcType + 2 + _ + _) = _
  omega

theorem length_firstBytes {d : Buffer} {n : UInt32} (h : n < d.length) :
    (firstBytes d n.toNat).length = n := by
  apply UInt32.toNat_inj.mp
  rw [UInt32.lt_iff_toNat_lt, Buffer.toNat_length] at h
  rw [Buffer.toNat_length]
  exact List.length_take_of_le (Nat.le_of_lt h)

/-- The size of the first fragment, sorted in the same way. -/
theorem serializedSize_firstOf (hversion : b.protocolVersion = 7) {n : UInt32}
    (hn : n < b.payloadLength) :
    bundle7GetSerializedSize (firstOf b n) = neededSize b n + n.toNat + (1 + bundle7CborUintSizeof 1
      + bundle7CborUintSizeof b.payload.number.toUInt64
      + bundle7CborUintSizeof b.payload.crcType.code + crcSize b.payload.crcType + 2) := by
  have hfirst : firstOf b n =
      { b with
        procFlags := b.procFlags ||| flagIsFragment
        totalAduLength := totalAduLengthOf b
        payload := { b.payload with data := firstBytes b.payload.data n.toNat }
        primaryBlockLength := fragmentPrimaryLength b } := by
    rw [firstOf, bundleRecalculateHeaderLength, if_neg (by rw [hversion]; decide), if_pos hversion]
    rfl
  have hlength := length_firstBytes hn
  rw [hfirst, bundle7GetSerializedSize, sum_blocks, neededSize]
  change 1 + (fragmentPrimaryLength b).toNat + (1 + bundle7CborUintSizeof 1
    + bundle7CborUintSizeof b.payload.number.toUInt64
    + bundle7CborUintSizeof (bundle7ConvertToProtocolBlockFlags (payloadBlock b)).toUInt64
    + bundle7CborUintSizeof b.payload.crcType.code
    + bundle7CborUintSizeof (firstBytes b.payload.data n.toNat).length.toUInt64
    + (firstBytes b.payload.data n.toNat).length.toNat + crcSize b.payload.crcType
    + ((extensionBlocks b).map bundle7BlockGetSerializedSize).sum) + 1 = _
  rw [hlength]
  omega

/-- What a cut gives the first fragment. -/
theorem firstOf_of_split (h : bundle7FragmentBundle mem b firstMax = .split first remainder) :
    bundle7GetFirstFragmentMinSize b ≤ firstMax.toNat ∧
      firstPayloadLength b firstMax < b.payloadLength ∧
      first = firstOf b (firstPayloadLength b firstMax) ∧
      remainder = remainderOf b (firstPayloadLength b firstMax) := by
  unfold bundle7FragmentBundle at h
  dsimp only at h
  split at h
  · cases h
  · next hmin =>
    split at h
    · cases h
    · next hlength =>
      split at h
      · obtain ⟨rfl, rfl⟩ := Fragmented.split.inj h
        exact ⟨Nat.le_of_not_lt hmin, UInt32.not_le.mp hlength, rfl, rfl⟩
      · cases h

/-- The payload of the first fragment is no longer than what the limit leaves. -/
theorem firstPayloadLength_le (b : Bundle) (firstMax : UInt64) :
    (firstPayloadLength b firstMax).toNat ≤ roomForPayload b firstMax := by
  rw [firstPayloadLength, UInt32.toNat_ofNat']
  exact Nat.mod_le _ _

/-! ## Accurate bundles -/

theorem sum_extensionBlocks (haccurate : Accurate b) :
    ((extensionBlocks b).map firstFragmentBlockSize).sum =
      ((extensionBlocks b).map bundle7BlockGetSerializedSize).sum := by
  congr 1
  exact List.map_congr_left fun x hx => if_neg (haccurate.payload x hx)

/-- A fragment keeps the length of its primary block, and another bundle gets two fields. -/
theorem fragmentPrimaryLength_eq (haccurate : Accurate b) :
    (fragmentPrimaryLength b).toNat = b.primaryBlockLength.toNat +
      if b.isFragmented then 0
      else bundle7CborUintSizeof b.fragmentOffset.toUInt64 +
        bundle7CborUintSizeof b.payloadLength.toUInt64 := by
  have hfields := cborUintSizeof_le_five b.fragmentOffset
  have htotal := cborUintSizeof_le_five b.payloadLength
  have hflag : hasFlag (b.procFlags ||| flagIsFragment) flagIsFragment = true :=
    hasFlag_or (by decide)
  have hsize : primarySize
      { b with procFlags := b.procFlags ||| flagIsFragment, totalAduLength := totalAduLengthOf b } =
      primarySize b + if b.isFragmented then 0
        else bundle7CborUintSizeof b.fragmentOffset.toUInt64 +
          bundle7CborUintSizeof b.payloadLength.toUInt64 := by
    unfold primarySize
    simp only [Bundle.isFragmented, cborUintSizeof_or_isFragment, hflag, if_true]
    rcases Bool.eq_false_or_eq_true (hasFlag b.procFlags flagIsFragment) with hfragment | hwhole
    · simp only [totalAduLengthOf, Bundle.isFragmented, hfragment, if_true]
      omega
    · simp only [totalAduLengthOf, Bundle.isFragmented, hwhole, Bool.false_eq_true, if_false]
      omega
  have hfits := haccurate.fits
  rw [fragmentPrimaryLength, primaryLength_eq, UInt16.toNat_ofNat', hsize, haccurate.length]
  refine Nat.mod_eq_of_lt ?_
  split <;> omega

/-- **Only a fragment is cut to size**, or a bundle whose limit leaves room for 4 GiB. -/
theorem reserves_iff_fragment (haccurate : Accurate b)
    (hcut : firstPayloadLength b firstMax < b.payloadLength) :
    Reserves b firstMax ↔ b.isFragmented = true ∨ 2 ^ 32 ≤ roomForPayload b firstMax := by
  have hprimary := fragmentPrimaryLength_eq haccurate
  have hblocks := sum_extensionBlocks haccurate
  have hle := firstPayloadLength_le b firstMax
  have hoffset := cborUintSizeof_pos b.fragmentOffset.toUInt64
  have hoffset' := cborUintSizeof_le_five b.fragmentOffset
  have hlength := cborUintSizeof_pos (firstPayloadLength b firstMax).toUInt64
  have hlength' := cborUintSizeof_le_five (firstPayloadLength b firstMax)
  have htotal := cborUintSizeof_le_five b.payloadLength
  have hmono : bundle7CborUintSizeof (firstPayloadLength b firstMax).toUInt64 ≤
      bundle7CborUintSizeof b.payloadLength.toUInt64 := by
    apply cborUintSizeof_mono
    rw [UInt64.le_iff_toNat_le, UInt32.toNat_toUInt64, UInt32.toNat_toUInt64]
    rw [UInt32.lt_iff_toNat_lt] at hcut
    exact Nat.le_of_lt hcut
  have hmod : (firstPayloadLength b firstMax).toNat = roomForPayload b firstMax % 2 ^ 32 :=
    UInt32.toNat_ofNat'
  rw [Reserves, neededSize, reservedSize, hblocks, hprimary, haccurate.flags]
  by_cases hfragment : b.isFragmented = true
  · rw [if_pos hfragment]
    exact iff_of_true (by omega) (.inl hfragment)
  · have hfields : fragmentFieldsSize b = 0 := if_neg hfragment
    rw [if_neg hfragment, hfields, or_iff_right hfragment]
    constructor
    · intro hfits
      by_contra hsmall
      rw [Nat.mod_eq_of_lt (Nat.lt_of_not_le hsmall)] at hmod
      omega
    · intro hlarge
      omega

/-- **The first fragment fits** exactly when the reserved bytes are enough.  For an accurate bundle
they are when it is a fragment already, or when 4 GiB of the limit are not used. -/
theorem first_fragment_fits_iff (hversion : b.protocolVersion = 7)
    (h : bundle7FragmentBundle mem b firstMax = .split first remainder) :
    (bundle7GetSerializedSize first ≤ firstMax.toNat ↔ Reserves b firstMax) ∧
      (Accurate b →
        (Reserves b firstMax ↔
          b.isFragmented = true ∨ 2 ^ 32 ≤ roomForPayload b firstMax)) := by
  obtain ⟨hmin, hcut, rfl, -⟩ := firstOf_of_split h
  refine ⟨?_, fun haccurate => reserves_iff_fragment haccurate hcut⟩
  have hroom : firstMax.toNat = bundle7GetFirstFragmentMinSize b + roomForPayload b firstMax :=
    (Nat.add_sub_cancel' hmin).symm
  rw [serializedSize_firstOf hversion hcut, hroom, firstMinSize_eq, Reserves]
  omega

/-- A bundle of 13 bytes from one node to another, fragmented before or not. -/
def helloBundle (procFlags : UInt32) (primaryBlockLength : UInt16) : Bundle where
  id := 1
  protocolVersion := 7
  procFlags := procFlags
  ret := RetConstraints.none
  crcType := .crc16
  destination := "dtn://b".toList
  source := "dtn://a".toList
  reportTo := "dtn:none".toList
  currentCustodian := []
  creationTimestampMs := 0
  sequenceNumber := 1
  lifetimeMs := 1000
  fragmentOffset := 0
  totalAduLength := 13
  primaryBlockLength := primaryBlockLength
  blocksBefore := []
  payload := ⟨1, 0,
    ⟨[72, 101, 108, 108, 111, 32, 119, 111, 114, 108, 100, 33, 10], Buffer.hello_fits⟩, [], .crc16⟩
  blocksAfter := []

/-- The limit that leaves 7 bytes for the payload. -/
def sevenBytesOf (b : Bundle) : UInt64 := UInt64.ofNat (bundle7GetFirstFragmentMinSize b + 7)

theorem first_fragment_fits_iff_fragment :
    ∃ first remainder,
      bundle7FragmentBundle true (helloBundle flagIsFragment 30)
        (sevenBytesOf (helloBundle flagIsFragment 30)) = .split first remainder ∧
      bundle7GetSerializedSize first ≤ (sevenBytesOf (helloBundle flagIsFragment 30)).toNat := by
  have hcut : bundle7FragmentBundle true (helloBundle flagIsFragment 30)
      (sevenBytesOf (helloBundle flagIsFragment 30)) =
        .split (firstOf (helloBundle flagIsFragment 30) 7)
          (remainderOf (helloBundle flagIsFragment 30) 7) := rfl
  exact ⟨_, _, hcut, (first_fragment_fits_iff rfl hcut).1.mpr (by decide)⟩

/-- **A whole bundle** with a limit of 7 bytes more than its minimal size: its first fragment has 2
bytes more than the limit. -/
theorem first_fragment_too_large :
    ∃ first remainder,
      bundle7FragmentBundle true (helloBundle 0 28) (sevenBytesOf (helloBundle 0 28)) =
          .split first remainder ∧
      bundle7GetSerializedSize first = (sevenBytesOf (helloBundle 0 28)).toNat + 2 :=
  ⟨_, _, rfl, by decide⟩

end Bundle7
