import DisruptaBLE.Lib.Heap
import Mathlib.Algebra.GroupWithZero.Nat

/-!
# Bundles

`struct bundle` of `include/ud3tn/bundle.h`, and the functions on a single bundle
that the bundle processor uses: `components/ud3tn/bundle.c`, the sizes of
`components/bundle6/bundle6.c` and `components/bundle7/bundle7.c`, and
`components/bundle6/sdnv.c`.

The list of blocks is kept around the payload block, which both parsers provide:
the blocks before it, the payload block and the blocks after it.  EIDs are never
`NULL` here.
-/

namespace BundleProcessor

/-- A C string, without its terminator. -/
abbrev CStr := List Char

/-- `HAS_FLAG`. -/
def hasFlag (value flag : UInt32) : Bool := value &&& flag != 0

/-! ## Flags -/

/-- `BUNDLE_FLAG_IS_FRAGMENT`. -/
def flagIsFragment : UInt32 := 0x000001

/-- `BUNDLE_FLAG_ADMINISTRATIVE_RECORD`. -/
def flagAdministrativeRecord : UInt32 := 0x000002

/-- `BUNDLE_V6_FLAG_CUSTODY_TRANSFER_REQUESTED`. -/
def flagCustodyTransferRequested : UInt32 := 0x000008

/-- `BUNDLE_V6_FLAG_SINGLETON_ENDPOINT`. -/
def flagSingletonEndpoint : UInt32 := 0x000010

/-- `BUNDLE_FLAG_REPORT_RECEPTION`. -/
def flagReportReception : UInt32 := 0x004000

/-- `BUNDLE_V6_FLAG_REPORT_CUSTODY_ACCEPTANCE`. -/
def flagReportCustodyAcceptance : UInt32 := 0x008000

/-- `BUNDLE_FLAG_REPORT_FORWARDING`. -/
def flagReportForwarding : UInt32 := 0x010000

/-- `BUNDLE_FLAG_REPORT_DELIVERY`. -/
def flagReportDelivery : UInt32 := 0x020000

/-- `BUNDLE_FLAG_REPORT_DELETION`. -/
def flagReportDeletion : UInt32 := 0x040000

/-- `BUNDLE_BLOCK_FLAG_MUST_BE_REPLICATED`. -/
def blockFlagMustBeReplicated : UInt32 := 0x01

/-- `BUNDLE_BLOCK_FLAG_REPORT_IF_UNPROC`. -/
def blockFlagReportIfUnproc : UInt32 := 0x02

/-- `BUNDLE_BLOCK_FLAG_DELETE_BUNDLE_IF_UNPROC`. -/
def blockFlagDeleteBundleIfUnproc : UInt32 := 0x04

/-- `BUNDLE_V6_BLOCK_FLAG_LAST_BLOCK`. -/
def blockFlagLastBlock : UInt32 := 0x08

/-- `BUNDLE_BLOCK_FLAG_DISCARD_IF_UNPROC`. -/
def blockFlagDiscardIfUnproc : UInt32 := 0x10

/-- `BUNDLE_V6_BLOCK_FLAG_FWD_UNPROC`. -/
def blockFlagFwdUnproc : UInt32 := 0x20

/-- `BUNDLE_V6_BLOCK_FLAG_HAS_EID_REF_FIELD`. -/
def blockFlagHasEidRefField : UInt32 := 0x40

/-- `BUNDLE_BLOCK_TYPE_PAYLOAD`. -/
def blockTypePayload : UInt32 := 1

/-- `BUNDLE_BLOCK_TYPE_HOP_COUNT`. -/
def blockTypeHopCount : UInt32 := 10

/-- `enum bundle_crc_type`.  The parser of version 7 does not reject other codes in blocks. -/
inductive CrcType where
  | none
  | crc16
  | crc32
  | other (code : UInt32) (h : 2 < code)
  deriving DecidableEq, Repr

def CrcType.code : CrcType → UInt64
  | .none => 0
  | .crc16 => 1
  | .crc32 => 2
  | .other code _ => code.toUInt64

/-- The retention constraints of a bundle: the bits of
`enum bundle_retention_constraints` that are set. -/
structure RetConstraints where
  dispatchPending : Bool
  forwardPending : Bool
  custodyAccepted : Bool
  reassemblyPending : Bool
  flagOwn : Bool
  deriving DecidableEq, Repr

namespace RetConstraints

/-- `BUNDLE_RET_CONSTRAINT_NONE`. -/
def none : RetConstraints := ⟨false, false, false, false, false⟩

/-- `BUNDLE_RET_CONSTRAINT_CUSTODY_ACCEPTED` and no other constraint. -/
def custodyOnly : RetConstraints := { none with custodyAccepted := true }

/-- `BUNDLE_RET_CONSTRAINT_REASSEMBLY_PENDING` and no other constraint. -/
def reassemblyOnly : RetConstraints := { none with reassemblyPending := true }

end RetConstraints

/-! ## Blocks and bundles -/

/-- Block data, whose length is a `uint32_t`. -/
structure Buffer where
  bytes : List UInt8
  fits : bytes.length < 2 ^ 32
  deriving DecidableEq, Repr

namespace Buffer

def empty : Buffer := ⟨[], by decide⟩

def length (d : Buffer) : UInt32 := UInt32.ofNat d.bytes.length

@[simp] theorem toNat_length (d : Buffer) : d.length.toNat = d.bytes.length := by
  simpa [length] using Nat.mod_eq_of_lt d.fits

@[simp] theorem length_empty : empty.length = 0 := rfl

/-- No more of some bytes than a `uint32_t` can tell. -/
theorem take_fits (bytes : List UInt8) : (bytes.take (bytes.length % 2 ^ 32)).length < 2 ^ 32 := by
  rw [List.length_take]
  exact Nat.lt_of_le_of_lt (Nat.min_le_left _ _) (Nat.mod_lt _ (by decide))

theorem seven_fits : [(7 : UInt8)].length < 2 ^ 32 := by decide

theorem oneTwo_fits : [(1 : UInt8), 2].length < 2 ^ 32 := by decide

/-- "Hello world!" in a line of its own. -/
theorem hello_fits :
    [(72 : UInt8), 101, 108, 108, 111, 32, 119, 111, 114, 108, 100, 33, 10].length < 2 ^ 32 := by
  decide

end Buffer

/-- `struct bundle_block` without its type. -/
structure BlockBody where
  number : UInt8
  flags : UInt32
  data : Buffer
  eidRefs : List CStr
  crcType : CrcType
  deriving DecidableEq, Repr

/-- `struct bundle_block`. -/
structure Block extends BlockBody where
  type : UInt32
  deriving DecidableEq, Repr

/-- `struct bundle`. -/
structure Bundle where
  id : UInt16
  protocolVersion : UInt8
  procFlags : UInt32
  ret : RetConstraints
  crcType : CrcType
  destination : CStr
  source : CStr
  reportTo : CStr
  currentCustodian : CStr
  creationTimestampMs : UInt64
  sequenceNumber : UInt64
  lifetimeMs : UInt64
  fragmentOffset : UInt32
  totalAduLength : UInt32
  primaryBlockLength : UInt16
  blocksBefore : List Block
  payload : BlockBody
  blocksAfter : List Block
  deriving DecidableEq, Repr

namespace Bundle

/-- `payload_block->length`. -/
def payloadLength (b : Bundle) : UInt32 := b.payload.data.length

/-- `blocks`. -/
def blocks (b : Bundle) : List Block :=
  b.blocksBefore ++ ⟨b.payload, blockTypePayload⟩ :: b.blocksAfter

/-- `bundle_is_fragmented`. -/
def isFragmented (b : Bundle) : Bool := hasFlag b.procFlags flagIsFragment

end Bundle

/-- `find_block_by_type`. -/
def findBlockByType (blocks : List Block) (type : UInt32) : Option Block :=
  blocks.find? (·.type = type)

/-- The blocks with other data in the first one of a type. -/
def setFirstData (type : UInt32) (data : Buffer) : List Block → List Block
  | [] => []
  | x :: xs => if x.type = type then { x with data } :: xs else x :: setFirstData type data xs

/-- New data for the block that `find_block_by_type` finds.  The payload block is
not of this type. -/
def Bundle.setBlockData (b : Bundle) (type : UInt32) (data : Buffer) : Bundle :=
  if (findBlockByType b.blocksBefore type).isSome then
    { b with blocksBefore := setFirstData type data b.blocksBefore }
  else { b with blocksAfter := setFirstData type data b.blocksAfter }

/-- `bundle_get_expiration_time_s`. -/
def bundleGetExpirationTimeS (now : UInt64) (b : Bundle) : UInt64 :=
  (if b.creationTimestampMs ≠ 0 then (b.creationTimestampMs + 500) / 1000 else now) +
    (b.lifetimeMs + 500) / 1000

/-- `struct bundle_unique_identifier`. -/
structure UniqueIdentifier where
  protocolVersion : UInt8
  source : CStr
  creationTimestampMs : UInt64
  sequenceNumber : UInt64
  fragmentOffset : UInt32
  payloadLength : UInt32
  deriving DecidableEq, Repr

/-- `bundle_get_unique_identifier`. -/
def bundleGetUniqueIdentifier (b : Bundle) : UniqueIdentifier where
  protocolVersion := b.protocolVersion
  source := b.source
  creationTimestampMs := b.creationTimestampMs
  sequenceNumber := b.sequenceNumber
  fragmentOffset := b.fragmentOffset
  payloadLength := b.payloadLength

/-- `bundle_is_equal_parent`. -/
def bundleIsEqualParent (b : Bundle) (id : UniqueIdentifier) : Bool :=
  b.protocolVersion = id.protocolVersion && b.source = id.source &&
    b.creationTimestampMs = id.creationTimestampMs && b.sequenceNumber = id.sequenceNumber

/-- `bundle_is_equal`. -/
def bundleIsEqual (b : Bundle) (id : UniqueIdentifier) : Bool :=
  bundleIsEqualParent b id && b.fragmentOffset = id.fragmentOffset &&
    b.payloadLength = id.payloadLength

/-- `struct bundle_adu`. -/
structure Adu where
  protocolVersion : UInt8
  procFlags : UInt32
  source : CStr
  destination : CStr
  payload : List UInt8
  deriving DecidableEq, Repr

/-- `bundle_adu_init`. -/
def bundleAduInit (b : Bundle) : Adu where
  protocolVersion := b.protocolVersion
  procFlags := b.procFlags &&& ~~~flagIsFragment
  source := b.source
  destination := b.destination
  payload := []

/-- `bundle_to_adu`: the ADU, and the bundle without its payload. -/
def bundleToAdu (b : Bundle) : Adu × Bundle :=
  ({ bundleAduInit b with payload := b.payload.data.bytes },
    { b with payload := { b.payload with data := Buffer.empty } })

/-! ## Sizes -/

/-- `sdnv_get_size_u16`. -/
def sdnvGetSizeU16 (value : UInt16) : Nat :=
  if value &&& 0xFF80 = 0 then 1
  else if value &&& 0xC000 = 0 then 2
  else 3

/-- `sdnv_get_size_u32`. -/
def sdnvGetSizeU32 (value : UInt32) : Nat :=
  if value &&& 0xFFFFFF80 = 0 then 1
  else if value &&& 0xFFFFC000 = 0 then 2
  else if value &&& 0xFFE00000 = 0 then 3
  else if value &&& 0xF0000000 = 0 then 4
  else 5

/-- `sdnv_get_size_u64`. -/
def sdnvGetSizeU64 (value : UInt64) : Nat :=
  if value &&& 0xFFFFFFFFFFFFFF80 = 0 then 1
  else if value &&& 0xFFFFFFFFFFFFC000 = 0 then 2
  else if value &&& 0xFFFFFFFFFFE00000 = 0 then 3
  else if value &&& 0xFFFFFFFFF0000000 = 0 then 4
  else if value &&& 0xFFFFFFF800000000 = 0 then 5
  else if value &&& 0xFFFFFC0000000000 = 0 then 6
  else if value &&& 0xFFFE000000000000 = 0 then 7
  else if value &&& 0xFF00000000000000 = 0 then 8
  else if value &&& 0x8000000000000000 = 0 then 9
  else 10

/-- `struct bundle6_eid_info`: where an EID lies in the dictionary. -/
structure EidInfo where
  dictSchemeOffset : UInt16
  dictSspOffset : UInt16
  deriving DecidableEq, Repr

/-- `analyze_eid`: the lengths of the scheme and of the scheme-specific part. -/
def analyzeEid (eid : CStr) : Nat × Nat :=
  if ':' ∈ eid then
    let schemeLen := eid.idxOf ':'
    (schemeLen, eid.length - schemeLen - 1)
  else (3, 4)

/-- `calculate_eid_info` for one EID after the other, from the given length of the
dictionary on; and the length after the last one. -/
def calculateEidInfos : Nat → List CStr → List EidInfo × Nat
  | dictLength, [] => ([], dictLength)
  | dictLength, eid :: eids =>
      let (schemeLen, sspLen) := analyzeEid eid
      let (infos, total) := calculateEidInfos (dictLength + schemeLen + sspLen + 2) eids
      (⟨UInt16.ofNat dictLength, UInt16.ofNat (dictLength + schemeLen + 1)⟩ :: infos, total)

/-- `bundle6_calculate_dict`: the entries of the four EIDs of the primary block,
those of the references, and the length of the dictionary. -/
def bundle6CalculateDict (b : Bundle) : List EidInfo × List EidInfo × Nat :=
  let (primary, length) :=
    calculateEidInfos 0 [b.destination, b.source, b.reportTo, b.currentCustodian]
  let (references, length) := calculateEidInfos length (b.blocks.flatMap (·.eidRefs))
  (primary, references, length)

/-- `bundle6_recalculate_header_length`: the new `primary_block_length`. -/
def bundle6RecalculateHeaderLength (b : Bundle) : UInt16 :=
  let (primary, _, dictLength) := bundle6CalculateDict b
  let offsets := primary.map fun info =>
    sdnvGetSizeU32 info.dictSchemeOffset.toUInt32 + sdnvGetSizeU32 info.dictSspOffset.toUInt32
  UInt16.ofNat (1 + sdnvGetSizeU32 b.procFlags
    + sdnvGetSizeU32 b.primaryBlockLength.toUInt32
    + offsets.sum
    + sdnvGetSizeU64 (b.creationTimestampMs / 1000)
    + sdnvGetSizeU64 b.sequenceNumber
    + sdnvGetSizeU64 (b.lifetimeMs / 1000)
    + sdnvGetSizeU32 (UInt32.ofNat dictLength)
    + dictLength
    + (if b.isFragmented then
        sdnvGetSizeU32 b.fragmentOffset + sdnvGetSizeU32 b.totalAduLength
      else 0))

/-- The block loop of `get_serialized_size`. -/
def serializedBlocksSize (excludePayload firstFragment lastFragment : Bool) :
    Bool → List EidInfo → List Block → Nat
  | _, _, [] => 0
  | payloadReached, references, x :: xs =>
      let isPayload : Bool := x.type = blockTypePayload
      let blockWanted := hasFlag x.flags blockFlagMustBeReplicated ||
        (firstFragment && !payloadReached) || (lastFragment && payloadReached)
      let eidRefCount := if hasFlag x.flags blockFlagHasEidRefField then x.eidRefs.length else 0
      let eidRefSize :=
        if hasFlag x.flags blockFlagHasEidRefField then
          ((references.take eidRefCount).map fun info =>
            sdnvGetSizeU16 info.dictSchemeOffset + sdnvGetSizeU16 info.dictSspOffset).sum
          + sdnvGetSizeU16 (UInt16.ofNat eidRefCount)
        else 0
      let blockSize := 1 + sdnvGetSizeU32 x.flags + sdnvGetSizeU32 x.data.length + eidRefSize
        + (if isPayload && excludePayload then 0 else x.data.length.toNat)
      (if blockWanted then blockSize else 0)
        + serializedBlocksSize excludePayload firstFragment lastFragment
            (payloadReached || isPayload) (references.drop eidRefCount) xs

/-- `get_serialized_size` of version 6: the size, and the bundle with the primary
block length that was recalculated on the way. -/
def getSerializedSize (b : Bundle) (excludePayload firstFragment lastFragment : Bool) :
    Nat × Bundle :=
  let primaryBlockLength := bundle6RecalculateHeaderLength b
  let (_, references, _) := bundle6CalculateDict b
  (primaryBlockLength.toNat
    + serializedBlocksSize excludePayload firstFragment lastFragment false references b.blocks
    + (if b.isFragmented then
        sdnvGetSizeU32 b.totalAduLength + sdnvGetSizeU32 b.fragmentOffset
      else 0),
    { b with primaryBlockLength })

/-- `bundle6_get_serialized_size`. -/
def bundle6GetSerializedSize (b : Bundle) : Nat × Bundle :=
  getSerializedSize b false true true

/-- `bundle7_cbor_uint_sizeof`. -/
def bundle7CborUintSizeof (num : UInt64) : Nat :=
  if num ≤ 0xFFFF then
    if num ≤ 0xFF then
      if num ≤ 23 then 1 else 2
    else 3
  else if num ≤ 0xFFFFFFFF then 5
  else 9

/-- `isspace`. -/
def isSpace (c : Char) : Bool := c = ' ' || (9 ≤ c.toNat && c.toNat ≤ 13)

/-- The number of a sequence of decimal digits. -/
def decimalValue (digits : CStr) : Nat := digits.foldl (fun n c => 10 * n + (c.toNat - 48)) 0

/-- What `sscanf` takes for a decimal number: whether it is negative, its value, and what stands
behind it. -/
def scanNumber (s : CStr) : Option (Bool × Nat × CStr) :=
  let s := s.dropWhile isSpace
  let negative := s.head? = some '-'
  let s := if s.head? = some '-' ∨ s.head? = some '+' then s.tail else s
  let digits := s.takeWhile Char.isDigit
  if digits = [] then none
  else some (negative, decimalValue digits, s.drop digits.length)

/-- A `PRIu32` of `sscanf`, and what stands behind it.  A number beyond 32 bits is cut. -/
def scanU32 (s : CStr) : Option (UInt32 × CStr) :=
  (scanNumber s).map fun (negative, n, rest) =>
    (if negative then -UInt32.ofNat n else UInt32.ofNat n, rest)

/-- `sscanf(eid, "ipn:%u.%u", ..)`, with a conversion of its numbers, when it finds both. -/
def sscanfIpnWith {α : Type} (scan : CStr → Option (α × CStr)) (eid : CStr) : Option (α × α) :=
  if eid.take 4 = "ipn:".toList then
    match scan (eid.drop 4) with
    | none => none
    | some (nodenum, s) =>
        if s.head? = some '.' then
          match scan s.tail with
          | none => none
          | some (servicenum, _) => some (nodenum, servicenum)
        else none
  else none

/-- `sscanf(eid, "ipn:%"PRIu32".%"PRIu32, ..)`. -/
def sscanfIpn (eid : CStr) : Option (UInt32 × UInt32) := sscanfIpnWith scanU32 eid

/-- `bundle7_eid_sizeof`. -/
def bundle7EidSizeof (eid : CStr) : Nat :=
  if eid = "dtn:none".toList then 3
  else if eid.head? = some 'd' then
    let length := eid.length - 4
    1 + bundle7CborUintSizeof 1 + bundle7CborUintSizeof (UInt64.ofNat length) + length
  else
    match sscanfIpn eid with
    | none => 0
    | some (node, service) =>
        1 + bundle7CborUintSizeof 2 + 1 + bundle7CborUintSizeof node.toUInt64
          + bundle7CborUintSizeof service.toUInt64

/-- The size of a CRC field. -/
def crcSize : CrcType → Nat
  | .crc32 => 5
  | .crc16 => 3
  | _ => 0

/-- `bundle7_recalculate_primary_block_length`: the new `primary_block_length`. -/
def bundle7RecalculatePrimaryBlockLength (b : Bundle) : UInt16 :=
  UInt16.ofNat (1 + bundle7CborUintSizeof b.protocolVersion.toUInt64
    + bundle7CborUintSizeof b.procFlags.toUInt64
    + bundle7CborUintSizeof b.crcType.code
    + bundle7EidSizeof b.destination + bundle7EidSizeof b.source + bundle7EidSizeof b.reportTo
    + 1
    + bundle7CborUintSizeof b.creationTimestampMs
    + bundle7CborUintSizeof b.sequenceNumber
    + bundle7CborUintSizeof b.lifetimeMs
    + (if b.isFragmented then
        bundle7CborUintSizeof b.fragmentOffset.toUInt64
          + bundle7CborUintSizeof b.totalAduLength.toUInt64
      else 0)
    + crcSize b.crcType)

/-- `bundle7_convert_to_protocol_block_flags`. -/
def bundle7ConvertToProtocolBlockFlags (x : Block) : UInt32 :=
  x.flags &&& (blockFlagMustBeReplicated ||| blockFlagDiscardIfUnproc |||
    blockFlagReportIfUnproc ||| blockFlagDeleteBundleIfUnproc)

/-- `bundle7_block_get_serialized_size`. -/
def bundle7BlockGetSerializedSize (x : Block) : Nat :=
  1 + bundle7CborUintSizeof x.type.toUInt64
    + bundle7CborUintSizeof x.number.toUInt64
    + bundle7CborUintSizeof (bundle7ConvertToProtocolBlockFlags x).toUInt64
    + bundle7CborUintSizeof x.crcType.code
    + bundle7CborUintSizeof x.data.length.toUInt64
    + x.data.length.toNat
    + crcSize x.crcType

/-- `bundle7_get_serialized_size`. -/
def bundle7GetSerializedSize (b : Bundle) : Nat :=
  1 + b.primaryBlockLength.toNat + (b.blocks.map bundle7BlockGetSerializedSize).sum + 1

/-- `bundle_recalculate_header_length`. -/
def bundleRecalculateHeaderLength (b : Bundle) : Bundle :=
  if b.protocolVersion = 6 then
    { b with primaryBlockLength := bundle6RecalculateHeaderLength b }
  else if b.protocolVersion = 7 then
    { b with primaryBlockLength := bundle7RecalculatePrimaryBlockLength b }
  else b

/-- `bundle_get_serialized_size`. -/
def bundleGetSerializedSize (b : Bundle) : Nat × Bundle :=
  if b.protocolVersion = 6 then bundle6GetSerializedSize b
  else if b.protocolVersion = 7 then (bundle7GetSerializedSize b, b)
  else (0, b)

end BundleProcessor
