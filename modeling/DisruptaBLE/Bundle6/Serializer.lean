import DisruptaBLE.Bundle6.Sdnv
import DisruptaBLE.Bundle7.Eid

/-!
# The serializer of version 6

`components/bundle6/serializer.c`, and the dictionary of `components/bundle6/bundle6.c`: the EIDs
of a bundle are written once, in two parts each, and are referred to by the offsets of these.

The descriptor of the dictionary has room for the references of the blocks with the flag for them;
where other blocks have references, it is written beyond its memory.  Requests for memory are
served.
-/

namespace Bundle6

open BundleProcessor
open Bundle7 (cBytes)

/-- The flags that `bundle6_serialize` writes. -/
def rfc5050Flags : UInt32 :=
  0x000001        -- BUNDLE_FLAG_IS_FRAGMENT
    ||| 0x000002  -- BUNDLE_FLAG_ADMINISTRATIVE_RECORD
    ||| 0x000004  -- BUNDLE_FLAG_MUST_NOT_BE_FRAGMENTED
    ||| 0x000008  -- BUNDLE_V6_FLAG_CUSTODY_TRANSFER_REQUESTED
    ||| 0x000010  -- BUNDLE_V6_FLAG_SINGLETON_ENDPOINT
    ||| 0x000020  -- BUNDLE_FLAG_ACKNOWLEDGEMENT_REQUESTED
    ||| 0x000080  -- BUNDLE_V6_FLAG_NORMAL_PRIORITY
    ||| 0x000100  -- BUNDLE_V6_FLAG_EXPEDITED_PRIORITY
    ||| 0x004000  -- BUNDLE_FLAG_REPORT_RECEPTION
    ||| 0x008000  -- BUNDLE_V6_FLAG_REPORT_CUSTODY_ACCEPTANCE
    ||| 0x010000  -- BUNDLE_FLAG_REPORT_FORWARDING
    ||| 0x020000  -- BUNDLE_FLAG_REPORT_DELIVERY
    ||| 0x040000  -- BUNDLE_FLAG_REPORT_DELETION

/-! ## Dictionary -/

/-- `write_scheme`. -/
def writeScheme (eid : CStr) : List UInt8 :=
  if ':' ∈ eid then cBytes (eid.take (eid.idxOf ':')) ++ [0] else cBytes "dtn".toList ++ [0]

/-- `write_ssp`. -/
def writeSsp (eid : CStr) : List UInt8 :=
  if ':' ∈ eid then cBytes (eid.drop (eid.idxOf ':' + 1)) ++ [0] else cBytes "none".toList ++ [0]

/-- `write_eid`. -/
def writeEid (eid : CStr) : List UInt8 := writeScheme eid ++ writeSsp eid

/-- The EIDs of the dictionary. -/
def dictEids (b : Bundle) : List CStr :=
  [b.destination, b.source, b.reportTo, b.currentCustodian] ++ b.blocks.flatMap (·.eidRefs)

/-- `bundle6_serialize_dictionary`. -/
def bundle6SerializeDictionary (b : Bundle) : List UInt8 := (dictEids b).flatMap writeEid

/-- Whether a block has a field for references. -/
def hasRefField (x : Block) : Bool := hasFlag x.flags blockFlagHasEidRefField

/-- No reference is written beyond the memory of the descriptor. -/
def descriptorFits (b : Bundle) : Bool :=
  (b.blocks.map fun x => x.eidRefs.length).sum ≤
    (b.blocks.map fun x => if hasRefField x then x.eidRefs.length else 0).sum

/-! ## Serializer -/

/-- The offsets of an EID. -/
def writeEidInfo (info : EidInfo) : List UInt8 :=
  sdnvWriteU16 info.dictSchemeOffset ++ sdnvWriteU16 info.dictSspOffset

/-- A round of the block loop of `bundle6_serialize`.  The references are looked up from the first
one of the bundle on, whatever block they are in. -/
def serializeBlock (references : List EidInfo) (x : Block) : List UInt8 :=
  x.type.toUInt8 :: sdnvWriteU32 x.flags ++
    (if hasRefField x then
      sdnvWriteU16 (UInt16.ofNat x.eidRefs.length) ++
        (references.take x.eidRefs.length).flatMap writeEidInfo
    else []) ++
    sdnvWriteU32 x.data.length ++ x.data.bytes

/-- The primary block as `bundle6_serialize` writes it, behind its length. -/
def serializePrimaryRest (b : Bundle) : List UInt8 :=
  let (primary, _, dictLength) := bundle6CalculateDict b
  primary.flatMap writeEidInfo ++
    sdnvWriteU64 (b.creationTimestampMs / 1000) ++
    sdnvWriteU64 b.sequenceNumber ++
    sdnvWriteU64 (b.lifetimeMs / 1000) ++
    sdnvWriteU16 (UInt16.ofNat dictLength) ++
    bundle6SerializeDictionary b ++
    (if b.isFragmented then sdnvWriteU32 b.fragmentOffset ++ sdnvWriteU32 b.totalAduLength else [])

/-- `bundle6_serialize`, unless the descriptor is written beyond its memory. -/
def bundle6Serialize (b : Bundle) : Option (List UInt8) :=
  if descriptorFits b then
    let (_, references, _) := bundle6CalculateDict b
    some (b.protocolVersion :: sdnvWriteU32 (b.procFlags &&& rfc5050Flags) ++
      sdnvWriteU32 b.primaryBlockLength.toUInt32 ++
      serializePrimaryRest b ++
      b.blocks.flatMap (serializeBlock references))
  else none

/-! ## Lengths -/

@[simp] theorem length_sdnvWriteU16 (x : UInt16) : (sdnvWriteU16 x).length = sdnvGetSizeU16 x := by
  rw [sdnvWriteU16_eq, sdnvGetSizeU16_eq, Base128.length_bytes]

@[simp] theorem length_sdnvWriteU32 (x : UInt32) : (sdnvWriteU32 x).length = sdnvGetSizeU32 x := by
  rw [sdnvWriteU32_eq, sdnvGetSizeU32_eq, Base128.length_bytes]

@[simp] theorem length_sdnvWriteU64 (x : UInt64) : (sdnvWriteU64 x).length = sdnvGetSizeU64 x := by
  rw [sdnvWriteU64_eq, sdnvGetSizeU64_eq, Base128.length_bytes]

/-- The bytes of an EID in the dictionary. -/
theorem length_writeEid (eid : CStr) :
    (writeEid eid).length = (analyzeEid eid).1 + (analyzeEid eid).2 + 2 := by
  unfold writeEid writeScheme writeSsp analyzeEid
  split
  · next hcolon =>
    have hlt : eid.idxOf ':' < eid.length := List.idxOf_lt_length_of_mem hcolon
    simp only [cBytes, List.length_append, List.length_map, List.length_take, List.length_drop,
      List.length_singleton]
    omega
  · rfl

/-- Where the dictionary ends. -/
theorem calculateEidInfos_length (start : Nat) (eids : List CStr) :
    (calculateEidInfos start eids).2 = start + (eids.flatMap writeEid).length := by
  induction eids generalizing start with
  | nil => rfl
  | cons eid eids ih =>
      rw [calculateEidInfos, List.flatMap_cons, List.length_append, length_writeEid]
      dsimp only
      rw [ih]
      omega

/-- The length of the dictionary is that of what is written of it. -/
theorem length_dictionary (b : Bundle) :
    (bundle6CalculateDict b).2.2 = (bundle6SerializeDictionary b).length := by
  unfold bundle6CalculateDict bundle6SerializeDictionary dictEids
  dsimp only
  rw [calculateEidInfos_length, calculateEidInfos_length, List.flatMap_append, List.length_append]
  omega

/-- The bytes that references to EIDs take. -/
def refsSize (infos : List EidInfo) : Nat :=
  (infos.map fun info =>
    sdnvGetSizeU16 info.dictSchemeOffset + sdnvGetSizeU16 info.dictSspOffset).sum

theorem length_writeEidInfos (infos : List EidInfo) :
    (infos.flatMap writeEidInfo).length = refsSize infos := by
  induction infos with
  | nil => rfl
  | cons info infos ih =>
      rw [List.flatMap_cons, List.length_append, ih, writeEidInfo, List.length_append,
        length_sdnvWriteU16, length_sdnvWriteU16]
      rfl

end Bundle6
