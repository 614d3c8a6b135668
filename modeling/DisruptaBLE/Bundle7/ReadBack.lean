import DisruptaBLE.Bundle7.Passes
import DisruptaBLE.Bundle7.Serializer

/-!
# What the serializer of version 7 writes is read back

What `bundle7_serialize` writes is a sequence of items, and the parser takes them one after the
other: the primary block (`reads_primary`), and each block (`reads_block`).  All checksums are the
right ones.
-/

namespace Bundle7

open Cbor BundleProcessor

/-! ## What is written -/

/-- The types of checksums that a parser accepts. -/
def KnownCrc (type : CrcType) : Prop := type = .none ∨ ∃ v : CrcVersion, type = v.type

/-- The field of a checksum of some type. -/
def fieldOf (type : CrcType) (fed : List UInt8) : List UInt8 :=
  match type with
  | .crc16 => checksumField .crc16X25 fed
  | .crc32 => checksumField .crc32 fed
  | _ => []

theorem encodeHead_short (k : Kind) {n : Nat} (hn : n < 24) :
    encodeHead k n = [UInt8.ofNat (32 * k.major + n)] := by
  rw [encodeHead, if_pos hn]

theorem array_header {n : Nat} (hn : n < 24) (l : List UInt8) :
    UInt8.ofNat (0x80 + n) :: l = encodeHead .array n ++ l := by
  rw [encodeHead_short .array hn]
  rfl

theorem toByteString_encodeHead (n : Nat) :
    toByteString (encodeHead .uint n) = encodeHead .bytes n := by
  unfold encodeHead
  split_ifs with h₁
  · have hor : ∀ i : Fin 24, UInt8.ofNat (32 * Kind.uint.major + i) ||| 0x40 =
        UInt8.ofNat (32 * Kind.bytes.major + i) := by decide
    exact congrArg (· :: []) (hor ⟨n, h₁⟩)
  · rfl
  · rfl
  · rfl
  · rfl

/-- The field that is written is the one that is expected. -/
theorem writeCrc_eq (v : CrcVersion) (fed : List UInt8) :
    (writeCrc reference v.type (crcFeedBytes (crcInit v) fed)).2 = checksumField v fed := by
  have hversion : (crcFeedBytes (crcInit v) fed).version = v := by
    rw [version_crcFeedBytes]
    cases v <;> rfl
  cases v with
  | crc16X25 =>
      unfold writeCrc checksumField checksumOf crcZero
      rw [hversion]
      change encodeHead .bytes (toBytes 2 _).length ++ toBytes 2 _ = _
      rw [length_toBytes]
      rfl
  | crc32 =>
      unfold writeCrc checksumField checksumOf crcZero
      rw [hversion]
      change encodeHead .bytes (toBytes 4 _).length ++ toBytes 4 _ = _
      rw [length_toBytes]
      rfl

/-- The checksum of what was fed from the beginning of a block. -/
theorem crcField_eq {type : CrcType} (hknown : KnownCrc type) (crc : CrcStream) (fed : List UInt8) :
    (crcField reference type (feedCrc (initCrc crc type) type fed)).2 = fieldOf type fed := by
  rcases hknown with rfl | ⟨v, rfl⟩
  · rfl
  · cases v with
    | crc16X25 => exact writeCrc_eq .crc16X25 fed
    | crc32 => exact writeCrc_eq .crc32 fed

theorem feedCrc_append (crc : CrcStream) (type : CrcType) (a b : List UInt8) :
    feedCrc (feedCrc crc type a) type b = feedCrc crc type (a ++ b) := by
  unfold feedCrc
  split
  · rw [crcFeedBytes_append]
  · rfl

/-- What is written of a block before the length of its data. -/
def blockNumbers (x : Block) : List UInt8 :=
  encodeHead .array (blockGetItemCount x) ++ (encodeHead .uint x.type.toUInt64.toNat ++
    (encodeHead .uint x.number.toUInt64.toNat ++
    (encodeHead .uint (bundle7ConvertToProtocolBlockFlags x).toUInt64.toNat ++
    encodeHead .uint x.crcType.code.toNat)))

theorem blockGetItemCount_lt (x : Block) : blockGetItemCount x < 24 := by
  unfold blockGetItemCount
  split <;> decide

theorem blockHead_eq (x : Block) :
    blockHead reference x = blockNumbers x ++ encodeHead .bytes x.data.bytes.length := by
  have hlength : x.data.length.toUInt64.toNat = x.data.bytes.length := by
    rw [UInt32.toNat_toUInt64, Buffer.toNat_length]
  unfold blockHead blockNumbers
  rw [array_header (blockGetItemCount_lt x)]
  change _ ++ (_ ++ _ ++ _ ++ _ ++ toByteString (encodeHead .uint x.data.length.toUInt64.toNat)) = _
  rw [toByteString_encodeHead, hlength]
  simp only [List.append_assoc]
  rfl

/-- A block as it is written. -/
theorem serializeBlock_eq {x : Block} (hknown : KnownCrc x.crcType) (crc : CrcStream) :
    (serializeBlock reference crc x).2 =
      blockNumbers x ++ ((encodeHead .bytes x.data.bytes.length ++ x.data.bytes) ++
        fieldOf x.crcType (blockNumbers x ++ encodeHead .bytes x.data.bytes.length ++
          x.data.bytes)) := by
  unfold serializeBlock
  dsimp only
  rw [feedCrc_append, crcField_eq hknown, blockHead_eq]
  simp only [List.append_assoc]

/-! ## A block is read back -/

/-- A block that can be read back. -/
structure Readable (x : Block) : Prop where
  crcType : KnownCrc x.crcType
  flags : x.flags &&& keptBlockFlags = x.flags

/-- What is read back of a block. -/
def readBlock7 (x : Block) : Block :=
  { bundleBlockCreate x.type with
    number := x.number, flags := x.flags, crcType := x.crcType, data := x.data }

theorem crcTypeOf_code {type : CrcType} (hknown : KnownCrc type) :
    crcTypeOf type.code.toUInt32 = type := by
  rcases hknown with rfl | ⟨v, rfl⟩
  · rfl
  · cases v <;> rfl

theorem code_le {type : CrcType} (hknown : KnownCrc type) : type.code ≤ 2 := by
  rcases hknown with rfl | ⟨v, rfl⟩
  · decide
  · cases v <;> decide

/-- The flags of a block have room in a byte. -/
theorem read_flags {x : Block} (hflags : x.flags &&& keptBlockFlags = x.flags) :
    (bundle7ConvertToProtocolBlockFlags x).toUInt64.toUInt8.toUInt32 &&& keptBlockFlags =
      x.flags := by
  have hconvert : bundle7ConvertToProtocolBlockFlags x = x.flags := hflags
  have hlt : x.flags.toNat < 256 := by
    rw [← hflags, UInt32.toNat_and]
    exact Nat.lt_of_le_of_lt Nat.and_le_right (by decide)
  have hsame : x.flags.toUInt64.toUInt8.toUInt32 = x.flags := by
    apply UInt32.toNat_inj.mp
    rw [UInt8.toNat_toUInt32, UInt64.toNat_toUInt8, UInt32.toNat_toUInt64]
    exact Nat.mod_eq_of_lt hlt
  rw [hconvert, hsame, hflags]

variable {quota size : Nat} {r : List UInt8} {st : Parser} {draft : Draft} {log : List Event}

theorem starts_more {k : Kind} {v : Nat} (hk : k ≠ .simple) (hv : v < 2 ^ 64)
    (more r : List UInt8) : Starts ((encodeHead k v ++ more) ++ r) := by
  rw [List.append_assoc]
  exact starts_encode hk hv _

/-- **A block** is read back. -/
theorem reads_block {x : Block} (hx : Readable x) (hst : st.Between .blockStart size draft log)
    (hr : r ≠ []) (crc : CrcStream)
    (hquota : size + (serializeBlock reference crc x).2.length ≤ quota) :
    ∃ st', Reads quota (serializeBlock reference crc x).2 r st 0 st' 0 ∧
      st'.Between (closeStage { draft with block := readBlock7 x })
        (size + (serializeBlock reference crc x).2.length)
        (closeBlock { draft with block := readBlock7 x }) log := by
  have hlt := blockGetItemCount_lt x
  obtain ⟨n, hcount⟩ : ∃ n, blockGetItemCount x = n + 5 := by
    unfold blockGetItemCount
    exact ⟨_, Nat.add_comm _ _⟩
  rw [serializeBlock_eq hx.crcType] at hquota ⊢
  generalize hfield : fieldOf x.crcType (blockNumbers x ++ encodeHead .bytes x.data.bytes.length ++
    x.data.bytes) = field at hquota ⊢
  generalize hbody : encodeHead .bytes x.data.bytes.length ++ x.data.bytes = body at hquota ⊢
  have hsize := hquota
  simp only [blockNumbers, hcount, List.length_append] at hsize
  rw [blockNumbers, hcount]
  simp only [List.append_assoc]
  have htype : runStage reference .blockType = readUint reference .blockNumber fun x type =>
      { x with block := bundleBlockCreate type.toUInt32 } := rfl
  have hnumber : runStage reference .blockNumber = readUint reference .blockProcFlags
      fun x number => { x with block := { x.block with number := number.toUInt8 } } := rfl
  have hflags : runStage reference .blockProcFlags = readUint reference .blockCrcType
      fun x flags => { x with
        block := { x.block with flags := flags.toUInt8.toUInt32 &&& keptBlockFlags } } := rfl
  apply Reads.next
  · apply reads_blockStart hst _ (hcount ▸ hlt) (by omega)
    exact ready_of_starts (starts_more (by decide) (UInt64.toNat_lt _) _ _)
  apply Reads.next
  · apply reads_uint htype (UInt64.toNat_lt _) _ (by omega)
    exact ready_of_starts (starts_more (by decide) (UInt64.toNat_lt _) _ _)
  apply Reads.next
  · apply reads_uint hnumber (UInt64.toNat_lt _) _ (by omega)
    exact ready_of_starts (starts_more (by decide) (UInt64.toNat_lt _) _ _)
  apply Reads.next
  · apply reads_uint hflags (UInt64.toNat_lt _) _ (by omega)
    exact ready_of_starts (starts_more (by decide) (UInt64.toNat_lt _) _ _)
  apply Reads.next
  · apply reads_blockCrcType _ (by omega)
    rw [← hbody, List.append_assoc, List.append_assoc]
    exact ready_of_starts (starts_encode (by decide) (Nat.lt_trans x.data.fits (by decide)) _)
  simp only [UInt64.ofNat_toNat, UInt32.toUInt32_toUInt64, UInt8.toUInt8_toUInt64,
    read_flags hx.flags, crcTypeOf_code hx.crcType]
  rcases hx.crcType with hnone | ⟨v, hv⟩
  · have hn : n = 0 := by
      unfold blockGetItemCount at hcount
      rw [if_neg (not_not.mpr hnone)] at hcount
      omega
    have hempty : field = [] := by
      rw [← hfield, hnone]
      rfl
    subst hn hempty hbody
    rw [List.append_nil] at *
    simp only [List.length_append] at hsize
    apply reads_lastData hnone hr
    · simp only [List.length_append]
      omega
    · intro st' hbetween
      exact hbetween.cast (by simp only [List.length_append]; omega) hst.log
  · have hn : n = 1 := by
      unfold blockGetItemCount at hcount
      rw [if_pos (by rw [hv]; cases v <;> decide)] at hcount
      omega
    have hchecksum : field = checksumField v (blockNumbers x ++
        encodeHead .bytes x.data.bytes.length ++ x.data.bytes) := by
      rw [← hfield, hv]
      cases v <;> rfl
    have hcode : decide (x.crcType.code ≠ 0) = true := by
      rw [hv]
      cases v <;> rfl
    have hfed : fedWith true (fedWith true (fedWith true (fedWith true
        (encodeHead .array (n + 5)) (encodeHead .uint x.type.toUInt64.toNat))
        (encodeHead .uint x.number.toUInt64.toNat))
        (encodeHead .uint (bundle7ConvertToProtocolBlockFlags x).toUInt64.toNat))
        (encodeHead .uint x.crcType.code.toNat) = blockNumbers x := by
      unfold blockNumbers fedWith
      simp only [hcount, if_true, List.append_assoc]
    rw [Bool.true_and, hcode, hfed]
    subst hn hchecksum hbody
    simp only [List.length_append] at hsize
    have htypeNe : x.crcType ≠ .none := by
      rw [hv]
      cases v <;> decide
    apply Reads.next
    · apply reads_checkedData htypeNe
      · exact List.append_ne_nil_of_left_ne_nil (checksumField_ne_nil _ _) _
      · simp only [List.length_append]
        omega
    apply reads_blockCrc (v := v) hv
    · rfl
    · simp only [List.length_append]
      omega
    · intro st' hbetween
      exact hbetween.cast (by simp only [List.length_append]; omega) hst.log

/-- The draft behind some blocks that are not the payload. -/
def readBlocks (draft : Draft) (xs : List Block) : Draft :=
  xs.foldl (fun draft x => closeBlock { draft with block := readBlock7 x }) draft

theorem readBlocks_eq (draft : Draft) {xs : List Block}
    (hxs : ∀ x ∈ xs, x.type ≠ blockTypePayload) :
    ∃ block, readBlocks draft xs =
      { draft with block := block, blocks := draft.blocks ++ xs.map readBlock7 } := by
  induction xs generalizing draft with
  | nil => exact ⟨draft.block, by simp [readBlocks]⟩
  | cons x xs ih =>
      have hx : ¬ (readBlock7 x).type = blockTypePayload := hxs x List.mem_cons_self
      obtain ⟨block, hblock⟩ := ih (closeBlock { draft with block := readBlock7 x })
        fun y hy => hxs y (List.mem_cons_of_mem x hy)
      refine ⟨block, ?_⟩
      rw [readBlocks, List.foldl_cons, ← readBlocks, hblock]
      unfold closeBlock
      rw [if_neg hx]
      simp

/-- **The blocks before the payload** are read back. -/
theorem reads_blocks {xs : List Block} (hxs : ∀ x ∈ xs, Readable x)
    (htypes : ∀ x ∈ xs, x.type ≠ blockTypePayload)
    (hst : st.Between .blockStart size draft log) (hr : r ≠ []) (crc : CrcStream)
    (hquota : size + (serializeBlocks reference crc xs).length ≤ quota) :
    ∃ st', Reads quota (serializeBlocks reference crc xs) r st 0 st' 0 ∧
      st'.Between .blockStart (size + (serializeBlocks reference crc xs).length)
        (readBlocks draft xs) log := by
  induction xs generalizing st size draft crc with
  | nil => exact ⟨st, Reads.refl, hst⟩
  | cons x xs ih =>
      have hpayload : ¬ (readBlock7 x).type = blockTypePayload := htypes x List.mem_cons_self
      rw [serializeBlocks, List.length_append] at hquota
      have hfirst : size + (serializeBlock reference crc x).2.length ≤ quota := by omega
      have hmore := List.append_ne_nil_of_right_ne_nil
        (serializeBlocks reference (serializeBlock reference crc x).1 xs) hr
      obtain ⟨st₁, hread, hst₁⟩ := reads_block (hxs x List.mem_cons_self) hst hmore crc hfirst
      rw [closeStage, if_neg hpayload] at hst₁
      obtain ⟨st₂, hreads, hst₂⟩ := ih (fun y hy => hxs y (List.mem_cons_of_mem x hy))
        (fun y hy => htypes y (List.mem_cons_of_mem x hy)) hst₁
        (serializeBlock reference crc x).1 (by omega)
      refine ⟨st₂, hread.append hreads, ?_⟩
      apply hst₂.cast _ rfl
      rw [serializeBlocks, List.length_append, Nat.add_assoc]

/-! ## The primary block is read back -/

theorem fedWith_append (feed : Bool) (fed a b : List UInt8) :
    fedWith feed (fedWith feed fed a) b = fedWith feed fed (a ++ b) := by
  cases feed with
  | false => rfl
  | true => exact List.append_assoc fed a b

/-- The numbers of the primary block before the identifiers. -/
def headDraft (b : Bundle) : Draft :=
  { bundleInit with
    protocolVersion := b.protocolVersion, procFlags := b.procFlags, crcType := b.crcType }

/-- The primary block as it is read back, with its length. -/
def primaryDraft (b : Bundle) (length : Nat) : Draft :=
  { headDraft b with
    destination := readBack b.destination
    source := readBack b.source
    reportTo := readBack b.reportTo
    creationTimestampMs := b.creationTimestampMs
    sequenceNumber := b.sequenceNumber
    lifetimeMs := b.lifetimeMs
    fragmentOffset := if b.isFragmented then b.fragmentOffset else 0
    totalAduLength := if b.isFragmented then b.totalAduLength else 0
    primaryBlockLength := UInt16.ofNat length }

variable {b : Bundle} {n m : Nat} {feed : Bool} {fed : List UInt8}

theorem primaryHead_eq (hflags : b.procFlags &&& bpV7Flags = b.procFlags)
    (hlt : primaryBlockGetItemCount b < 24) :
    primaryHead reference b = encodeHead .array (primaryBlockGetItemCount b) ++
      (encodeHead .uint b.protocolVersion.toUInt64.toNat ++
        (encodeHead .uint b.procFlags.toUInt64.toNat ++
          encodeHead .uint b.crcType.code.toNat)) := by
  unfold primaryHead
  rw [array_header hlt, hflags]
  simp only [reference, List.append_assoc]

/-- The begin of a bundle, up to the type of the checksum. -/
theorem reads_primaryHead (hflags : b.procFlags &&& bpV7Flags = b.procFlags)
    (hcrc : KnownCrc b.crcType) (hst : st.Between .bundleStart 0 bundleInit log)
    (hcount : primaryBlockGetItemCount b = m + 3) (hlt : primaryBlockGetItemCount b < 24)
    (hready : Ready m r)
    (hquota : (0x9f :: primaryHead reference b).length ≤ quota) :
    ∃ st', Reads quota (0x9f :: primaryHead reference b) r st 0 st' m ∧
      ∃ fed, st' = st.atStage .destinationEid (b.crcType ≠ .none) fed
          (0x9f :: primaryHead reference b).length (headDraft b) ∧
        (b.crcType ≠ .none → fed = primaryHead reference b) := by
  have hversion : runStage reference .protocolVersion = readUint reference .primaryProcFlags
      fun x version => { x with protocolVersion := version.toUInt8 } := rfl
  have hprocFlags : runStage reference .primaryProcFlags = readUint reference .crcType
      fun x flags => { x with procFlags := flags.toUInt32 &&& bpV7Flags } := rfl
  rw [primaryHead_eq hflags hlt] at hquota ⊢
  rw [hcount] at hquota hlt ⊢
  simp only [List.length_cons, List.length_append] at hquota
  rw [← List.cons_append]
  apply Reads.next
  · apply reads_bundleStart hst _ hlt
    · rw [List.length_cons]
      omega
    · exact ready_of_starts (starts_more (by decide) (UInt64.toNat_lt _) _ _)
  apply Reads.next
  · apply reads_uint hversion (UInt64.toNat_lt _)
    · exact ready_of_starts (starts_more (by decide) (UInt64.toNat_lt _) _ _)
    · rw [List.length_cons]
      omega
  apply Reads.next
  · apply reads_uint hprocFlags (UInt64.toNat_lt _)
    · exact ready_of_starts (starts_encode (by decide) (UInt64.toNat_lt _) _)
    · rw [List.length_cons]
      omega
  let numbers := encodeHead .uint b.protocolVersion.toUInt64.toNat ++
    encodeHead .uint b.procFlags.toUInt64.toNat
  refine ⟨_, reads_crcType (code_le hcrc) hready ?_, fedWith (b.crcType ≠ .none)
    (encodeHead .array (m + 3) ++ numbers) (encodeHead .uint b.crcType.code.toNat), ?_, ?_⟩
  · rw [List.length_cons]
    omega
  · have hsize : 0 + (0x9f :: encodeHead .array (m + 3)).length +
        (encodeHead .uint b.protocolVersion.toUInt64.toNat).length +
        (encodeHead .uint b.procFlags.toUInt64.toNat).length +
        (encodeHead .uint b.crcType.code.toNat).length =
          (0x9f :: (encodeHead .array (m + 3) ++
            (encodeHead .uint b.protocolVersion.toUInt64.toNat ++
              (encodeHead .uint b.procFlags.toUInt64.toNat ++
                encodeHead .uint b.crcType.code.toNat)))).length := by
      simp only [List.length_cons, List.length_append]
      omega
    rw [← List.cons_append] at hsize
    rw [hsize]
    simp only [UInt64.ofNat_toNat, UInt8.toUInt8_toUInt64, UInt32.toUInt32_toUInt64, hflags,
      crcTypeOf_code hcrc, Bool.true_and, fedWith_append, numbers]
    rfl
  · intro hchecked
    simp only [fedWith, numbers, decide_eq_true hchecked, if_true, List.append_assoc]

/-- The three identifiers of the primary block. -/
theorem reads_eids {w₁ w₂ w₃ : List UInt8} {p : Parser} {draft : Draft}
    (hstring : ∀ eid ∈ [b.destination, b.source, b.reportTo], IsCString eid ∧
      (eid.take 4 = "dtn:".toList → eid.length < 2 ^ 64))
    (h₁ : bundle7EidSerializeCbor reference b.destination = some w₁)
    (h₂ : bundle7EidSerializeCbor reference b.source = some w₂)
    (h₃ : bundle7EidSerializeCbor reference b.reportTo = some w₃)
    (hready : Ready m r) (hquota : size + (w₁ ++ (w₂ ++ w₃)).length ≤ quota) :
    Reads quota (w₁ ++ (w₂ ++ w₃)) r (p.atStage .destinationEid feed fed size draft) (m + 3)
      (p.atStage .creationTimestamp feed (fedWith feed fed (w₁ ++ (w₂ ++ w₃)))
        (size + (w₁ ++ (w₂ ++ w₃)).length)
        { draft with
          destination := readBack b.destination
          source := readBack b.source
          reportTo := readBack b.reportTo }) m := by
  have hdest := hstring b.destination (by simp)
  have hsource := hstring b.source (by simp)
  have hreport := hstring b.reportTo (by simp)
  have hdestEid : runStage reference .destinationEid = parseEid reference .sourceEid
      fun x eid => { x with destination := eid } := rfl
  have hsourceEid : runStage reference .sourceEid = parseEid reference .reportToEid
      fun x eid => { x with source := eid } := rfl
  have hreportEid : runStage reference .reportToEid = parseEid reference .creationTimestamp
      fun x eid => { x with reportTo := eid } := rfl
  simp only [List.length_append] at hquota
  have hquota₁ : size + w₁.length ≤ quota := by omega
  have hquota₂ : size + w₁.length + w₂.length ≤ quota := by omega
  have hquota₃ : size + w₁.length + w₂.length + w₃.length ≤ quota := by omega
  have hready₁ : Ready (m + 2) ((w₂ ++ w₃) ++ r) := by
    rw [List.append_assoc]
    exact ready_of_starts (starts_eid h₂ _)
  have hready₂ : Ready (m + 1) (w₃ ++ r) := ready_of_starts (starts_eid h₃ r)
  have hbytes : size + (w₁ ++ (w₂ ++ w₃)).length =
      size + w₁.length + w₂.length + w₃.length := by
    simp only [List.length_append, Nat.add_assoc]
  rw [← fedWith_append, ← fedWith_append, hbytes]
  apply (reads_eid hdestEid hdest.1 hdest.2 h₁ hready₁ hquota₁).append
  apply (reads_eid hsourceEid hsource.1 hsource.2 h₂ hready₂ hquota₂).append
  exact reads_eid hreportEid hreport.1 hreport.2 h₃ hready hquota₃

/-- The timestamp and the numbers behind it, in a draft. -/
def tailDraft (b : Bundle) (draft : Draft) : Draft :=
  { draft with
    creationTimestampMs := b.creationTimestampMs
    sequenceNumber := b.sequenceNumber
    lifetimeMs := b.lifetimeMs
    fragmentOffset := if b.isFragmented then b.fragmentOffset else draft.fragmentOffset
    totalAduLength := if b.isFragmented then b.totalAduLength else draft.totalAduLength }

/-- The timestamp, and the numbers behind it. -/
theorem reads_primaryTail {p : Parser} (hfragment : draft.isFragmented = b.isFragmented)
    (hn : n = m + (if b.isFragmented then 4 else 2)) (hready : Ready m r) (hsize : 1 ≤ size)
    (hquota : size + (primaryTail reference b).length ≤ quota) :
    Reads quota (primaryTail reference b) r (p.atStage .creationTimestamp feed fed size draft) n
      (p.atStage (endStage draft) feed (fedWith feed fed (primaryTail reference b))
        (size + (primaryTail reference b).length)
        (endFields (tailDraft b draft) (size - 1 + (primaryTail reference b).length))) m := by
  let timestamp := encodeHead .array 2 ++ (encodeHead .uint b.creationTimestampMs.toNat ++
    encodeHead .uint b.sequenceNumber.toNat)
  let lifetime := encodeHead .uint b.lifetimeMs.toNat
  have hlifetime (more : List UInt8) : Starts (lifetime ++ more) :=
    starts_encode (by decide) b.lifetimeMs.toNat_lt more
  cases hb : b.isFragmented with
  | false =>
      have htail : primaryTail reference b = timestamp ++ lifetime := by
        unfold primaryTail
        rw [hb]
        simp [reference, timestamp, lifetime]
        rfl
      rw [hb] at hfragment hn
      subst hn
      rw [htail, List.length_append] at hquota
      have hlength : size - 1 + (timestamp ++ lifetime).length =
          size + timestamp.length - 1 + lifetime.length := by
        rw [List.length_append]
        omega
      have htotal : size + (timestamp ++ lifetime).length =
          size + timestamp.length + lifetime.length := by
        rw [List.length_append, Nat.add_assoc]
      rw [htail, ← fedWith_append, hlength, htotal]
      have hquota₁ : size + timestamp.length ≤ quota := by omega
      have hquota₂ : size + timestamp.length + lifetime.length ≤ quota := by omega
      apply (reads_creationTimestamp rfl (ready_of_starts (hlifetime r)) hquota₁).append
      unfold tailDraft
      rw [hb]
      exact reads_lifetime hfragment hready hquota₂
  | true =>
      let offset := encodeHead .uint b.fragmentOffset.toUInt64.toNat
      let total := encodeHead .uint b.totalAduLength.toUInt64.toNat
      have htail : primaryTail reference b = timestamp ++ (lifetime ++ (offset ++ total)) := by
        unfold primaryTail
        rw [hb]
        simp [reference, timestamp, lifetime, offset, total]
        rfl
      have hstage : runStage reference .fragmentOffset = readUint reference .totalAduLength
          fun x offset => { x with fragmentOffset := offset.toUInt32 } := rfl
      have hoffset (more : List UInt8) : Starts (offset ++ more) :=
        starts_encode (by decide) (UInt64.toNat_lt _) more
      have htotal (more : List UInt8) : Starts (total ++ more) :=
        starts_encode (by decide) (UInt64.toNat_lt _) more
      rw [hb] at hfragment hn
      subst hn
      rw [htail] at hquota
      simp only [List.length_append] at hquota
      have hquota₁ : size + timestamp.length ≤ quota := by omega
      have hquota₂ : size + timestamp.length + lifetime.length ≤ quota := by omega
      have hquota₃ : size + timestamp.length + lifetime.length + offset.length ≤ quota := by omega
      have hquota₄ : size + timestamp.length + lifetime.length + offset.length + total.length ≤
        quota := by omega
      have hlength : size - 1 + (timestamp ++ (lifetime ++ (offset ++ total))).length =
          size + timestamp.length + lifetime.length + offset.length - 1 + total.length := by
        simp only [List.length_append]
        omega
      have hbytes : size + (timestamp ++ (lifetime ++ (offset ++ total))).length =
          size + timestamp.length + lifetime.length + offset.length + total.length := by
        simp only [List.length_append, Nat.add_assoc]
      rw [htail, ← fedWith_append, ← fedWith_append, ← fedWith_append, hlength, hbytes]
      have hready₁ : Ready (m + 3) ((lifetime ++ (offset ++ total)) ++ r) := by
        rw [List.append_assoc]
        exact ready_of_starts (hlifetime _)
      have hready₂ : Ready (m + 2) ((offset ++ total) ++ r) := by
        rw [List.append_assoc]
        exact ready_of_starts (hoffset _)
      apply (reads_creationTimestamp rfl hready₁ hquota₁).append
      apply Reads.append (reads_lifetime_fragment (by exact hfragment) hready₂ hquota₂)
      apply (reads_uint hstage (UInt64.toNat_lt _) (ready_of_starts (htotal r)) hquota₃).append
      unfold tailDraft
      rw [hb, UInt64.ofNat_toNat, UInt32.toUInt32_toUInt64]
      exact reads_totalAduLength hready hquota₄

/-- The primary block as it is written, with the array of the bundle. -/
def primaryBytes (b : Bundle) (eids : List UInt8) : List UInt8 :=
  (0x9f :: primaryHead reference b) ++ (eids ++ (primaryTail reference b ++
    fieldOf b.crcType (primaryHead reference b ++ eids ++ primaryTail reference b)))

theorem primaryBlockGetItemCount_eq (b : Bundle) :
    primaryBlockGetItemCount b = (if b.crcType ≠ .none then 1 else 0) +
      (if b.isFragmented then 4 else 2) + 3 + 3 := by
  unfold primaryBlockGetItemCount
  split <;> split <;> rfl

/-- **The primary block** is read back. -/
theorem reads_primary {w₁ w₂ w₃ : List UInt8} (hflags : b.procFlags &&& bpV7Flags = b.procFlags)
    (hcrc : KnownCrc b.crcType) (hst : st.Between .bundleStart 0 bundleInit log)
    (hstring : ∀ eid ∈ [b.destination, b.source, b.reportTo], IsCString eid ∧
      (eid.take 4 = "dtn:".toList → eid.length < 2 ^ 64))
    (h₁ : bundle7EidSerializeCbor reference b.destination = some w₁)
    (h₂ : bundle7EidSerializeCbor reference b.source = some w₂)
    (h₃ : bundle7EidSerializeCbor reference b.reportTo = some w₃)
    (hquota : (primaryBytes b (w₁ ++ (w₂ ++ w₃))).length ≤ quota) :
    ∃ st', Reads quota (primaryBytes b (w₁ ++ (w₂ ++ w₃))) r st 0 st' 0 ∧
      st'.Between .blockStart (primaryBytes b (w₁ ++ (w₂ ++ w₃))).length
        (primaryDraft b ((primaryBytes b (w₁ ++ (w₂ ++ w₃))).length - 1)) log := by
  have hcount := primaryBlockGetItemCount_eq b
  have hlt : primaryBlockGetItemCount b < 24 := by
    rw [hcount]
    split <;> split <;> decide
  generalize hfield : fieldOf b.crcType (primaryHead reference b ++ (w₁ ++ (w₂ ++ w₃)) ++
    primaryTail reference b) = field
  have hbytes : primaryBytes b (w₁ ++ (w₂ ++ w₃)) = (0x9f :: primaryHead reference b) ++
      ((w₁ ++ (w₂ ++ w₃)) ++ (primaryTail reference b ++ field)) := by
    rw [primaryBytes, hfield]
  rw [hbytes] at hquota ⊢
  have hlength : ((0x9f :: primaryHead reference b) ++
      ((w₁ ++ (w₂ ++ w₃)) ++ (primaryTail reference b ++ field))).length =
      (0x9f :: primaryHead reference b).length + (w₁ ++ (w₂ ++ w₃)).length +
        (primaryTail reference b).length + field.length := by
    simp only [List.length_append, Nat.add_assoc]
  rw [hlength] at hquota ⊢
  have htail (more : List UInt8) : Starts (primaryTail reference b ++ more) := by
    have hhead : primaryTail reference b =
        encodeHead .array 2 ++ (primaryTail reference b).tail := rfl
    rw [hhead, List.append_assoc]
    exact starts_encode (by decide) (by decide) _
  have heids (more : List UInt8) : Starts ((w₁ ++ (w₂ ++ w₃)) ++ more) := by
    rw [List.append_assoc]
    exact starts_eid h₁ _
  have hone : 1 ≤ (0x9f :: primaryHead reference b).length := Nat.le_add_left 1 _
  have hready : Ready (if b.crcType ≠ .none then 1 else 0) (field ++ r) := by
    rcases hcrc with hnone | ⟨v, hv⟩
    · rw [if_neg (not_not.mpr hnone)]
      exact ready_zero _
    · rw [← hfield, hv]
      apply ready_of_starts
      cases v with
      | crc16X25 => exact starts_checksumField .crc16X25 _ r
      | crc32 => exact starts_checksumField .crc32 _ r
  obtain ⟨st₁, hhead, fed, rfl, hfed⟩ := reads_primaryHead hflags hcrc hst hcount hlt
    (r := (w₁ ++ (w₂ ++ w₃)) ++ (primaryTail reference b ++ field) ++ r)
    (ready_of_starts (by rw [List.append_assoc]; exact heids _)) (by omega : _ ≤ quota)
  apply hhead.next
  apply Reads.next
  · apply reads_eids hstring h₁ h₂ h₃ _ (by omega)
    rw [List.append_assoc]
    exact ready_of_starts (htail _)
  apply Reads.next
  · exact reads_primaryTail rfl rfl hready (by omega) (by omega)
  rcases hcrc with hnone | ⟨v, hv⟩
  · have hempty : field = [] := by
      rw [← hfield, hnone]
      rfl
    subst hempty
    have hlen : (0x9f :: primaryHead reference b).length + (w₁ ++ (w₂ ++ w₃)).length - 1 +
        (primaryTail reference b).length = (0x9f :: primaryHead reference b).length +
          (w₁ ++ (w₂ ++ w₃)).length + (primaryTail reference b).length - 1 := by omega
    have hchecked : ¬ b.crcType ≠ .none := not_not.mpr hnone
    rw [if_neg hchecked, endStage, if_neg (by exact hchecked), endFields,
      if_neg (by exact hchecked), hlen]
    exact ⟨_, Reads.refl, rfl, rfl, rfl, rfl, rfl, rfl, hst.log⟩
  · have hchecked : b.crcType ≠ .none := by
      rw [hv]
      cases v <;> decide
    have hchecksum : field = checksumField v (primaryHead reference b ++ (w₁ ++ (w₂ ++ w₃)) ++
        primaryTail reference b) := by
      rw [← hfield, hv]
      cases v <;> rfl
    have hlen : (0x9f :: primaryHead reference b).length + (w₁ ++ (w₂ ++ w₃)).length +
        (primaryTail reference b).length - 1 + field.length =
          (0x9f :: primaryHead reference b).length + (w₁ ++ (w₂ ++ w₃)).length +
            (primaryTail reference b).length + field.length - 1 := by omega
    rw [decide_eq_true hchecked, hfed hchecked, if_pos hchecked, fedWith_append, endStage,
      if_pos (by exact hchecked), endFields, if_pos (by exact hchecked)]
    apply reads_primaryCrc (v := v) hv
    · rw [hchecksum, List.append_assoc]
      rfl
    · omega
    · intro st' hbetween
      rw [hlen] at hbetween
      exact hbetween.cast rfl hst.log

end Bundle7
