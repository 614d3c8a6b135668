import DisruptaBLE.Bundle6.Framing
import DisruptaBLE.Bundle6.ReadBlocks

/-!
# The round trip of version 6

A bundle that is serialized and parsed again comes back but for the references of its blocks: the
serializer looks them up from the first reference of the bundle on, and the parser turns the list
of a block around (`round_trip_iff`).
-/

namespace Bundle6

open BundleProcessor
open Bundle7 (IsCString)
open ClaRx (ParserStatus)

variable {q : Limits} {s : Parser} {b : Bundle}

/-! ## Bundles and what comes back of them -/

/-- The EIDs that the blocks of a bundle refer to. -/
def referenceEids (b : Bundle) : List CStr := b.blocks.flatMap (·.eidRefs)

/-- A bundle with valid EIDs, flags that are written, references where a flag says so, and one
block at the end that is marked as the last one; and with the bundle in memory it is within the
quota. -/
structure Sendable (q : Limits) (usage : UInt32) (b : Bundle) : Prop where
  eids : ∀ eid ∈ [b.destination, b.source, b.reportTo, b.currentCustodian], ValidEid eid
  references : ∀ eid ∈ referenceEids b, IsCString eid
  dictionary : (bundle6SerializeDictionary b).length < 2 ^ 16
  procFlags : b.procFlags &&& rfc5050Flags = b.procFlags
  refFields : ∀ x ∈ b.blocks, hasRefField x = false → x.eidRefs = []
  lastBlock : ∃ first last, b.blocks = first ++ [last] ∧
    hasFlag last.flags blockFlagLastBlock = true ∧
    ∀ x ∈ first, hasFlag x.flags blockFlagLastBlock = false
  quota : usage.toNat + q.sizeofBundle.toNat + (bundle6SerializeDictionary b).length + 1
      + (b.blocks.map fun x => x.data.bytes.length).sum ≤ q.bundleQuota.toNat

/-- What a block and a block that was read have in common. -/
structure SameBlock (x : Block) (read : DraftBlock) : Prop where
  type : read.type = x.type
  flags : read.flags = x.flags
  eidRefs : read.eidRefs = x.eidRefs
  data : read.data = x.data.bytes

/-- A bundle came back, with its times in seconds. -/
structure SameBundle (b : Bundle) (read : Draft) : Prop where
  procFlags : read.procFlags = b.procFlags
  destination : read.destination = b.destination
  source : read.source = b.source
  reportTo : read.reportTo = b.reportTo
  currentCustodian : read.currentCustodian = b.currentCustodian
  creationTimestamp : read.creationTimestampMs = b.creationTimestampMs / 1000 * 1000
  sequenceNumber : read.sequenceNumber = b.sequenceNumber
  lifetime : read.lifetimeMs = b.lifetimeMs / 1000 * 1000
  fragment : b.isFragmented = true →
    read.fragmentOffset = b.fragmentOffset ∧ read.totalAduLength = b.totalAduLength
  blocks : List.Forall₂ SameBlock b.blocks read.blocks

/-- A bundle is serialized, and what is parsed of it is the same bundle. -/
def RoundTrip (q : Limits) (usage : UInt32) (memory : Parser) (b : Bundle) : Prop :=
  ∃ bytes read, bundle6Serialize b = some bytes ∧
    (parseBundle q (bundle6ParserReset q usage memory) bytes).status = .done ∧
    (parseBundle q (bundle6ParserReset q usage memory) bytes).sent = some read ∧
    SameBundle b read

/-- The bytes of the primary block behind its length: all but the version that `plainFieldsSize`
counts. -/
def primaryRestSize (b : Bundle) : Nat :=
  plainFieldsSize b + sdnvGetSizeU16 (UInt16.ofNat (dictLength b)) - 1

/-- The conditions on a bundle that comes back: a type and flags of one byte for each block,
references that are the first ones of the bundle in the reverse order, and a primary block that is
not longer than it says. -/
structure Returning (b : Bundle) : Prop where
  types : ∀ x ∈ b.blocks, x.type.toNat < 256
  flags : ∀ x ∈ b.blocks, x.flags.toNat < 256
  schemes : ∀ eid ∈ referenceEids b, ':' ∈ eid
  references : ∀ x ∈ b.blocks, x.eidRefs = ((referenceEids b).take x.eidRefs.length).reverse
  primary : primaryRestSize b ≤ b.primaryBlockLength.toNat

/-! ## What comes back -/

/-- The bundle that comes back. -/
def readBundle (b : Bundle) : Draft :=
  b.blocks.foldl (takeBlock ((referenceEids b).map normalEid)) (readPrimary b)

theorem length_le_flatMap_writeEid (eids : List CStr) :
    eids.length ≤ (eids.flatMap writeEid).length := by
  induction eids with
  | nil => exact Nat.le_refl _
  | cons eid eids ih =>
      have hlength := length_writeEid eid
      rw [List.flatMap_cons, List.length_append, List.length_cons]
      omega

/-- The references of the blocks are found in the dictionary. -/
theorem resolves_references (hrefs : ∀ eid ∈ referenceEids b, IsCString eid)
    (hdict : (bundle6SerializeDictionary b).length < 2 ^ 16) :
    Resolves (bundle6SerializeDictionary b) (bundle6CalculateDict b).2.1
      ((referenceEids b).map normalEid) := by
  have hstart : (calculateEidInfos 0
      [b.destination, b.source, b.reportTo, b.currentCustodian]).2 =
      ([b.destination, b.source, b.reportTo, b.currentCustodian].flatMap writeEid).length := by
    rw [calculateEidInfos_length, Nat.zero_add]
  have hinfos : (bundle6CalculateDict b).2.1 = (calculateEidInfos
      ([b.destination, b.source, b.reportTo, b.currentCustodian].flatMap writeEid).length
      (referenceEids b)).1 := by
    rw [← hstart]
    rfl
  have hlength := congrArg List.length (dictionary_eq b)
  rw [List.length_append] at hlength
  have hread := @read_dictionary (referenceEids b) hrefs
    ([b.destination, b.source, b.reportTo, b.currentCustodian].flatMap writeEid) [0]
    (bundle6SerializeDictionary b).length (by rw [hlength]; exact Nat.le_refl _) hdict
  have hall : [b.destination, b.source, b.reportTo, b.currentCustodian].flatMap writeEid ++
      ((referenceEids b).flatMap writeEid ++ [0]) = bundle6SerializeDictionary b ++ [0] := by
    rw [dictionary_eq, List.append_assoc]
    rfl
  rw [hall, ← hinfos] at hread
  exact hread

theorem sublist_referenceEids {x : Block} (hx : x ∈ b.blocks) :
    x.eidRefs.Sublist (referenceEids b) := by
  rw [referenceEids, List.flatMap_def]
  exact List.sublist_flatten_of_mem (List.mem_map_of_mem hx)

/-- What is written of a bundle. -/
theorem serialize_eq (hrefs : ∀ x ∈ b.blocks, hasRefField x = false → x.eidRefs = []) :
    bundle6Serialize b = some
      ((b.protocolVersion :: sdnvWriteU32 (b.procFlags &&& rfc5050Flags) ++
          sdnvWriteU32 b.primaryBlockLength.toUInt32) ++
        (serializePrimaryRest b ++
          b.blocks.flatMap (serializeBlock (bundle6CalculateDict b).2.1))) := by
  rw [bundle6Serialize, if_pos ((descriptorFits_iff b).mpr hrefs), ← List.append_assoc]

/-- Where the primary block is longer than it says, the parser stops. -/
theorem parse_short {usage : UInt32} (hb : Sendable q usage b)
    (hprimary : b.primaryBlockLength.toNat < primaryRestSize b) (memory : Parser)
    {bytes : List UInt8}
    (hbytes : bundle6Serialize b = some bytes) :
    (parseBundle q (bundle6ParserReset q usage memory) bytes).status = .error := by
  obtain ⟨s₁, hhead, hs₁, hremaining, hbundle, hsize, hsent⟩ :=
    feeds_head (q := q) usage memory b.protocolVersion (b.procFlags &&& rfc5050Flags)
      b.primaryBlockLength
  have hquota := hb.quota
  have hquotaLt := q.bundleQuota.toNat_lt
  have hstart : s₁.currentSize.toNat = usage.toNat + q.sizeofBundle.toNat := by
    rw [hsize, UInt32.toNat_add, Nat.mod_eq_of_lt (by omega)]
  obtain ⟨_, hrest, -⟩ := takes_primaryRest (q := q) hb.eids hb.dictionary hs₁
    (by omega) hbundle hsent
  have hlength := length_serializePrimaryRest b
  have hfails := hhead.fails (hrest.fails (by
    rw [hremaining]
    unfold primaryRestSize at hprimary
    omega) (b.blocks.flatMap (serializeBlock (bundle6CalculateDict b).2.1)))
  rw [serialize_eq hb.refFields] at hbytes
  rw [Option.some.inj hbytes] at hfails
  have herror := hfails.loop (show bytes.length ≤ 2 * bytes.length + 1 by omega)
  rw [parseBundle_eq, finish, if_neg, herror]
  rintro ⟨hgood, -⟩
  rw [herror] at hgood
  cases hgood

/-- **What is parsed** of a bundle that is serialized, if its flags fit into a byte. -/
theorem parse_serialized {usage : UInt32} (hb : Sendable q usage b)
    (hflags : ∀ x ∈ b.blocks, x.flags.toNat < 256)
    (hprimary : primaryRestSize b ≤ b.primaryBlockLength.toNat) (memory : Parser) :
    ∃ bytes, bundle6Serialize b = some bytes ∧
      (parseBundle q (bundle6ParserReset q usage memory) bytes).status = .done ∧
      (parseBundle q (bundle6ParserReset q usage memory) bytes).sent =
        some (readBundle b) := by
  obtain ⟨first, last, hblocks, hlast, hfirst⟩ := hb.lastBlock
  have hresolves := resolves_references hb.references hb.dictionary
  have hcount := hresolves.length_eq
  rw [List.length_map] at hcount
  -- each reference has its place in the dictionary
  have hroom : (referenceEids b).length ≤ (bundle6SerializeDictionary b).length := by
    have hlength := congrArg List.length (dictionary_eq b)
    have hle := length_le_flatMap_writeEid (referenceEids b)
    rw [List.length_append] at hlength
    unfold referenceEids at hle ⊢
    omega
  obtain ⟨s₁, hhead, hs₁, hremaining, hbundle, hsize, hsent⟩ :=
    feeds_head (q := q) usage memory b.protocolVersion (b.procFlags &&& rfc5050Flags)
      b.primaryBlockLength
  have hquota := hb.quota
  have hquotaLt := q.bundleQuota.toNat_lt
  have hstart : s₁.currentSize.toNat = usage.toNat + q.sizeofBundle.toNat := by
    rw [hsize, UInt32.toNat_add, Nat.mod_eq_of_lt (by omega)]
  obtain ⟨s₂, hrest, hs₂, hsize₂⟩ := takes_primaryRest (q := q) hb.eids hb.dictionary hs₁
    (by omega) hbundle hsent
  have hfed := hhead.append (hrest.feeds (by
    have hlength := length_serializePrimaryRest b
    rw [hremaining]
    unfold primaryRestSize at hprimary
    omega))
  have hbytes := serialize_eq hb.refFields
  rw [← List.append_assoc] at hbytes
  generalize hheadEq : b.protocolVersion :: sdnvWriteU32 (b.procFlags &&& rfc5050Flags) ++
    sdnvWriteU32 b.primaryBlockLength.toUInt32 ++ serializePrimaryRest b = head at hbytes hfed
  generalize hblocksEq : b.blocks.flatMap (serializeBlock (bundle6CalculateDict b).2.1) = blocks
    at hbytes
  have hparse : parseBundle q (bundle6ParserReset q usage memory) (head ++ blocks) =
      finish q (bundle6ParserReadLoop q (2 * blocks.length + head.length + 1) s₂ blocks) := by
    have hpasses : 2 * (head ++ blocks).length + 1 =
        head.length + (2 * blocks.length + head.length + 1) := by
      rw [List.length_append]
      omega
    rw [parseBundle_eq, hpasses, hfed.loop]
  have hpayload : ((first ++ [last]).foldl (takeBlock ((referenceEids b).map normalEid))
      (readPrimary b)).payloadBlock.isSome = true := by
    apply payload_takeBlocks
    rw [← hblocks]
    exact ⟨⟨b.payload, blockTypePayload⟩, by simp [Bundle.blocks],
      (by decide : blockTypePayload.toUInt8.toUInt32 = blockTypePayload)⟩
  obtain ⟨final, hfinal, hdone, hread⟩ := parse_blocks (q := q) (x := last) hs₂
    (by rw [← hblocks]; exact hflags) hlast hfirst hresolves
    (by
      intro y hy
      rw [← hblocks] at hy
      rw [hcount]
      exact (sublist_referenceEids hy).length_le)
    (by rw [hcount]; exact Nat.lt_of_le_of_lt hroom hb.dictionary) (by rw [hcount]; omega)
    (Nat.le_refl _)
    (by rw [← hblocks]; omega) hpayload
    (show 2 * _ ≤ 2 * blocks.length + head.length + 1 by rw [← hblocks, hblocksEq]; omega)
  rw [← hblocks, hblocksEq] at hfinal
  rw [← hblocks] at hread
  exact ⟨_, hbytes, by rw [hparse, hfinal, hdone], by rw [hparse, hfinal, hread]; rfl⟩

/-! ## Types and flags of one byte -/

/-- A block whose type and flags fit into a byte. -/
def ByteBlock (x : DraftBlock) : Prop := x.type.toNat < 256 ∧ x.flags.toNat < 256

/-- The parser has only blocks whose type and flags fit into a byte. -/
structure ByteBlocks (s : Parser) : Prop where
  blocks : ∀ x ∈ s.bundle.blocks, ByteBlock x
  block : ByteBlock s.block
  sent : ∀ read, s.sent = some read → ∀ x ∈ read.blocks, ByteBlock x

theorem byteBlock_create (type : UInt8) : ByteBlock (bundleBlockCreate type.toUInt32) := by
  refine ⟨?_, (by decide : (0 : UInt32).toNat < 256)⟩
  change type.toUInt32.toNat < 256
  rw [UInt8.toNat_toUInt32]
  exact type.toNat_lt

theorem byteBlocks_reset (usage : UInt32) (memory : Parser) :
    ByteBlocks (bundle6ParserReset q usage memory) :=
  ⟨fun _ hx => (nomatch hx), byteBlock_create 0, fun _ hread => (nomatch hread)⟩

/-- A field of the parser is not one of its blocks, unless it is the flags of the current one. -/
theorem ByteBlocks.readField {α : Type} {f : Field α} {t : Stage} {byte : UInt8}
    (hf : ∀ s x, ByteBlocks s → ByteBlocks (f.set s x)) (h : ByteBlocks s) :
    ByteBlocks (readField f t s byte).1 := by
  have hset := hf { s with sdnvState := (f.read s.sdnvState (f.get s) byte).1 }
    (f.read s.sdnvState (f.get s) byte).2 ⟨h.blocks, h.block, h.sent⟩
  unfold Bundle6.readField bundle6ParserWaitForSdnv
  dsimp only
  split <;> exact ⟨hset.blocks, hset.block, hset.sent⟩

theorem ByteBlocks.blockFlags (h : ByteBlocks s) (x : UInt8) :
    ByteBlocks (Field.blockFlags.set s x) := by
  refine ⟨h.blocks, ⟨h.block.1, ?_⟩, h.sent⟩
  have hflags := h.block.2
  have hx := x.toNat_lt
  change (UInt32.ofNat (s.block.flags.toNat / 256 * 256 + x.toNat)).toNat < 256
  rw [UInt32.toNat_ofNat']
  omega

theorem ByteBlocks.beginBlock (h : ByteBlocks s) (type : UInt8) :
    ByteBlocks (bundle6ParserBeginBlock s type) := by
  unfold bundle6ParserBeginBlock
  dsimp only
  split <;> exact ⟨h.blocks, byteBlock_create type, h.sent⟩

theorem ByteBlocks.readPrimaryEids (h : ByteBlocks s) : ByteBlocks (readPrimaryEids s) := by
  unfold Bundle6.readPrimaryEids
  dsimp only
  split
  · split <;> exact ⟨h.blocks, h.block, h.sent⟩
  · exact ⟨h.blocks, h.block, h.sent⟩

theorem ByteBlocks.endBlock (h : ByteBlocks s) : ByteBlocks (bundle6ParserEndBlock s) := by
  refine ⟨?_, h.block, h.sent⟩
  intro x hx
  obtain hx | hx := List.mem_append.mp hx
  · exact h.blocks x hx
  · rw [List.mem_singleton.mp hx]
    exact h.block

/-- The switch on the stage keeps the blocks. -/
theorem ByteBlocks.stageByte (h : ByteBlocks s) (byte : UInt8) : ByteBlocks (stageByte s byte) := by
  have hplain {α : Type} {f : Field α} {t : Stage}
      (hf : ∀ s x, ByteBlocks s → ByteBlocks (f.set s x)) :
      ByteBlocks (Bundle6.readField f t s byte).1 := h.readField hf
  unfold Bundle6.stageByte
  cases s.currentStage with
  | version => exact ⟨h.blocks, h.block, h.sent⟩
  | dictionary =>
      dsimp only
      split
      · exact ByteBlocks.readPrimaryEids ⟨h.blocks, h.block, h.sent⟩
      · exact ⟨h.blocks, h.block, h.sent⟩
  | blockType =>
      dsimp only
      apply ByteBlocks.beginBlock
      exact ⟨h.blocks, h.block, h.sent⟩
  | blockFlags =>
      have hread := hplain (f := Field.blockFlags) (t := .blockDataLength)
        (fun _ x h => h.blockFlags x)
      dsimp only
      split
      · split <;> exact ⟨hread.blocks, hread.block, hread.sent⟩
      · exact hread
  | blockEidRefCnt =>
      have hread := hplain (f := Field.eidRefCount) (t := .blockEidRefSch)
        (fun _ _ h => ⟨h.blocks, h.block, h.sent⟩)
      dsimp only
      split
      · split <;> exact ⟨hread.blocks, hread.block, hread.sent⟩
      · exact hread
  | blockEidRefSsp =>
      have hread := hplain (f := Field.eidRefSsp) (t := .blockEidRefSch)
        (fun _ _ h => ⟨h.blocks, h.block, h.sent⟩)
      dsimp only
      split
      · split
        · exact ⟨hread.blocks, hread.block, hread.sent⟩
        · split <;> exact ⟨hread.blocks, hread.block, hread.sent⟩
      · exact hread
  | blockData =>
      dsimp only
      split
      · exact ⟨h.blocks, h.block, h.sent⟩
      · have hend := h.endBlock
        split <;> exact ⟨hend.blocks, hend.block, hend.sent⟩
  | done => exact ⟨h.blocks, h.block, h.sent⟩
  | _ => exact hplain (fun _ _ h => ⟨h.blocks, h.block, h.sent⟩)

theorem ByteBlocks.changeStage (h : ByteBlocks s) : ByteBlocks (changeStage q s) := by
  have henter : ByteBlocks (enterStage q s) := by
    unfold enterStage
    cases s.nextStage with
    | dictionary =>
        dsimp only
        split
        · exact ⟨h.blocks, h.block, h.sent⟩
        · split <;> exact ⟨h.blocks, h.block, h.sent⟩
    | blockData =>
        dsimp only
        split <;> exact ⟨h.blocks, h.block, h.sent⟩
    | _ => exact ⟨h.blocks, h.block, h.sent⟩
  unfold Bundle6.changeStage bundle6ParserNext bundle6ParserSendBundle
  dsimp only
  split
  · split
    · split
      · refine ⟨henter.blocks, henter.block, ?_⟩
        rintro read hread
        rw [← Option.some.inj hread]
        exact henter.blocks
      · exact ⟨henter.blocks, henter.block, henter.sent⟩
    · exact ⟨henter.blocks, henter.block, henter.sent⟩
  · exact h

/-- **A byte** keeps the blocks. -/
theorem ByteBlocks.readByte (h : ByteBlocks s) (byte : UInt8) :
    ByteBlocks (bundle6ParserReadByte q s byte) := by
  have hcount : ByteBlocks (countPrimaryByte s) := by
    unfold countPrimaryByte
    split
    · exact ⟨h.blocks, h.block, h.sent⟩
    · exact h
  unfold bundle6ParserReadByte
  split
  · exact ⟨h.blocks, h.block, h.sent⟩
  · exact (hcount.stageByte byte).changeStage

theorem ByteBlocks.bulkReadDone (h : ByteBlocks s) (bytes : List UInt8) :
    ByteBlocks (bulkReadDone q s bytes) :=
  ByteBlocks.readByte (s := { s with block := { s.block with data := bytes }, bulkRead := false })
    ⟨h.blocks, h.block, h.sent⟩ 0

/-- **A run of the loop** keeps the blocks. -/
theorem ByteBlocks.loop (h : ByteBlocks s) (passes : Nat) (buffer : List UInt8) :
    ByteBlocks (bundle6ParserReadLoop q passes s buffer).1 := by
  induction passes generalizing s buffer with
  | zero => exact h
  | succ passes ih =>
      cases buffer with
      | nil => exact h
      | cons byte rest =>
          rw [bundle6ParserReadLoop]
          split
          · exact h
          · split
            · split
              · exact h
              · exact ih (h.bulkReadDone _) _
            · exact ih (h.readByte byte) rest

/-- What is parsed has only blocks whose type and flags fit into a byte. -/
theorem byteBlocks_parseBundle (usage : UInt32) (memory : Parser) (buffer : List UInt8) :
    ByteBlocks (parseBundle q (bundle6ParserReset q usage memory) buffer) := by
  have hloop := (byteBlocks_reset (q := q) usage memory).loop (q := q)
    (2 * buffer.length + 1) buffer
  rw [parseBundle_eq, finish]
  split
  · exact hloop.bulkReadDone _
  · exact hloop

/-! ## The round trip -/

theorem readBlock_iff {eids : List CStr} {x : Block} (htype : x.type.toNat < 256) :
    SameBlock x (readBlock eids x) ↔ readRefs eids x = x.eidRefs := by
  have htype : x.type.toUInt8.toUInt32 = x.type := by
    rw [← UInt32.toNat_inj, UInt8.toNat_toUInt32, UInt32.toNat_toUInt8, Nat.mod_eq_of_lt htype]
  exact ⟨fun h => h.eidRefs, fun h => ⟨htype, rfl, h, rfl⟩⟩

/-- The primary block comes back, and each block if its references do. -/
theorem sameBundle_iff (hflags : b.procFlags &&& rfc5050Flags = b.procFlags)
    (htypes : ∀ x ∈ b.blocks, x.type.toNat < 256) :
    SameBundle b (readBundle b) ↔
      ∀ x ∈ b.blocks, readRefs ((referenceEids b).map normalEid) x = x.eidRefs := by
  obtain ⟨read, payload, hread⟩ :=
    takeBlocks_eq ((referenceEids b).map normalEid) (readPrimary b) b.blocks
  have hblocks := blocks_takeBlocks ((referenceEids b).map normalEid) (readPrimary b) b.blocks
  rw [← readBundle] at hread hblocks
  rw [hread] at hblocks ⊢
  have hall : List.Forall₂ SameBlock b.blocks read ↔
      ∀ x ∈ b.blocks, readRefs ((referenceEids b).map normalEid) x = x.eidRefs := by
    rw [show read = b.blocks.map (readBlock ((referenceEids b).map normalEid)) from hblocks,
      List.forall₂_map_right_iff, List.forall₂_same]
    exact forall₂_congr fun x hx => readBlock_iff (htypes x hx)
  constructor
  · exact fun h => hall.mp h.blocks
  · intro h
    exact ⟨hflags, rfl, rfl, rfl, rfl, rfl, rfl, rfl, fun hfragment => ⟨if_pos hfragment,
      if_pos hfragment⟩, hall.mpr h⟩

/-- References that come back have a scheme, and are the first ones in the reverse order. -/
theorem readRefs_iff (hrefs : ∀ x ∈ b.blocks, hasRefField x = false → x.eidRefs = []) :
    (∀ x ∈ b.blocks, readRefs ((referenceEids b).map normalEid) x = x.eidRefs) ↔
      (∀ eid ∈ referenceEids b, ':' ∈ eid) ∧
        ∀ x ∈ b.blocks, x.eidRefs = ((referenceEids b).take x.eidRefs.length).reverse := by
  have hread {x : Block} (hx : x ∈ b.blocks) :
      readRefs ((referenceEids b).map normalEid) x =
        (((referenceEids b).map normalEid).take x.eidRefs.length).reverse := by
    unfold readRefs
    split
    · rfl
    · next hflag =>
      rw [hrefs x hx (Bool.not_eq_true _ ▸ hflag), List.length_nil, List.take_zero,
        List.reverse_nil]
  have hsame (h : ∀ eid ∈ referenceEids b, ':' ∈ eid) :
      (referenceEids b).map normalEid = referenceEids b :=
    (List.map_congr_left fun eid heid => normalEid_of_valid (h eid heid)).trans (List.map_id _)
  constructor
  · intro h
    have hschemes : ∀ eid ∈ referenceEids b, ':' ∈ eid := by
      intro eid heid
      obtain ⟨x, hx, hmem⟩ := List.mem_flatMap.mp heid
      rw [← h x hx, hread hx, List.mem_reverse] at hmem
      obtain ⟨first, -, rfl⟩ := List.mem_map.mp (List.mem_of_mem_take hmem)
      unfold normalEid
      split
      · next hcolon => exact hcolon
      · decide
    refine ⟨hschemes, fun x hx => ?_⟩
    have hx' := h x hx
    rw [hread hx, hsame hschemes] at hx'
    exact hx'.symm
  · rintro ⟨hschemes, h⟩ x hx
    rw [hread hx, hsame hschemes]
    exact (h x hx).symm

/-- **A bundle of version 6 comes back** exactly under these conditions. -/
theorem round_trip_iff {usage : UInt32} (hb : Sendable q usage b) (memory : Parser) :
    RoundTrip q usage memory b ↔ Returning b := by
  constructor
  · rintro ⟨bytes, read, hbytes, hdone, hsent, hsame⟩
    have hsmall := (byteBlocks_parseBundle (q := q) usage memory bytes).sent read hsent
    have hbyte : ∀ x ∈ b.blocks, x.type.toNat < 256 ∧ x.flags.toNat < 256 := by
      intro x hx
      obtain ⟨i, hi, rfl⟩ := List.getElem_of_mem hx
      have hi' : i < read.blocks.length := hsame.blocks.length_eq ▸ hi
      have hxy : SameBlock b.blocks[i] read.blocks[i] := hsame.blocks.get hi hi'
      rw [← hxy.type, ← hxy.flags]
      exact hsmall _ (List.getElem_mem hi')
    have hprimary : primaryRestSize b ≤ b.primaryBlockLength.toNat := by
      by_contra hshort
      rw [parse_short hb (by omega) memory hbytes] at hdone
      cases hdone
    obtain ⟨bytes', hbytes', -, hsent'⟩ :=
      parse_serialized hb (fun x hx => (hbyte x hx).2) hprimary memory
    obtain rfl : bytes = bytes' := Option.some.inj (hbytes.symm.trans hbytes')
    obtain rfl : read = readBundle b := Option.some.inj (hsent.symm.trans hsent')
    have hrefs := (readRefs_iff hb.refFields).mp
      ((sameBundle_iff hb.procFlags (fun x hx => (hbyte x hx).1)).mp hsame)
    exact ⟨fun x hx => (hbyte x hx).1, fun x hx => (hbyte x hx).2, hrefs.1, hrefs.2, hprimary⟩
  · rintro ⟨htypes, hflags, hschemes, hrefs, hprimary⟩
    obtain ⟨bytes, hbytes, hdone, hsent⟩ := parse_serialized hb hflags hprimary memory
    exact ⟨bytes, readBundle b, hbytes, hdone, hsent, (sameBundle_iff hb.procFlags htypes).mpr
      ((readRefs_iff hb.refFields).mpr ⟨hschemes, hrefs⟩)⟩

/-- The quota of a small node. -/
def smallNode : Limits := ⟨4096, 256⟩

theorem sendable_letter : Sendable smallNode 0 letter where
  eids := by decide
  references := by decide
  dictionary := by decide
  procFlags := by decide
  refFields := by decide
  lastBlock := ⟨[], _, rfl, by decide, by decide⟩
  quota := by decide

theorem round_trip_letter : RoundTrip smallNode 0 unusedParser letter :=
  (round_trip_iff sendable_letter unusedParser).mpr
    ⟨by decide, by decide, by decide, by decide, by decide⟩

/-- A bundle whose block refers to two EIDs. -/
def referringLetter : Bundle :=
  { letter with payload := ⟨1, blockFlagLastBlock ||| blockFlagHasEidRefField,
      ⟨[1, 2], Buffer.oneTwo_fits⟩, ["dtn:a".toList, "dtn:b".toList], .none⟩, primaryBlockLength := 57 }

theorem sendable_referringLetter : Sendable smallNode 0 referringLetter where
  eids := by decide
  references := by decide
  dictionary := by decide
  procFlags := by decide
  refFields := by decide
  lastBlock := ⟨[], _, rfl, by decide, by decide⟩
  quota := by decide

/-- Two references come back in the reverse order. -/
theorem references_turned_around :
    (∃ bytes read, bundle6Serialize referringLetter = some bytes ∧
      (parseBundle smallNode (bundle6ParserReset smallNode 0 unusedParser) bytes).sent = some read ∧
      read.blocks.map (·.eidRefs) = [["dtn:b".toList, "dtn:a".toList]]) ∧
      ¬ RoundTrip smallNode 0 unusedParser referringLetter := by
  obtain ⟨bytes, hbytes, -, hsent⟩ :=
    parse_serialized sendable_referringLetter (by decide) (by decide) unusedParser
  refine ⟨⟨bytes, _, hbytes, hsent, by decide⟩, ?_⟩
  rintro ⟨bytes', read, hbytes', -, hread, hsame⟩
  obtain rfl : bytes = bytes' := Option.some.inj (hbytes.symm.trans hbytes')
  obtain rfl : readBundle referringLetter = read := Option.some.inj (hsent.symm.trans hread)
  exact absurd ((sameBundle_iff sendable_referringLetter.procFlags (by decide)).mp hsame)
    (by decide)

end Bundle6
