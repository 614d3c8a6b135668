import DisruptaBLE.Bundle6.ReadPrimary

/-!
# Reading blocks of version 6 back

What comes back of a block (`readBlock`): the serializer looks up its references from the first
one of the bundle on, and the parser puts each reference before those that it has read.
-/

namespace Bundle6

open BundleProcessor
open ClaRx (ParserStatus)

variable {q : Limits} {s : Parser} {b : Bundle} {dictionary : List UInt8} {bundle : Draft}
  {block : DraftBlock} {stage : Stage}

/-! ## Stages of a block -/

/-- The parser before a stage of a block. -/
structure InBlock (dictionary : List UInt8) (bundle : Draft) (block : DraftBlock) (stage : Stage)
    (s : Parser) : Prop where
  status : s.status = .good
  bulkRead : s.bulkRead = false
  currentStage : s.currentStage = stage
  nextStage : s.nextStage = stage
  currentBlock : s.currentBlock ≠ .primary
  sdnvState : s.sdnvState = sdnvReset
  dict : s.dict = dictionary ++ [0]
  dictLength : s.dictLength.toNat = dictionary.length
  bundle : s.bundle = bundle
  block : s.block = block
  sent : s.sent = none

/-- The parser goes on to a stage that begins with a number. -/
theorem changeStage_to {σ t : Stage} (hgood : s.status = .good) (hcurrent : s.currentStage = σ)
    (hnext : s.nextStage = t) (hne : σ ≠ t) (ht : t.plain = true) :
    changeStage q s = { s with sdnvState := sdnvReset, currentStage := t } := by
  subst hnext
  exact changeStage_plain (by rw [hgood]; decide) (by rw [hcurrent]; exact hne) ht

/-- A field of a block is taken. -/
theorem InBlock.feeds {α : Type} {f : Field α} {t : Stage} {after : Parser → Parser} {x : α}
    {final : SdnvState} {bytes : List UInt8} (hs : InBlock dictionary bundle block stage s)
    (hf : f.Lawful) (hstage : ReadsField f t after s)
    (hreads : Reads f.read sdnvReset (f.get s) bytes final x) :
    Feeds q s bytes
      (changeStage q (after { within f s final x s.primaryBytesRemaining with
        nextStage := t })) := by
  have hfeeds := feeds_field (q := q) hf hstage hs.status hs.bulkRead
    (hs.currentStage.trans hs.nextStage.symm) hs.sdnvState (fun h => absurd h hs.currentBlock)
    hreads
  rwa [countDown, if_neg hs.currentBlock] at hfeeds

/-- The bundle when a block of a type begins. -/
def beginBlock (bundle : Draft) (type : UInt8) : Draft :=
  if type.toUInt32 = blockTypePayload then { bundle with payloadBlock := some bundle.blocks.length }
  else bundle

/-- **The type** of a block. -/
theorem feeds_type (hs : AtBlock dictionary bundle s) (type : UInt8) :
    ∃ s', Feeds q s [type] s' ∧
      InBlock dictionary (beginBlock bundle type) (bundleBlockCreate type.toUInt32) .blockFlags s' ∧
      s'.currentSize = s.currentSize := by
  have hstage : stageByte (countPrimaryByte s) type =
      bundle6ParserBeginBlock { s with nextStage := .blockFlags } type := by
    rw [countPrimaryByte, if_neg (by rw [hs.currentBlock]; decide), stageByte, hs.currentStage]
  have hread : bundle6ParserReadByte q s type =
      changeStage q (bundle6ParserBeginBlock { s with nextStage := .blockFlags } type) := by
    have hblock : s.currentBlock ≠ .primary := by
      rw [hs.currentBlock]
      decide
    rw [bundle6ParserReadByte, if_neg (fun h => hblock h.1), hstage]
  have hbegin (block : ParserBlock) (hblock : block ≠ .primary) (bundle' : Draft) :
      InBlock dictionary bundle' (bundleBlockCreate type.toUInt32) .blockFlags
        (changeStage q { s with
          nextStage := .blockFlags
          bundle := bundle'
          currentBlock := block
          block := bundleBlockCreate type.toUInt32 }) ∧
      (changeStage q { s with
          nextStage := .blockFlags
          bundle := bundle'
          currentBlock := block
          block := bundleBlockCreate type.toUInt32 }).currentSize = s.currentSize := by
    rw [changeStage_to (t := .blockFlags) (by exact hs.status) (by exact hs.currentStage) rfl
      (by decide) rfl]
    exact ⟨⟨hs.status, hs.bulkRead, rfl, rfl, hblock, rfl, hs.dict, hs.dictLength, rfl, rfl,
      hs.sent⟩,
      rfl⟩
  refine ⟨_, .single hs.status hs.bulkRead hread, ?_⟩
  unfold bundle6ParserBeginBlock beginBlock
  dsimp only
  rw [hs.bundle]
  split
  · exact hbegin .payload (by decide) _
  · exact hbegin .extension (by decide) bundle

/-! ## Flags and references -/

/-- The parser when the flags of a block are complete. -/
def afterFlags (state : Parser) : Parser :=
  let state : Parser := { state with lastBlock := hasFlag state.block.flags blockFlagLastBlock }
  if hasFlag state.block.flags blockFlagHasEidRefField then
    { state with nextStage := .blockEidRefCnt }
  else state

theorem readsField_flags (hcurrent : s.currentStage = .blockFlags) :
    ReadsField Field.blockFlags .blockDataLength afterFlags s := by
  intro sdnvState value remaining byte
  have hwithin : (within Field.blockFlags s sdnvState value remaining).currentStage = .blockFlags :=
    hcurrent
  rw [stageByte, hwithin]
  rfl

/-- **The flags** of a block, when they fit into a byte. -/
theorem feeds_flags {type flags : UInt32}
    (hs : InBlock dictionary bundle (bundleBlockCreate type) .blockFlags s)
    (hflags : flags.toNat < 256) :
    ∃ s', Feeds q s (sdnvWriteU32 flags) s' ∧
      InBlock dictionary bundle { bundleBlockCreate type with flags := flags }
        (if hasFlag flags blockFlagHasEidRefField then .blockEidRefCnt else .blockDataLength) s' ∧
      s'.lastBlock = hasFlag flags blockFlagLastBlock ∧ s'.currentSize = s.currentSize := by
  have hreads := readsBits8.reads_bytes hflags (Field.blockFlags.get s)
  rw [← sdnvWriteU32_eq] at hreads
  have hfeeds := hs.feeds (q := q) Field.blockFlags_lawful
    (readsField_flags hs.currentStage) hreads
  -- the block had no flags before
  have hset : Field.blockFlags.set s (UInt8.ofNat flags.toNat) =
      { s with block := { bundleBlockCreate type with flags := flags } } := by
    have hlow : (0 : UInt32).toNat / 256 * 256 + (UInt8.ofNat flags.toNat).toNat = flags.toNat := by
      rw [UInt8.toNat_ofNat', Nat.mod_eq_of_lt hflags, UInt32.toNat_zero]
      omega
    have hzero : (bundleBlockCreate type).flags = 0 := rfl
    dsimp only [Field.blockFlags]
    rw [hs.block, hzero, hlow, UInt32.ofNat_toNat]
  rw [within, hset] at hfeeds
  refine ⟨_, hfeeds, ?_⟩
  unfold afterFlags
  dsimp only
  split
  · rw [changeStage_to (t := .blockEidRefCnt) (by exact hs.status) (by exact hs.currentStage) rfl
      (by decide) rfl]
    exact ⟨⟨hs.status, hs.bulkRead, rfl, rfl, hs.currentBlock, rfl, hs.dict, hs.dictLength,
      hs.bundle,
      rfl, hs.sent⟩, rfl, rfl⟩
  · rw [changeStage_to (t := .blockDataLength) (by exact hs.status) (by exact hs.currentStage) rfl
      (by decide) rfl]
    exact ⟨⟨hs.status, hs.bulkRead, rfl, rfl, hs.currentBlock, rfl, hs.dict, hs.dictLength,
      hs.bundle,
      rfl, hs.sent⟩, rfl, rfl⟩

/-- The parser when the number of references is complete. -/
def afterCount (state : Parser) : Parser :=
  let state : Parser := { state with currentIndex := 0 }
  if state.currentSize = 0 then { state with nextStage := .blockDataLength } else state

theorem readsField_count (hcurrent : s.currentStage = .blockEidRefCnt) :
    ReadsField Field.eidRefCount .blockEidRefSch afterCount s := by
  intro sdnvState value remaining byte
  have hwithin : (within Field.eidRefCount s sdnvState value remaining).currentStage =
      .blockEidRefCnt := hcurrent
  rw [stageByte, hwithin]
  rfl

/-- **The number of references** takes the place of the size. -/
theorem feeds_count (hs : InBlock dictionary bundle block .blockEidRefCnt s) {k : Nat}
    (hk : k < 2 ^ 16) :
    ∃ s', Feeds q s (sdnvWriteU16 (UInt16.ofNat k)) s' ∧
      InBlock dictionary bundle block (if k = 0 then .blockDataLength else .blockEidRefSch) s' ∧
      s'.currentSize.toNat = k ∧ s'.currentIndex = 0 ∧ s'.lastBlock = s.lastBlock := by
  have hk' : k < 2 ^ 32 := Nat.lt_of_lt_of_le hk (by decide)
  have hreads := readsBits32.reads_bytes hk' (Field.eidRefCount.get s)
  have hwritten : sdnvWriteU16 (UInt16.ofNat k) = Base128.bytes k := by
    rw [sdnvWriteU16_eq, UInt16.toNat_ofNat', Nat.mod_eq_of_lt hk]
  rw [← hwritten] at hreads
  have hfeeds := hs.feeds (q := q) Field.eidRefCount_lawful
    (readsField_count hs.currentStage) hreads
  have hcount : (UInt32.ofNat k).toNat = k := by
    rw [UInt32.toNat_ofNat', Nat.mod_eq_of_lt hk']
  have hzero : UInt32.ofNat k = 0 ↔ k = 0 := by
    rw [← UInt32.toNat_inj, hcount, UInt32.toNat_zero]
  refine ⟨_, hfeeds, ?_⟩
  have hset : Field.eidRefCount.set s (UInt32.ofNat k) =
      { s with currentSize := UInt32.ofNat k } := rfl
  unfold afterCount
  rw [within, hset]
  dsimp only
  simp only [hzero]
  split
  · rw [changeStage_to (t := .blockDataLength) (by exact hs.status) (by exact hs.currentStage) rfl
      (by decide) rfl]
    exact ⟨⟨hs.status, hs.bulkRead, rfl, rfl, hs.currentBlock, rfl, hs.dict, hs.dictLength,
      hs.bundle,
      hs.block, hs.sent⟩, hcount, rfl, rfl⟩
  · rw [changeStage_to (t := .blockEidRefSch) (by exact hs.status) (by exact hs.currentStage) rfl
      (by decide) rfl]
    exact ⟨⟨hs.status, hs.bulkRead, rfl, rfl, hs.currentBlock, rfl, hs.dict, hs.dictLength,
      hs.bundle,
      hs.block, hs.sent⟩, hcount, rfl, rfl⟩

/-- The parser when a reference is complete. -/
def afterReference (state : Parser) : Parser :=
  match bundle6ReadEid state.dict state.dictLength.toNat state.curEidref with
  | none => { state with status := .error }
  | some eid =>
      let state : Parser := { state with
        block := { state.block with eidRefs := eid :: state.block.eidRefs }
        currentIndex := state.currentIndex + 1 }
      if state.currentIndex = state.currentSize then { state with nextStage := .blockDataLength }
      else state

theorem readsField_reference (hcurrent : s.currentStage = .blockEidRefSsp) :
    ReadsField Field.eidRefSsp .blockEidRefSch afterReference s := by
  intro sdnvState value remaining byte
  have hwithin : (within Field.eidRefSsp s sdnvState value remaining).currentStage =
      .blockEidRefSsp := hcurrent
  rw [stageByte, hwithin]
  rfl

/-- The scheme of a reference. -/
theorem feeds_scheme (hs : InBlock dictionary bundle block .blockEidRefSch s) (offset : UInt16) :
    ∃ s', Feeds q s (sdnvWriteU16 offset) s' ∧
      InBlock dictionary bundle block .blockEidRefSsp s' ∧
      s'.curEidref = { s.curEidref with schemeOffset := offset } ∧
      s'.currentSize = s.currentSize ∧ s'.currentIndex = s.currentIndex ∧
      s'.lastBlock = s.lastBlock := by
  have hfeeds := hs.feeds (q := q) Field.eidRefScheme_lawful
    (readsField_of_stage (t := .blockEidRefSsp) Field.eidRefScheme_lawful hs.currentStage
      (fun s byte h => by rw [stageByte, h])) (reads_write16 offset _)
  refine ⟨_, hfeeds, ?_⟩
  rw [id, changeStage_to (t := .blockEidRefSsp) (by exact hs.status) (by exact hs.currentStage) rfl
    (by decide) rfl]
  exact ⟨⟨hs.status, hs.bulkRead, rfl, rfl, hs.currentBlock, rfl, hs.dict, hs.dictLength, hs.bundle,
    hs.block, hs.sent⟩, rfl, rfl, rfl, rfl⟩

/-- **A reference** stands before those that were read. -/
theorem feeds_reference (hs : InBlock dictionary bundle block .blockEidRefSch s) {info : EidInfo}
    {eid : CStr}
    (hread : bundle6ReadEid (dictionary ++ [0]) dictionary.length (toReference info) = some eid) :
    ∃ s', Feeds q s (writeEidInfo info) s' ∧
      InBlock dictionary bundle { block with eidRefs := eid :: block.eidRefs }
        (if s.currentIndex + 1 = s.currentSize then .blockDataLength else .blockEidRefSch) s' ∧
      s'.currentSize = s.currentSize ∧ s'.currentIndex = s.currentIndex + 1 ∧
      s'.lastBlock = s.lastBlock := by
  obtain ⟨s₁, hscheme, hs₁, href, hsize, hindex, hlast⟩ :=
    feeds_scheme (q := q) hs info.dictSchemeOffset
  have hfeeds := hs₁.feeds (q := q) Field.eidRefSsp_lawful
    (readsField_reference hs₁.currentStage) (reads_write16 info.dictSspOffset _)
  refine ⟨_, hscheme.append hfeeds, ?_⟩
  have hset : Field.eidRefSsp.set s₁ info.dictSspOffset =
      { s₁ with curEidref := toReference info } := by
    dsimp only [Field.eidRefSsp]
    rw [href]
    rfl
  have hfound : bundle6ReadEid s₁.dict s₁.dictLength.toNat (toReference info) = some eid := by
    rw [hs₁.dict, hs₁.dictLength]
    exact hread
  unfold afterReference
  rw [within, hset]
  dsimp only
  rw [hfound]
  dsimp only
  rw [hs₁.block, hindex, hsize]
  split
  · rw [changeStage_to (t := .blockDataLength) (by exact hs₁.status) (by exact hs₁.currentStage) rfl
      (by decide) rfl]
    exact ⟨⟨hs₁.status, hs₁.bulkRead, rfl, rfl, hs₁.currentBlock, rfl, hs₁.dict, hs₁.dictLength,
      hs₁.bundle, rfl, hs₁.sent⟩, rfl, rfl, hlast⟩
  · rw [changeStage_to (t := .blockEidRefSch) (by exact hs₁.status) (by exact hs₁.currentStage) rfl
      (by decide) rfl]
    exact ⟨⟨hs₁.status, hs₁.bulkRead, rfl, rfl, hs₁.currentBlock, rfl, hs₁.dict, hs₁.dictLength,
      hs₁.bundle, rfl, hs₁.sent⟩, rfl, rfl, hlast⟩

/-- **The references** of a block come back in the reverse order. -/
theorem feeds_references {infos : List EidInfo} {eids : List CStr}
    (hread : infos.map (fun info =>
      bundle6ReadEid (dictionary ++ [0]) dictionary.length (toReference info)) = eids.map some)
    (hne : infos ≠ []) (hs : InBlock dictionary bundle block .blockEidRefSch s)
    (hcount : s.currentIndex.toNat + infos.length = s.currentSize.toNat) :
    ∃ s', Feeds q s (infos.flatMap writeEidInfo) s' ∧
      InBlock dictionary bundle { block with eidRefs := eids.reverse ++ block.eidRefs }
        .blockDataLength s' ∧
      s'.currentSize = s.currentSize ∧ s'.lastBlock = s.lastBlock := by
  induction infos generalizing eids block s with
  | nil => exact absurd rfl hne
  | cons info infos ih =>
      obtain _ | ⟨eid, eids⟩ := eids
      · cases hread
      · rw [List.map_cons, List.map_cons, List.cons.injEq] at hread
        obtain ⟨s₁, hfirst, hs₁, hsize, hindex, hlast⟩ :=
          feeds_reference (q := q) hs hread.1
        rw [List.length_cons] at hcount
        have hlt := s.currentSize.toNat_lt
        have hnext : (s.currentIndex + 1).toNat = s.currentIndex.toNat + 1 := by
          rw [UInt32.toNat_add, UInt32.toNat_one, Nat.mod_eq_of_lt (by omega)]
        rw [List.flatMap_cons, List.reverse_cons, List.append_assoc]
        cases infos with
        | nil =>
            have heids : eids = [] := List.map_eq_nil_iff.mp hread.2.symm
            have hend : s.currentIndex + 1 = s.currentSize := by
              rw [← UInt32.toNat_inj, hnext, ← hcount]
              rfl
            rw [if_pos hend] at hs₁
            rw [List.flatMap_nil, List.append_nil, heids]
            exact ⟨s₁, hfirst, hs₁, hsize, hlast⟩
        | cons next infos =>
            rw [List.length_cons] at hcount
            have hmore : s.currentIndex + 1 ≠ s.currentSize := by
              rw [ne_eq, ← UInt32.toNat_inj, hnext, ← hcount]
              omega
            rw [if_neg hmore] at hs₁
            obtain ⟨s₂, hrest, hs₂, hsize₂, hlast₂⟩ := ih hread.2 (List.cons_ne_nil _ _) hs₁ (by
              rw [hindex, hnext, hsize, List.length_cons]
              omega)
            exact ⟨s₂, hfirst.append hrest, hs₂, hsize₂.trans hsize, hlast₂.trans hlast⟩

/-! ## Data -/

/-- The parser waits for the data of a block. -/
structure AtData (dictionary : List UInt8) (bundle : Draft) (block : DraftBlock) (last : Bool)
    (s : Parser) : Prop where
  status : s.status = .good
  bulkRead : s.bulkRead = true
  currentStage : s.currentStage = .blockData
  currentBlock : s.currentBlock ≠ .primary
  nextBytes : s.nextBytes = block.length.toNat
  curBytesRemaining : s.curBytesRemaining = 0
  dict : s.dict = dictionary ++ [0]
  dictLength : s.dictLength.toNat = dictionary.length
  bundle : s.bundle = bundle
  block : s.block = block
  lastBlock : s.lastBlock = last
  sent : s.sent = none

theorem next_blockData (h : s.nextStage = .blockData)
    (hquota : s.currentSize + s.block.length ≤ q.bundleQuota) :
    bundle6ParserNext q s = { s with
      currentIndex := 0
      curBytesRemaining := 0
      nextBytes := s.block.length.toNat
      currentSize := s.currentSize + s.block.length
      bulkRead := true
      currentStage := .blockData } := by
  simp [bundle6ParserNext, enterStage, h, UInt32.not_lt.mpr hquota]

/-- **The length of the data** counts for the quota. -/
theorem feeds_length (hs : InBlock dictionary bundle block .blockDataLength s) (length : UInt32)
    (hquota : s.currentSize.toNat + length.toNat ≤ q.bundleQuota.toNat) :
    ∃ s', Feeds q s (sdnvWriteU32 length) s' ∧
      AtData dictionary bundle { block with length := length } s.lastBlock s' ∧
      s'.currentSize.toNat = s.currentSize.toNat + length.toNat := by
  have hfeeds := hs.feeds (q := q) Field.blockLength_lawful
    (readsField_of_stage (t := .blockData) Field.blockLength_lawful hs.currentStage
      (fun s byte h => by rw [stageByte, h])) (reads_write32 length _)
  have hsum : (s.currentSize + length).toNat = s.currentSize.toNat + length.toNat := by
    have hlt := q.bundleQuota.toNat_lt
    rw [UInt32.toNat_add, Nat.mod_eq_of_lt (by omega)]
  have hset : Field.blockLength.set s length =
      { s with block := { block with length := length } } := by
    dsimp only [Field.blockLength]
    rw [hs.block]
  refine ⟨_, hfeeds, ?_⟩
  rw [within, hset, id, changeStage_of_ne (by exact hs.status) (by
    change s.currentStage ≠ .blockData
    rw [hs.currentStage]
    decide), next_blockData rfl (by
    change s.currentSize + length ≤ q.bundleQuota
    rw [UInt32.le_iff_toNat_le, hsum]
    exact hquota)]
  exact ⟨⟨hs.status, rfl, rfl, hs.currentBlock, rfl, rfl, hs.dict, hs.dictLength, hs.bundle,
    rfl, rfl,
    hs.sent⟩, hsum⟩

/-- A bundle with one block more. -/
def addBlock (bundle : Draft) (block : DraftBlock) : Draft :=
  { bundle with blocks := bundle.blocks ++ [block] }

theorem bulkReadDone_eq {last : Bool} (hs : AtData dictionary bundle block last s)
    (data : List UInt8) :
    bulkReadDone q s data = bundle6ParserNext q { s with
      bulkRead := false
      block := { block with data := data }
      bundle := addBlock bundle { block with data := data }
      nextStage := if last then .done else .blockType } := by
  have hstage : stageByte { s with
      block := { s.block with data := data }
      bulkRead := false } 0 = { s with
      bulkRead := false
      block := { block with data := data }
      bundle := addBlock bundle { block with data := data }
      nextStage := if last then .done else .blockType } := by
    rw [stageByte, hs.currentStage]
    dsimp only
    rw [hs.curBytesRemaining]
    simp only [ne_eq, not_true, if_false, bundle6ParserEndBlock, hs.lastBlock, hs.bundle, hs.block]
    cases last <;> rfl
  rw [bulkReadDone, bundle6ParserReadByte, if_neg (fun h => hs.currentBlock h.1), countPrimaryByte,
    if_neg hs.currentBlock, hstage, changeStage_of_ne (by exact hs.status)]
  change s.currentStage ≠ if last then .done else .blockType
  rw [hs.currentStage]
  cases last <;> decide

/-- **The data of a block** before another one. -/
theorem atBlock_of_data (hs : AtData dictionary bundle block false s) (data : List UInt8) :
    AtBlock dictionary (addBlock bundle { block with data := data }) (bulkReadDone q s data) ∧
      (bulkReadDone q s data).currentSize = s.currentSize := by
  rw [bulkReadDone_eq hs, next_blockType rfl]
  exact ⟨⟨hs.status, rfl, rfl, rfl, rfl, hs.dict, hs.dictLength, rfl, hs.sent⟩, rfl⟩

/-- **The data of the last block** ends the bundle. -/
theorem sent_of_data (hs : AtData dictionary bundle block true s) (data : List UInt8)
    (hpayload : bundle.payloadBlock.isSome = true) :
    (bulkReadDone q s data).status = .done ∧
      (bulkReadDone q s data).sent = some (addBlock bundle { block with data := data }) := by
  have hsome : (addBlock bundle { block with data := data }).payloadBlock.isSome = true := hpayload
  rw [bulkReadDone_eq hs, bundle6ParserNext]
  simp [enterStage, bundle6ParserSendBundle, hsome]

/-! ## A block -/

/-- What a block is written as, but for its data. -/
def blockHead (references : List EidInfo) (x : Block) : List UInt8 :=
  [x.type.toUInt8] ++ sdnvWriteU32 x.flags ++
    (if hasRefField x then
      sdnvWriteU16 (UInt16.ofNat x.eidRefs.length) ++
        (references.take x.eidRefs.length).flatMap writeEidInfo
    else []) ++
    sdnvWriteU32 x.data.length

theorem serializeBlock_eq (references : List EidInfo) (x : Block) :
    serializeBlock references x = blockHead references x ++ x.data.bytes := by
  simp [serializeBlock, blockHead]

theorem length_blockHead_pos (references : List EidInfo) (x : Block) :
    0 < (blockHead references x).length := by
  simp only [blockHead, List.length_append, List.length_singleton]
  omega

/-- The references that come back of a block, for the EIDs that all blocks refer to. -/
def readRefs (eids : List CStr) (x : Block) : List CStr :=
  if hasRefField x then (eids.take x.eidRefs.length).reverse else []

/-- What comes back of a block. -/
def readBlock (eids : List CStr) (x : Block) : DraftBlock :=
  { bundleBlockCreate x.type.toUInt8.toUInt32 with
    flags := x.flags
    length := x.data.length
    data := x.data.bytes
    eidRefs := readRefs eids x }

/-- The offsets of some EIDs lead to these EIDs. -/
def Resolves (dictionary : List UInt8) (references : List EidInfo) (eids : List CStr) : Prop :=
  references.map (fun info =>
    bundle6ReadEid (dictionary ++ [0]) dictionary.length (toReference info)) = eids.map some

theorem Resolves.take {references : List EidInfo} {eids : List CStr}
    (h : Resolves dictionary references eids) (k : Nat) :
    Resolves dictionary (references.take k) (eids.take k) := by
  unfold Resolves at h ⊢
  rw [List.map_take, h, List.map_take]

theorem Resolves.length_eq {references : List EidInfo} {eids : List CStr}
    (h : Resolves dictionary references eids) : references.length = eids.length := by
  have hlength := congrArg List.length h
  rwa [List.length_map, List.length_map] at hlength

/-- The field of a block for references. -/
theorem feeds_refField {x : Block} {references : List EidInfo} {eids : List CStr} {bound : Nat}
    (hs : InBlock dictionary bundle block
      (if hasRefField x then .blockEidRefCnt else .blockDataLength) s)
    (hblock : block.eidRefs = []) (hread : Resolves dictionary references eids)
    (hk : x.eidRefs.length ≤ references.length) (hshort : references.length < 2 ^ 16)
    (hbound : references.length ≤ bound) (hsize : s.currentSize.toNat ≤ bound) :
    ∃ s', Feeds q s
        (if hasRefField x then
          sdnvWriteU16 (UInt16.ofNat x.eidRefs.length) ++
            (references.take x.eidRefs.length).flatMap writeEidInfo
        else []) s' ∧
      InBlock dictionary bundle { block with eidRefs := readRefs eids x } .blockDataLength s' ∧
      s'.lastBlock = s.lastBlock ∧ s'.currentSize.toNat ≤ bound := by
  unfold readRefs
  split_ifs at hs ⊢ with hflag
  · obtain ⟨s₁, hcount, hs₁, hsize₁, hindex₁, hlast₁⟩ :=
      feeds_count (q := q) hs (Nat.lt_of_le_of_lt hk hshort)
    by_cases hzero : x.eidRefs.length = 0
    · rw [if_pos hzero] at hs₁
      rw [hzero] at hcount hsize₁ ⊢
      rw [List.take_zero, List.take_zero, List.flatMap_nil, List.append_nil, List.reverse_nil,
        ← hblock]
      exact ⟨s₁, hcount, hs₁, hlast₁, by omega⟩
    · rw [if_neg hzero] at hs₁
      have hlength : (references.take x.eidRefs.length).length = x.eidRefs.length := by
        rw [List.length_take, Nat.min_eq_left hk]
      have hne : references.take x.eidRefs.length ≠ [] :=
        List.ne_nil_of_length_pos (by omega)
      obtain ⟨s₂, hrefs, hs₂, hsize₂, hlast₂⟩ :=
        feeds_references (q := q) (hread.take x.eidRefs.length) hne hs₁ (by
          rw [hindex₁, hlength, hsize₁, UInt32.toNat_zero, Nat.zero_add])
      rw [hblock, List.append_nil] at hs₂
      exact ⟨s₂, hcount.append hrefs, hs₂, hlast₂.trans hlast₁, by rw [hsize₂]; omega⟩
  · rw [← hblock]
    exact ⟨s, .nil, hs, rfl, hsize⟩

/-- **A block** up to its data. -/
theorem feeds_blockHead {x : Block} {references : List EidInfo} {eids : List CStr} {bound : Nat}
    (hs : AtBlock dictionary bundle s) (hflags : x.flags.toNat < 256)
    (hread : Resolves dictionary references eids) (hk : x.eidRefs.length ≤ references.length)
    (hshort : references.length < 2 ^ 16) (hbound : references.length ≤ bound)
    (hsize : s.currentSize.toNat ≤ bound)
    (hquota : bound + x.data.bytes.length ≤ q.bundleQuota.toNat) :
    ∃ s', Feeds q s (blockHead references x) s' ∧
      AtData dictionary (beginBlock bundle x.type.toUInt8) { readBlock eids x with data := [] }
        (hasFlag x.flags blockFlagLastBlock) s' ∧
      s'.currentSize.toNat ≤ bound + x.data.bytes.length := by
  obtain ⟨s₁, h₁, hs₁, hsize₁⟩ := feeds_type (q := q) hs x.type.toUInt8
  obtain ⟨s₂, h₂, hs₂, hlast₂, hsize₂⟩ := feeds_flags (q := q) hs₁ hflags
  obtain ⟨s₃, h₃, hs₃, hlast₃, hsize₃⟩ :=
    feeds_refField (q := q) (x := x) hs₂ rfl hread hk hshort hbound (by
      rw [hsize₂, hsize₁]
      exact hsize)
  obtain ⟨s₄, h₄, hs₄, hsize₄⟩ :=
    feeds_length (q := q) hs₃ x.data.length (by
      rw [Buffer.toNat_length]
      omega)
  rw [Buffer.toNat_length] at hsize₄
  rw [hlast₃, hlast₂] at hs₄
  exact ⟨s₄, ((h₁.append h₂).append h₃).append h₄, hs₄, by omega⟩

/-! ## The blocks of a bundle -/

/-- A bundle when a block was read. -/
def takeBlock (eids : List CStr) (bundle : Draft) (x : Block) : Draft :=
  addBlock (beginBlock bundle x.type.toUInt8) (readBlock eids x)

/-- What a caller gets of the loop. -/
def finish (q : Limits) (read : Parser × List UInt8) : Parser :=
  if read.1.status = .good ∧ read.1.bulkRead ∧ read.1.nextBytes ≤ read.2.length then
    bulkReadDone q read.1 (read.2.take read.1.nextBytes)
  else read.1

theorem parseBundle_eq (state : Parser) (buffer : List UInt8) :
    parseBundle q state buffer =
      finish q (bundle6ParserReadLoop q (2 * buffer.length + 1) state buffer) := rfl

/-- The data of a block are copied when they are there, and something more is. -/
theorem loop_data {last : Bool} (hs : AtData dictionary bundle block last s)
    {data rest : List UInt8}
    (hlength : block.length.toNat = data.length) (hne : data ++ rest ≠ []) (passes : Nat) :
    bundle6ParserReadLoop q (passes + 1) s (data ++ rest) =
      bundle6ParserReadLoop q passes (bulkReadDone q s data) rest := by
  have hnext : s.nextBytes = data.length := hs.nextBytes.trans hlength
  obtain ⟨byte, l, hl⟩ := List.exists_cons_of_ne_nil hne
  have htake : (byte :: l).take data.length = data := by
    rw [← hl, List.take_left']
    rfl
  have hdrop : (byte :: l).drop data.length = rest := by
    rw [← hl, List.drop_left']
    rfl
  have hshort : ¬ (byte :: l).length < s.nextBytes := by
    rw [hnext, ← hl, List.length_append]
    omega
  rw [hl, bundle6ParserReadLoop, if_neg (by rw [hs.status]; exact not_not_intro rfl),
    if_pos hs.bulkRead, if_neg hshort, hnext, htake, hdrop]

/-- The last block. -/
theorem parse_lastBlock {x : Block} {references : List EidInfo} {eids : List CStr} {bound : Nat}
    (hs : AtBlock dictionary bundle s) (hflags : x.flags.toNat < 256)
    (hlast : hasFlag x.flags blockFlagLastBlock = true)
    (hread : Resolves dictionary references eids) (hk : x.eidRefs.length ≤ references.length)
    (hshort : references.length < 2 ^ 16) (hbound : references.length ≤ bound)
    (hsize : s.currentSize.toNat ≤ bound)
    (hquota : bound + x.data.bytes.length ≤ q.bundleQuota.toNat)
    (hpayload : (takeBlock eids bundle x).payloadBlock.isSome = true) {passes : Nat}
    (hpasses : 2 * (serializeBlock references x).length ≤ passes) :
    (finish q (bundle6ParserReadLoop q passes s (serializeBlock references x))).status =
        .done ∧
      (finish q (bundle6ParserReadLoop q passes s (serializeBlock references x))).sent =
        some (takeBlock eids bundle x) := by
  obtain ⟨s₁, hhead, hs₁, -⟩ :=
    feeds_blockHead (q := q) hs hflags hread hk hshort hbound hsize hquota
  rw [hlast] at hs₁
  have hend := sent_of_data (q := q) hs₁ x.data.bytes hpayload
  have hdata : (x.data.length).toNat = x.data.bytes.length := x.data.toNat_length
  have hlength := length_blockHead_pos references x
  rw [serializeBlock_eq, List.length_append] at hpasses
  obtain ⟨more, rfl⟩ : ∃ more, passes = (blockHead references x).length + (more + 1) :=
    ⟨passes - (blockHead references x).length - 1, by omega⟩
  rw [serializeBlock_eq, hhead.loop]
  by_cases hempty : x.data.bytes = []
  · have hloop : bundle6ParserReadLoop q (more + 1) s₁ x.data.bytes = (s₁, []) := by
      rw [hempty]
      rfl
    have hnext : s₁.nextBytes = 0 := by
      rw [hs₁.nextBytes]
      change x.data.length.toNat = 0
      rw [hdata, hempty]
      rfl
    rw [hempty] at hend
    rw [hloop, finish, if_pos ⟨hs₁.status, hs₁.bulkRead, by rw [hnext]; exact Nat.zero_le _⟩,
      List.take_nil, hend.1, hend.2]
    refine ⟨rfl, ?_⟩
    rw [← hempty]
    rfl
  · have hloop := loop_data (q := q) hs₁ hdata
      (show x.data.bytes ++ [] ≠ [] by simpa using hempty) more
    have hstop : bundle6ParserReadLoop q more (bulkReadDone q s₁ x.data.bytes) [] =
        (bulkReadDone q s₁ x.data.bytes, []) := by
      cases more <;> rfl
    rw [List.append_nil] at hloop
    rw [hloop, hstop, finish, if_neg, hend.1, hend.2]
    · exact ⟨rfl, rfl⟩
    · rintro ⟨hgood, -⟩
      rw [hend.1] at hgood
      cases hgood

/-- **The blocks of a bundle** are taken one after another. -/
theorem parse_blocks {first : List Block} {x : Block} {references : List EidInfo} {eids : List CStr}
    {bound : Nat} (hs : AtBlock dictionary bundle s)
    (hflags : ∀ y ∈ first ++ [x], y.flags.toNat < 256)
    (hlast : hasFlag x.flags blockFlagLastBlock = true)
    (hfirst : ∀ y ∈ first, hasFlag y.flags blockFlagLastBlock = false)
    (hread : Resolves dictionary references eids)
    (hk : ∀ y ∈ first ++ [x], y.eidRefs.length ≤ references.length)
    (hshort : references.length < 2 ^ 16) (hbound : references.length ≤ bound)
    (hsize : s.currentSize.toNat ≤ bound)
    (hquota : bound + ((first ++ [x]).map fun y => y.data.bytes.length).sum ≤
      q.bundleQuota.toNat)
    (hpayload : ((first ++ [x]).foldl (takeBlock eids) bundle).payloadBlock.isSome = true)
    {passes : Nat}
    (hpasses : 2 * ((first ++ [x]).flatMap (serializeBlock references)).length ≤ passes) :
    ∃ final, finish q (bundle6ParserReadLoop q passes s
        ((first ++ [x]).flatMap (serializeBlock references))) = final ∧
      final.status = .done ∧
      final.sent = some ((first ++ [x]).foldl (takeBlock eids) bundle) := by
  induction first generalizing bundle bound s passes with
  | nil =>
      rw [List.nil_append] at hflags hk hquota hpayload hpasses ⊢
      rw [List.flatMap_singleton] at hpasses ⊢
      exact ⟨_, rfl, parse_lastBlock hs (hflags x (List.mem_singleton_self x)) hlast hread
        (hk x (List.mem_singleton_self x)) hshort hbound hsize
        (by simpa using hquota) hpayload hpasses⟩
  | cons y first ih =>
      rw [List.cons_append] at hflags hk hquota hpayload hpasses ⊢
      rw [List.map_cons, List.sum_cons] at hquota
      rw [List.flatMap_cons, List.length_append] at hpasses
      rw [List.flatMap_cons, List.foldl_cons]
      rw [List.foldl_cons] at hpayload
      obtain ⟨s₁, hhead, hs₁, hsize₁⟩ :=
        feeds_blockHead (q := q) hs (hflags y List.mem_cons_self) hread
          (hk y List.mem_cons_self) hshort hbound hsize (by omega)
      rw [hfirst y List.mem_cons_self] at hs₁
      obtain ⟨hs₂, hsize₂⟩ := atBlock_of_data (q := q) hs₁ y.data.bytes
      have hlength := length_blockHead_pos references y
      rw [serializeBlock_eq, List.length_append] at hpasses
      obtain ⟨more, rfl⟩ : ∃ more, passes = (blockHead references y).length + (more + 1) :=
        ⟨passes - (blockHead references y).length - 1, by omega⟩
      have hne : (first ++ [x]).flatMap (serializeBlock references) ≠ [] := by
        rw [List.flatMap_append, List.flatMap_singleton, serializeBlock_eq]
        intro hnil
        have hx := length_blockHead_pos references x
        simp only [List.append_eq_nil_iff] at hnil
        rw [hnil.2.1] at hx
        cases hx
      rw [serializeBlock_eq, List.append_assoc, hhead.loop,
        loop_data (q := q) hs₁ y.data.toNat_length
          (fun h => hne (List.append_eq_nil_iff.mp h).2)]
      exact ih hs₂ (fun z hz => hflags z (List.mem_cons_of_mem _ hz))
        (fun z hz => hfirst z (List.mem_cons_of_mem _ hz))
        (fun z hz => hk z (List.mem_cons_of_mem _ hz))
        (Nat.le_trans hbound (Nat.le_add_right _ y.data.bytes.length))
          (by rw [hsize₂]; exact hsize₁)
        (by omega) hpayload (by omega)

/-- The blocks of the bundle that is read. -/
theorem blocks_takeBlocks (eids : List CStr) (bundle : Draft) (blocks : List Block) :
    (blocks.foldl (takeBlock eids) bundle).blocks =
      bundle.blocks ++ blocks.map (readBlock eids) := by
  induction blocks generalizing bundle with
  | nil => rw [List.foldl_nil, List.map_nil, List.append_nil]
  | cons x blocks ih =>
      have hblocks : (takeBlock eids bundle x).blocks = bundle.blocks ++ [readBlock eids x] := by
        unfold takeBlock addBlock beginBlock
        split <;> rfl
      rw [List.foldl_cons, ih, hblocks, List.map_cons, List.append_assoc, List.singleton_append]

/-- The blocks leave the primary block as it is. -/
theorem takeBlocks_eq (eids : List CStr) (bundle : Draft) (blocks : List Block) :
    ∃ read payload, blocks.foldl (takeBlock eids) bundle =
      { bundle with blocks := read, payloadBlock := payload } := by
  induction blocks generalizing bundle with
  | nil => exact ⟨bundle.blocks, bundle.payloadBlock, rfl⟩
  | cons x blocks ih =>
      have hone : ∃ read payload, takeBlock eids bundle x =
          { bundle with blocks := read, payloadBlock := payload } := by
        unfold takeBlock addBlock beginBlock
        split
        · exact ⟨_, _, rfl⟩
        · exact ⟨_, bundle.payloadBlock, rfl⟩
      obtain ⟨_, _, hone⟩ := hone
      obtain ⟨read, payload, hrest⟩ := ih (takeBlock eids bundle x)
      refine ⟨read, payload, ?_⟩
      rw [List.foldl_cons, hrest, hone]

/-- A payload block is found. -/
theorem payload_takeBlocks (eids : List CStr) (bundle : Draft) {blocks : List Block}
    (h : ∃ x ∈ blocks, x.type.toUInt8.toUInt32 = blockTypePayload) :
    (blocks.foldl (takeBlock eids) bundle).payloadBlock.isSome = true := by
  have hkeep (bundle : Draft) (blocks : List Block) (hsome : bundle.payloadBlock.isSome = true) :
      (blocks.foldl (takeBlock eids) bundle).payloadBlock.isSome = true := by
    induction blocks generalizing bundle with
    | nil => exact hsome
    | cons x blocks ih =>
        apply ih
        unfold takeBlock addBlock beginBlock
        split
        · rfl
        · exact hsome
  obtain ⟨x, hx, htype⟩ := h
  obtain ⟨first, rest, rfl⟩ := List.append_of_mem hx
  rw [List.foldl_append, List.foldl_cons]
  apply hkeep
  rw [takeBlock, addBlock, beginBlock, if_pos htype]
  rfl

end Bundle6
