import DisruptaBLE.Bundle6.Sdnv
import DisruptaBLE.Bundle7.Eid
import DisruptaBLE.Cla.RxTask

/-!
# The parser of version 6

`components/bundle6/parser.c`: a state machine that takes a bundle byte by byte.  The data of a
block is not parsed but copied at once, when it is all in the buffer, and otherwise left to the
caller, who says with `NULL` that it is there.

The bundle that is read is kept as a `Draft`.  The block at `current_block_entry` stands outside
of the list until it is complete.  Requests for memory are served, and the machine is a
little-endian one.
-/

namespace Bundle6

open BundleProcessor
open Bundle7 (cString)
open ClaRx (ParserStatus)

/-- `enum bundle6_parser_stage`. -/
inductive Stage where
  | version
  | procFlags
  | blockLength
  | destinationEidScheme
  | destinationEidSsp
  | sourceEidScheme
  | sourceEidSsp
  | reportEidScheme
  | reportEidSsp
  | custodianEidScheme
  | custodianEidSsp
  | timestamp
  | sequenceNum
  | lifetime
  | dictLength
  | dictionary
  | fragmentOffset
  | aduLength
  | blockType
  | blockFlags
  | blockEidRefCnt
  | blockEidRefSch
  | blockEidRefSsp
  | blockDataLength
  | blockData
  | done
  deriving DecidableEq, Repr

/-- `enum bundle6_parser_block`. -/
inductive ParserBlock where
  | primary
  | generic
  | payload
  | extension
  deriving DecidableEq, Repr

/-- `enum bundle6_parser_error`. -/
inductive ParserError where
  | none
  | blockLengthExhausted
  | sdnvFailure
  deriving DecidableEq, Repr

/-- `struct bundle6_eid_reference`. -/
structure EidReference where
  schemeOffset : UInt16
  sspOffset : UInt16
  deriving DecidableEq, Repr

/-- `struct bundle_block`, whose data may still be missing. -/
structure DraftBlock where
  type : UInt32
  number : UInt8
  flags : UInt32
  length : UInt32
  data : List UInt8
  eidRefs : List CStr
  crcType : CrcType
  deriving DecidableEq, Repr

/-- `bundle_block_create`. -/
def bundleBlockCreate (type : UInt32) : DraftBlock where
  type := type
  number := if type = blockTypePayload then 1 else 0
  flags := 0
  length := 0
  data := []
  eidRefs := []
  crcType := .none

/-- The bundle of a parser. -/
structure Draft where
  protocolVersion : UInt8
  procFlags : UInt32
  destination : CStr
  source : CStr
  reportTo : CStr
  currentCustodian : CStr
  creationTimestampMs : UInt64
  sequenceNumber : UInt64
  lifetimeMs : UInt64
  fragmentOffset : UInt32
  totalAduLength : UInt32
  primaryBlockLength : UInt16
  /-- the blocks before the one at `current_block_entry` -/
  blocks : List DraftBlock
  /-- where `payload_block` stands among the blocks -/
  payloadBlock : Option Nat
  deriving DecidableEq, Repr

/-- `bundle_init`. -/
def bundleInit : Draft where
  protocolVersion := 6
  procFlags := 0
  destination := []
  source := []
  reportTo := []
  currentCustodian := []
  creationTimestampMs := 0
  sequenceNumber := 0
  lifetimeMs := 0
  fragmentOffset := 0
  totalAduLength := 0
  primaryBlockLength := 0
  blocks := []
  payloadBlock := none

/-- `struct bundle6_parser` with its `struct parser`. -/
structure Parser where
  status : ParserStatus
  /-- `PARSER_FLAG_BULK_READ` -/
  bulkRead : Bool
  nextBytes : Nat
  error : ParserError
  currentStage : Stage
  nextStage : Stage
  currentBlock : ParserBlock
  sdnvState : SdnvState
  bundle : Draft
  /-- the block at `current_block_entry` -/
  block : DraftBlock
  primaryBytesRemaining : UInt16
  curBytesRemaining : UInt32
  currentIndex : UInt32
  currentSize : UInt32
  destinationEidref : EidReference
  sourceEidref : EidReference
  reportToEidref : EidReference
  custodianEidref : EidReference
  curEidref : EidReference
  dictLength : UInt16
  /-- the bytes of `dict` that are written -/
  dict : List UInt8
  lastBlock : Bool
  /-- the bundle that was given to the callback -/
  sent : Option Draft
  deriving DecidableEq, Repr

/-- The memory of a parser that was never reset. -/
def unusedParser : Parser :=
  { status := .good
    bulkRead := false
    nextBytes := 0
    error := .none
    currentStage := .version
    nextStage := .version
    currentBlock := .primary
    sdnvState := sdnvReset
    bundle := bundleInit
    block := bundleBlockCreate 0
    primaryBytesRemaining := 0
    curBytesRemaining := 0
    currentIndex := 0
    currentSize := 0
    destinationEidref := ⟨0, 0⟩
    sourceEidref := ⟨0, 0⟩
    reportToEidref := ⟨0, 0⟩
    custodianEidref := ⟨0, 0⟩
    curEidref := ⟨0, 0⟩
    dictLength := 0
    dict := []
    lastBlock := false
    sent := none }

/-- `BUNDLE_QUOTA`, and `sizeof(struct bundle)`. -/
structure Limits where
  bundleQuota : UInt32
  sizeofBundle : UInt32

variable (limits : Limits)

/-- `bundle6_parser_reset` of a parser that has read something, for the storage that is in use. -/
def bundle6ParserReset (usage : UInt32) (state : Parser) : Parser :=
  { state with
    status := .good
    bulkRead := false
    error := .none
    currentStage := .version
    nextStage := .version
    currentBlock := .primary
    sdnvState := sdnvReset
    primaryBytesRemaining := 0
    curBytesRemaining := 0
    currentIndex := 0
    currentSize := usage + limits.sizeofBundle
    lastBlock := false
    bundle := bundleInit
    block := bundleBlockCreate 0
    dict := []
    sent := none }

/-- `bundle6_parser_length_known`. -/
def lengthKnown (state : Parser) : Bool :=
  match state.currentStage with
  | .version | .procFlags | .blockLength => false
  | _ => true

/-- `bundle6_parser_begin_block`. -/
def bundle6ParserBeginBlock (state : Parser) (type : UInt8) : Parser :=
  let block := bundleBlockCreate type.toUInt32
  if type.toUInt32 = blockTypePayload then
    { state with
      bundle := { state.bundle with payloadBlock := some state.bundle.blocks.length }
      currentBlock := .payload
      block }
  else { state with currentBlock := .extension, block }

/-- `bundle6_parser_end_block`. -/
def bundle6ParserEndBlock (state : Parser) : Parser :=
  { state with bundle := { state.bundle with blocks := state.bundle.blocks ++ [state.block] } }

/-- `bundle6_read_eid`, for a dictionary with its terminator. -/
def bundle6ReadEid (dict : List UInt8) (dictLen : Nat) (ref : EidReference) : Option CStr :=
  if dictLen ≤ ref.schemeOffset.toNat ∨ dictLen ≤ ref.sspOffset.toNat then none
  else
    let scheme := cString (dict.drop ref.schemeOffset.toNat)
    let ssp := cString (dict.drop ref.sspOffset.toNat)
    if dictLen < ref.schemeOffset.toNat + scheme.length then none
    else if ':' ∈ scheme then none
    else if dictLen < ref.sspOffset.toNat + ssp.length then none
    else some (scheme ++ ':' :: ssp)

/-- `bundle6_parser_send_bundle`. -/
def bundle6ParserSendBundle (state : Parser) : Parser :=
  if state.bundle.payloadBlock.isSome then { state with sent := some state.bundle } else state

/-- The effect of `bundle6_parser_next` before the stage changes. -/
def enterStage (state : Parser) : Parser :=
  match state.nextStage with
  | .procFlags | .blockLength => { state with sdnvState := sdnvReset }
  | .destinationEidScheme =>
      { state with
        primaryBytesRemaining := state.bundle.primaryBlockLength
        sdnvState := sdnvReset }
  | .destinationEidSsp | .sourceEidScheme | .sourceEidSsp | .reportEidScheme | .reportEidSsp
  | .custodianEidScheme | .custodianEidSsp | .timestamp => { state with sdnvState := sdnvReset }
  | .sequenceNum =>
      { state with
        bundle :=
          { state.bundle with creationTimestampMs := state.bundle.creationTimestampMs * 1000 }
        sdnvState := sdnvReset }
  | .lifetime => { state with sdnvState := sdnvReset }
  | .dictLength =>
      { state with
        bundle := { state.bundle with lifetimeMs := state.bundle.lifetimeMs * 1000 }
        sdnvState := sdnvReset }
  | .dictionary =>
      let state : Parser := { state with currentIndex := 0 }
      if state.dictLength = 0 then { state with status := .error }
      else
        let state : Parser := { state with
          curBytesRemaining := state.dictLength.toUInt32
          currentSize := state.currentSize + (state.dictLength.toUInt32 + 1) }
        if limits.bundleQuota < state.currentSize then { state with status := .error }
        else { state with dict := [] }
  | .fragmentOffset | .aduLength => { state with sdnvState := sdnvReset }
  | .blockType => { state with currentBlock := .generic }
  | .blockFlags | .blockEidRefCnt | .blockEidRefSch | .blockEidRefSsp | .blockDataLength =>
      { state with sdnvState := sdnvReset }
  | .blockData =>
      let state : Parser := { state with
        currentIndex := 0
        curBytesRemaining := 0
        nextBytes := state.block.length.toNat
        currentSize := state.currentSize + state.block.length }
      if limits.bundleQuota < state.currentSize then { state with status := .error }
      else { state with bulkRead := true }
  | .version | .done => state

/-- `bundle6_parser_next`. -/
def bundle6ParserNext (state : Parser) : Parser :=
  let state := enterStage limits state
  let state : Parser := { state with currentStage := state.nextStage }
  if state.currentStage = .done then bundle6ParserSendBundle { state with status := .done }
  else state

/-- `bundle6_parser_wait_for_sdnv`: whether the number is complete. -/
def bundle6ParserWaitForSdnv (state : Parser) (nextStage : Stage) : Parser × Bool :=
  match state.sdnvState.status with
  | .inProgress => (state, false)
  | .done => ({ state with nextStage }, true)
  | .error => ({ state with status := .error, error := .sdnvFailure }, false)

/-- A number that is read into a field. -/
structure Field (α : Type) where
  read : SdnvState → α → UInt8 → SdnvState × α
  get : Parser → α
  set : Parser → α → Parser

/-- A byte for a field, behind which another stage stands. -/
def readField {α : Type} (f : Field α) (nextStage : Stage) (state : Parser) (byte : UInt8) :
    Parser × Bool :=
  let (sdnvState, value) := f.read state.sdnvState (f.get state) byte
  bundle6ParserWaitForSdnv (f.set { state with sdnvState } value) nextStage

namespace Field

def procFlags : Field UInt32 :=
  ⟨sdnvReadU32, (·.bundle.procFlags),
    fun state x => { state with bundle := { state.bundle with procFlags := x } }⟩

def primaryBlockLength : Field UInt16 :=
  ⟨sdnvReadU16, (·.bundle.primaryBlockLength),
    fun state x => { state with bundle := { state.bundle with primaryBlockLength := x } }⟩

def destinationScheme : Field UInt16 :=
  ⟨sdnvReadU16, (·.destinationEidref.schemeOffset),
    fun state x => { state with
      destinationEidref := { state.destinationEidref with schemeOffset := x } }⟩

def destinationSsp : Field UInt16 :=
  ⟨sdnvReadU16, (·.destinationEidref.sspOffset),
    fun state x => { state with
      destinationEidref := { state.destinationEidref with sspOffset := x } }⟩

def sourceScheme : Field UInt16 :=
  ⟨sdnvReadU16, (·.sourceEidref.schemeOffset),
    fun state x => { state with
      sourceEidref := { state.sourceEidref with schemeOffset := x } }⟩

def sourceSsp : Field UInt16 :=
  ⟨sdnvReadU16, (·.sourceEidref.sspOffset),
    fun state x => { state with
      sourceEidref := { state.sourceEidref with sspOffset := x } }⟩

def reportToScheme : Field UInt16 :=
  ⟨sdnvReadU16, (·.reportToEidref.schemeOffset),
    fun state x => { state with
      reportToEidref := { state.reportToEidref with schemeOffset := x } }⟩

def reportToSsp : Field UInt16 :=
  ⟨sdnvReadU16, (·.reportToEidref.sspOffset),
    fun state x => { state with
      reportToEidref := { state.reportToEidref with sspOffset := x } }⟩

def custodianScheme : Field UInt16 :=
  ⟨sdnvReadU16, (·.custodianEidref.schemeOffset),
    fun state x => { state with
      custodianEidref := { state.custodianEidref with schemeOffset := x } }⟩

def custodianSsp : Field UInt16 :=
  ⟨sdnvReadU16, (·.custodianEidref.sspOffset),
    fun state x => { state with
      custodianEidref := { state.custodianEidref with sspOffset := x } }⟩

def creationTimestamp : Field UInt64 :=
  ⟨sdnvReadU64, (·.bundle.creationTimestampMs),
    fun state x => { state with bundle := { state.bundle with creationTimestampMs := x } }⟩

def sequenceNumber : Field UInt64 :=
  ⟨sdnvReadU64, (·.bundle.sequenceNumber),
    fun state x => { state with bundle := { state.bundle with sequenceNumber := x } }⟩

def lifetime : Field UInt64 :=
  ⟨sdnvReadU64, (·.bundle.lifetimeMs),
    fun state x => { state with bundle := { state.bundle with lifetimeMs := x } }⟩

def dictLength : Field UInt16 :=
  ⟨sdnvReadU16, (·.dictLength), fun state x => { state with dictLength := x }⟩

def fragmentOffset : Field UInt32 :=
  ⟨sdnvReadU32, (·.bundle.fragmentOffset),
    fun state x => { state with bundle := { state.bundle with fragmentOffset := x } }⟩

def totalAduLength : Field UInt32 :=
  ⟨sdnvReadU32, (·.bundle.totalAduLength),
    fun state x => { state with bundle := { state.bundle with totalAduLength := x } }⟩

/-- The lowest byte of the flags of the current block. -/
def blockFlags : Field UInt8 :=
  ⟨sdnvReadU8, (·.block.flags.toUInt8),
    fun state x => { state with
      block := { state.block with
        flags := UInt32.ofNat (state.block.flags.toNat / 256 * 256 + x.toNat) } }⟩

/-- The number of references is read into `current_size`. -/
def eidRefCount : Field UInt32 :=
  ⟨sdnvReadU32, (·.currentSize), fun state x => { state with currentSize := x }⟩

def eidRefScheme : Field UInt16 :=
  ⟨sdnvReadU16, (·.curEidref.schemeOffset),
    fun state x => { state with curEidref := { state.curEidref with schemeOffset := x } }⟩

def eidRefSsp : Field UInt16 :=
  ⟨sdnvReadU16, (·.curEidref.sspOffset),
    fun state x => { state with curEidref := { state.curEidref with sspOffset := x } }⟩

def blockLength : Field UInt32 :=
  ⟨sdnvReadU32, (·.block.length),
    fun state x => { state with block := { state.block with length := x } }⟩

end Field

/-- The EIDs of the primary block, once the dictionary is there. -/
def readPrimaryEids (state : Parser) : Parser :=
  let read := bundle6ReadEid state.dict state.dictLength.toNat
  match read state.sourceEidref, read state.destinationEidref, read state.reportToEidref,
      read state.custodianEidref with
  | some source, some destination, some reportTo, some currentCustodian =>
      let bundle := { state.bundle with source, destination, reportTo, currentCustodian }
      if hasFlag bundle.procFlags flagIsFragment then
        { state with bundle, nextStage := .fragmentOffset }
      else { state with bundle, nextStage := .blockType }
  | _, _, _, _ => { state with status := .error }

/-- The switch of `bundle6_parser_read_byte`. -/
def stageByte (state : Parser) (byte : UInt8) : Parser :=
  match state.currentStage with
  | .version =>
      { state with
        bundle := { state.bundle with protocolVersion := byte }
        nextStage := .procFlags }
  | .procFlags => (readField Field.procFlags .blockLength state byte).1
  | .blockLength => (readField Field.primaryBlockLength .destinationEidScheme state byte).1
  | .destinationEidScheme => (readField Field.destinationScheme .destinationEidSsp state byte).1
  | .destinationEidSsp => (readField Field.destinationSsp .sourceEidScheme state byte).1
  | .sourceEidScheme => (readField Field.sourceScheme .sourceEidSsp state byte).1
  | .sourceEidSsp => (readField Field.sourceSsp .reportEidScheme state byte).1
  | .reportEidScheme => (readField Field.reportToScheme .reportEidSsp state byte).1
  | .reportEidSsp => (readField Field.reportToSsp .custodianEidScheme state byte).1
  | .custodianEidScheme => (readField Field.custodianScheme .custodianEidSsp state byte).1
  | .custodianEidSsp => (readField Field.custodianSsp .timestamp state byte).1
  | .timestamp => (readField Field.creationTimestamp .sequenceNum state byte).1
  | .sequenceNum => (readField Field.sequenceNumber .lifetime state byte).1
  | .lifetime => (readField Field.lifetime .dictLength state byte).1
  | .dictLength => (readField Field.dictLength .dictionary state byte).1
  | .dictionary =>
      let state : Parser := { state with
        curBytesRemaining := state.curBytesRemaining - 1
        dict := state.dict ++ [byte]
        currentIndex := state.currentIndex + 1 }
      if state.curBytesRemaining = 0 then
        readPrimaryEids
          { state with dict := state.dict ++ [0], currentIndex := state.currentIndex + 1 }
      else state
  | .fragmentOffset => (readField Field.fragmentOffset .aduLength state byte).1
  | .aduLength => (readField Field.totalAduLength .blockType state byte).1
  | .blockType => bundle6ParserBeginBlock { state with nextStage := .blockFlags } byte
  | .blockFlags =>
      let (state, complete) := readField Field.blockFlags .blockDataLength state byte
      if complete then
        let state : Parser :=
          { state with lastBlock := hasFlag state.block.flags blockFlagLastBlock }
        if hasFlag state.block.flags blockFlagHasEidRefField then
          { state with nextStage := .blockEidRefCnt }
        else state
      else state
  | .blockEidRefCnt =>
      let (state, complete) := readField Field.eidRefCount .blockEidRefSch state byte
      if complete then
        let state : Parser := { state with currentIndex := 0 }
        if state.currentSize = 0 then { state with nextStage := .blockDataLength } else state
      else state
  | .blockEidRefSch => (readField Field.eidRefScheme .blockEidRefSsp state byte).1
  | .blockEidRefSsp =>
      let (state, complete) := readField Field.eidRefSsp .blockEidRefSch state byte
      if complete then
        match bundle6ReadEid state.dict state.dictLength.toNat state.curEidref with
        | none => { state with status := .error }
        | some eid =>
            -- a new reference stands before those that are there already
            let state : Parser := { state with
              block := { state.block with eidRefs := eid :: state.block.eidRefs }
              currentIndex := state.currentIndex + 1 }
            if state.currentIndex = state.currentSize then
              { state with nextStage := .blockDataLength }
            else state
      else state
  | .blockDataLength => (readField Field.blockLength .blockData state byte).1
  | .blockData =>
      if state.curBytesRemaining ≠ 0 then { state with status := .error }
      else
        let state := bundle6ParserEndBlock state
        if state.lastBlock then { state with nextStage := .done }
        else { state with nextStage := .blockType }
  | .done => { state with status := .error }

/-- The end of `bundle6_parser_read_byte`. -/
def changeStage (state : Parser) : Parser :=
  if state.currentStage ≠ state.nextStage ∧ state.status ≠ .error then
    bundle6ParserNext limits state
  else state

/-- A byte of the primary block is counted. -/
def countPrimaryByte (state : Parser) : Parser :=
  if state.currentBlock = .primary then
    { state with primaryBytesRemaining := state.primaryBytesRemaining - 1 }
  else state

/-- `bundle6_parser_read_byte`. -/
def bundle6ParserReadByte (state : Parser) (byte : UInt8) : Parser :=
  if state.currentBlock = .primary ∧ lengthKnown state ∧ state.primaryBytesRemaining = 0 then
    { state with status := .error, error := .blockLengthExhausted }
  else changeStage limits (stageByte (countPrimaryByte state) byte)

/-- The bulk read is done with these bytes, of which the parser is told. -/
def bulkReadDone (state : Parser) (bytes : List UInt8) : Parser :=
  bundle6ParserReadByte limits
    { state with block := { state.block with data := bytes }, bulkRead := false } 0

/-- The loop of `bundle6_parser_read`, for a number of passes: the parser, and the bytes that are
left. A pass that takes no byte ends a bulk read of no bytes. -/
def bundle6ParserReadLoop : Nat → Parser → List UInt8 → Parser × List UInt8
  | 0, state, rest => (state, rest)
  | _, state, [] => (state, [])
  | passes + 1, state, byte :: rest =>
      if state.status ≠ .good then (state, byte :: rest)
      else if state.bulkRead then
        if (byte :: rest).length < state.nextBytes then (state, byte :: rest)
        else
          bundle6ParserReadLoop passes
            (bulkReadDone limits state ((byte :: rest).take state.nextBytes))
            ((byte :: rest).drop state.nextBytes)
      else bundle6ParserReadLoop passes (bundle6ParserReadByte limits state byte) rest

/-- `bundle6_parser_read`, for a buffer. -/
def bundle6ParserRead (state : Parser) (buffer : List UInt8) : Parser × List UInt8 :=
  bundle6ParserReadLoop limits (2 * buffer.length + 1) state buffer

/-- What a caller does with all bytes of a bundle: the parser reads them, and where it then waits
for the data of a block that has none, it is told that they are there. -/
def parseBundle (state : Parser) (buffer : List UInt8) : Parser :=
  let (state, rest) := bundle6ParserRead limits state buffer
  if state.status = .good ∧ state.bulkRead ∧ state.nextBytes ≤ rest.length then
    bulkReadDone limits state (rest.take state.nextBytes)
  else state

end Bundle6
