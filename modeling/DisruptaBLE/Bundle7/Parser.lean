import DisruptaBLE.Bundle7.Eid
import DisruptaBLE.Bundle7.Crc
import DisruptaBLE.Cla.RxTask

/-!
# The parser of version 7

`components/bundle7/parser.c` and `components/bundle7/timestamp.c`.  The callbacks of the parser are
the stages (`Stage`).  A stage returns where it has left the iterator, or an error, and the parser
as it has changed it, also when it fails: a stage that did not find enough bytes is run again when
there are more of them.

The bundle that is read is kept as a `Draft`.  The block at `current_block_entry` stands outside of
the list until it is complete, and its data is there when the bulk read is done.  Requests for
memory are served.
-/

namespace Bundle7

open BundleProcessor
open ClaRx (ParserStatus)

/-- The callbacks of the parser. -/
inductive Stage where
  | bundleStart
  | bundleEnd
  | primaryBlockStart
  | protocolVersion
  | primaryProcFlags
  | crcType
  | destinationEid
  | sourceEid
  | reportToEid
  | creationTimestamp
  | lifetime
  | fragmentOffset
  | totalAduLength
  | primaryBlockCrc
  | blockStart
  | blockType
  | blockNumber
  | blockProcFlags
  | blockCrcType
  | blockCrc
  | blockData
  | blockEnd
  deriving DecidableEq, Repr

/-- The bundle of a parser. -/
structure Draft where
  protocolVersion : UInt8
  procFlags : UInt32
  crcType : CrcType
  destination : CStr
  source : CStr
  reportTo : CStr
  creationTimestampMs : UInt64
  sequenceNumber : UInt64
  lifetimeMs : UInt64
  fragmentOffset : UInt32
  totalAduLength : UInt32
  primaryBlockLength : UInt16
  /-- the blocks before the one at `current_block_entry` -/
  blocks : List Block
  /-- `BLOCK(state)` -/
  block : Block
  /-- `payload_block` -/
  payload : Option BlockBody
  deriving DecidableEq, Repr

/-- `bundle_block_create`. -/
def bundleBlockCreate (type : UInt32) : Block where
  type := type
  number := if type = blockTypePayload then 1 else 0
  flags := 0
  data := Buffer.empty
  eidRefs := []
  crcType := .none

/-- `bundle_init`, with the default CRC type of the configuration. -/
def bundleInit : Draft where
  protocolVersion := 6
  procFlags := 0
  crcType := .crc16
  destination := []
  source := []
  reportTo := []
  creationTimestampMs := 0
  sequenceNumber := 0
  lifetimeMs := 0
  fragmentOffset := 0
  totalAduLength := 0
  primaryBlockLength := 0
  blocks := []
  block := bundleBlockCreate 0
  payload := none

/-- `bundle_is_fragmented`. -/
def Draft.isFragmented (x : Draft) : Bool := hasFlag x.procFlags flagIsFragment

/-- The bundle, when it is complete. -/
def Draft.bundle (x : Draft) (payload : BlockBody) : Bundle where
  id := 0
  protocolVersion := x.protocolVersion
  procFlags := x.procFlags
  ret := RetConstraints.none
  crcType := x.crcType
  destination := x.destination
  source := x.source
  reportTo := x.reportTo
  currentCustodian := []
  creationTimestampMs := x.creationTimestampMs
  sequenceNumber := x.sequenceNumber
  lifetimeMs := x.lifetimeMs
  fragmentOffset := x.fragmentOffset
  totalAduLength := x.totalAduLength
  primaryBlockLength := x.primaryBlockLength
  blocksBefore := x.blocks
  payload := payload
  blocksAfter := []

/-- What becomes known outside of the parser. -/
inductive Event where
  /-- the call of `send_callback` -/
  | sent (b : Bundle)
  /-- a reset by the receive task -/
  | reset
  deriving DecidableEq, Repr

/-- `struct bundle7_parser` with its `struct parser`. -/
structure Parser where
  status : ParserStatus
  /-- `PARSER_FLAG_CRC_INVALID` -/
  crcInvalid : Bool
  /-- `PARSER_FLAG_BULK_READ` -/
  bulkRead : Bool
  nextBytes : Nat
  /-- `BUNDLE_V7_PARSER_CRC_FEED` -/
  crcFeed : Bool
  crc16 : CrcStream
  crc32 : CrcStream
  bundleSize : Nat
  draft : Draft
  parse : Stage
  next : Option Stage
  log : List Event
  deriving DecidableEq, Repr

/-- What a stage returns. -/
abbrev StageResult := Except CborError CborValue × Parser

/-- `BP_V7_FLAGS`. -/
def bpV7Flags : UInt32 := 0x074067

/-- The block flags that are kept. -/
def keptBlockFlags : UInt32 :=
  blockFlagMustBeReplicated ||| blockFlagDiscardIfUnproc ||| blockFlagReportIfUnproc |||
    blockFlagDeleteBundleIfUnproc

/-- A CRC type from its code. -/
def crcTypeOf (code : UInt32) : CrcType :=
  if h : 2 < code then .other code h
  else if code = 2 then .crc32
  else if code = 1 then .crc16
  else .none

/-- `crc_verify`. -/
def crcVerify (st : Parser) (checksum expected : UInt32) : Parser :=
  if checksum ≠ expected then { st with crcInvalid := true } else st

/-- `crc_init` for both streams, and `BUNDLE_V7_PARSER_CRC_FEED` is set. -/
def crcStart (st : Parser) : Parser :=
  { st with crcFeed := true, crc16 := crcInit .crc16X25, crc32 := crcInit .crc32 }

/-- The CRC field is populated with zero. -/
def crcZero (crc : CrcStream) : CrcStream :=
  match crc.version with
  | .crc16X25 => (crcFeedBytes crc [0x42, 0x00, 0x00]).feedEof
  | .crc32 => (crcFeedBytes crc [0x44, 0x00, 0x00, 0x00, 0x00]).feedEof

/-! ## Stages -/

variable (T : TinyCbor)

/-- `bundle_start`. -/
def bundleStart (st : Parser) (it : CborValue) : StageResult :=
  if !it.isArray || it.lengthKnown then (.error .illegalType, st)
  else (T.enterContainer it, { st with next := some .primaryBlockStart })

/-- `bundle_end`. -/
def bundleEnd (st : Parser) (it : CborValue) : StageResult :=
  if it.rest.head? ≠ some 0xff then (.error .illegalType, st)
  else
    let it := { it with rest := it.rest.tail }
    let st := { st with status := .done }
    match st.draft.payload with
    | none => (.ok it, st)
    | some payload =>
        if st.crcInvalid then (.ok it, st)
        else (.ok it, { st with log := st.log ++ [.sent (st.draft.bundle payload)] })

/-- `primary_block_start`. -/
def primaryBlockStart (st : Parser) (it : CborValue) : StageResult :=
  if !it.isArray || !it.lengthKnown then (.error .illegalType, st)
  else (T.enterContainer it, { crcStart st with next := some .protocolVersion })

/-- A stage that stores a number. -/
def readUint (next : Stage) (store : Draft → UInt64 → Draft) (st : Parser) (it : CborValue) :
    StageResult :=
  if it.isUnsignedInteger then
    (checked (T.advanceFixed it),
      { st with draft := store st.draft (T.getUint64 it), next := some next })
  else (.error .illegalType, st)

/-- `protocol_version`. -/
def protocolVersion : Parser → CborValue → StageResult :=
  readUint T .primaryProcFlags fun x version => { x with protocolVersion := version.toUInt8 }

/-- `primary_proc_flags`. -/
def primaryProcFlags : Parser → CborValue → StageResult :=
  readUint T .crcType fun x flags => { x with procFlags := flags.toUInt32 &&& bpV7Flags }

/-- `crc_type`. -/
def crcType (st : Parser) (it : CborValue) : StageResult :=
  if it.isUnsignedInteger then
    let type := T.getUint64 it
    if 2 < type then (.error .illegalType, st)
    else
      let crcType := crcTypeOf type.toUInt32
      (checked (T.advanceFixed it),
        { st with
          draft := { st.draft with crcType }
          crcFeed := st.crcFeed && crcType ≠ .none
          next := some .destinationEid })
  else (.error .illegalType, st)

/-- `parse_eid`.  An EID that was released because of an error is not looked at again. -/
def parseEid (next : Stage) (store : Draft → CStr → Draft) (st : Parser) (it : CborValue) :
    StageResult :=
  match bundle7EidParseCbor T it with
  | .error e => (.error e, st)
  | .ok (eid, it) => (.ok it, { st with draft := store st.draft eid, next := some next })

/-- `destination_eid`. -/
def destinationEid : Parser → CborValue → StageResult :=
  parseEid T .sourceEid fun x eid => { x with destination := eid }

/-- `source_eid`. -/
def sourceEid : Parser → CborValue → StageResult :=
  parseEid T .reportToEid fun x eid => { x with source := eid }

/-- `report_to_eid`. -/
def reportToEid : Parser → CborValue → StageResult :=
  parseEid T .creationTimestamp fun x eid => { x with reportTo := eid }

/-- The second number of `bundle7_timestamp_parse`, and what follows. -/
def timestampSequence (it recursed : CborValue) (x : Draft) :
    Except CborError CborValue × Draft :=
  if recursed.isUnsignedInteger then
    let x := { x with sequenceNumber := T.getUint64 recursed }
    match checked (T.advanceFixed recursed) with
    | .error e => (.error e, x)
    | .ok recursed =>
        if recursed.atEnd then (T.leaveContainer it recursed, x) else (.error .illegalType, x)
  else (.error .illegalType, x)

/-- `bundle7_timestamp_parse`. -/
def bundle7TimestampParse (it : CborValue) (x : Draft) : Except CborError CborValue × Draft :=
  if it.isArray then
    match T.enterContainer it with
    | .error e => (.error e, x)
    | .ok recursed =>
        if recursed.isUnsignedInteger then
          let x := { x with creationTimestampMs := T.getUint64 recursed }
          match checked (T.advanceFixed recursed) with
          | .error e => (.error e, x)
          | .ok recursed => timestampSequence T it recursed x
        else (.error .illegalType, x)
  else (.error .illegalType, x)

/-- `creation_timestamp`. -/
def creationTimestamp (st : Parser) (it : CborValue) : StageResult :=
  match bundle7TimestampParse T it st.draft with
  | (.error e, draft) => (.error e, { st with draft })
  | (.ok it, draft) => (.ok it, { st with draft, next := some .lifetime })

/-- What follows the last number of the primary block, when it has `consumed` bytes: its CRC, or
the blocks. -/
def primaryFieldsEnd (st : Parser) (consumed : Nat) : Parser :=
  if st.draft.crcType ≠ .none then { st with next := some .primaryBlockCrc }
  else
    { st with
      draft := { st.draft with
        primaryBlockLength := UInt16.ofNat (st.bundleSize - 1 + consumed) }
      next := some .blockStart }

/-- `lifetime`. -/
def lifetime (st : Parser) (it : CborValue) : StageResult :=
  if it.isUnsignedInteger then
    let advanced := T.advanceFixed it
    let st := { st with draft := { st.draft with lifetimeMs := T.getUint64 it } }
    (checked advanced,
      if st.draft.isFragmented then { st with next := some .fragmentOffset }
      else primaryFieldsEnd st (it.rest.length - advanced.2.rest.length))
  else (.error .illegalType, st)

/-- `fragment_offset`. -/
def fragmentOffset : Parser → CborValue → StageResult :=
  readUint T .totalAduLength fun x offset => { x with fragmentOffset := offset.toUInt32 }

/-- `total_adu_length`. -/
def totalAduLength (st : Parser) (it : CborValue) : StageResult :=
  if it.isUnsignedInteger then
    let advanced := T.advanceFixed it
    let st := { st with draft := { st.draft with totalAduLength := (T.getUint64 it).toUInt32 } }
    (checked advanced, primaryFieldsEnd st (it.rest.length - advanced.2.rest.length))
  else (.error .illegalType, st)

/-- `primary_block_crc`. -/
def primaryBlockCrc (st : Parser) (it : CborValue) : StageResult :=
  if it.isByteString then
    match T.copyString it 4 with
    | .error e => (.error e, st)
    | .ok (crc, it) =>
        let st := { st with crcFeed := false }
        let expected := UInt32.ofNat (Cbor.beNat crc)
        if st.draft.crcType = .crc16 then
          if crc.length ≠ 2 then (.error .illegalType, st)
          else
            let stream := crcZero st.crc16
            let st := crcVerify { st with crc16 := stream } stream.checksum expected
            (.ok it,
              { st with
                draft := { st.draft with
                  primaryBlockLength := UInt16.ofNat (st.bundleSize - 1 + 3) }
                next := some .blockStart })
        else if crc.length ≠ 4 then (.error .illegalType, st)
        else
          let stream := crcZero st.crc32
          let st := crcVerify { st with crc32 := stream } stream.checksum expected
          (.ok it,
            { st with
              draft := { st.draft with
                primaryBlockLength := UInt16.ofNat (st.bundleSize - 1 + 5) }
              next := some .blockStart })
  else (.error .illegalType, st)

/-- `block_start`. -/
def blockStart (st : Parser) (it : CborValue) : StageResult :=
  if it.isArray then (T.enterContainer it, { crcStart st with next := some .blockType })
  else (.error .illegalType, st)

/-- `block_type`. -/
def blockType : Parser → CborValue → StageResult :=
  readUint T .blockNumber fun x type => { x with block := bundleBlockCreate type.toUInt32 }

/-- `block_number`. -/
def blockNumber : Parser → CborValue → StageResult :=
  readUint T .blockProcFlags fun x number =>
    { x with block := { x.block with number := number.toUInt8 } }

/-- `block_proc_flags`. -/
def blockProcFlags : Parser → CborValue → StageResult :=
  readUint T .blockCrcType fun x flags =>
    { x with block := { x.block with flags := flags.toUInt8.toUInt32 &&& keptBlockFlags } }

/-- `block_crc_type`. -/
def blockCrcType (st : Parser) (it : CborValue) : StageResult :=
  if it.isUnsignedInteger then
    let type := T.getUint64 it
    (checked (T.advanceFixed it),
      { st with
        draft := { st.draft with
          block := { st.draft.block with crcType := crcTypeOf type.toUInt32 } }
        crcFeed := st.crcFeed && type ≠ 0
        next := some .blockData })
  else (.error .illegalType, st)

/-- `block_end`. -/
def blockEnd (st : Parser) : Parser :=
  if st.draft.block.type = blockTypePayload then
    { st with
      draft := { st.draft with payload := some st.draft.block.toBlockBody }
      parse := .bundleEnd
      next := some .bundleEnd }
  else
    { st with
      draft := { st.draft with blocks := st.draft.blocks ++ [st.draft.block] }
      parse := .blockStart
      next := some .blockStart }

/-- `block_crc`. -/
def blockCrc (st : Parser) (it : CborValue) : StageResult :=
  if it.isByteString then
    let st := { st with crcFeed := false }
    match T.copyString it 4 with
    | .error e => (.error e, st)
    | .ok (crc, it) =>
        let expected := UInt32.ofNat (Cbor.beNat crc)
        let data := st.draft.block.data.bytes
        if st.draft.block.crcType = .crc16 then
          if crc.length ≠ 2 then (.error .illegalType, st)
          else
            let stream := crcZero (crcFeedBytes st.crc16 data)
            (.ok it, blockEnd (crcVerify { st with crc16 := stream } stream.checksum expected))
        else if crc.length ≠ 4 then (.error .illegalType, st)
        else
          let stream := crcZero (crcFeedBytes st.crc32 data)
          (.ok it, blockEnd (crcVerify { st with crc32 := stream } stream.checksum expected))
  else (.error .illegalType, st)

/-- `block_data`.  The type of the iterator is changed to advance only over the length, and the
result of this is not looked at. -/
def blockData (st : Parser) (it : CborValue) : StageResult :=
  if it.isByteString then
    match T.getStringLength it with
    | .error e => (.error e, st)
    | .ok length =>
        (.ok (T.advanceFixed { it with type := some .uint }).2,
          { st with
            crcFeed := true
            nextBytes := length
            bulkRead := true
            bundleSize := st.bundleSize + length
            next := some (if st.draft.block.crcType ≠ .none then .blockCrc else .blockEnd) })
  else (.error .illegalType, st)

/-- `state->parse`. -/
def runStage : Stage → Parser → CborValue → StageResult
  | .bundleStart => bundleStart T
  | .bundleEnd => bundleEnd
  | .primaryBlockStart => primaryBlockStart T
  | .protocolVersion => protocolVersion T
  | .primaryProcFlags => primaryProcFlags T
  | .crcType => crcType T
  | .destinationEid => destinationEid T
  | .sourceEid => sourceEid T
  | .reportToEid => reportToEid T
  | .creationTimestamp => creationTimestamp T
  | .lifetime => lifetime T
  | .fragmentOffset => fragmentOffset T
  | .totalAduLength => totalAduLength T
  | .primaryBlockCrc => primaryBlockCrc T
  | .blockStart => blockStart T
  | .blockType => blockType T
  | .blockNumber => blockNumber T
  | .blockProcFlags => blockProcFlags T
  | .blockCrcType => blockCrcType T
  | .blockCrc => blockCrc T
  | .blockData => blockData T
  | .blockEnd => fun st it => (.ok it, blockEnd st)

/-! ## Parser core -/

/-- `bundle7_parser_reset`. -/
def bundle7ParserReset (st : Parser) : Parser :=
  if st.status = .good ∧ st.next = some .bundleStart then st
  else
    { st with
      status := .good
      crcInvalid := false
      bulkRead := false
      parse := .bundleStart
      crcFeed := false
      bundleSize := 0
      draft := bundleInit }

/-- `bundle7_parser_init`. -/
def bundle7ParserInit : Parser :=
  bundle7ParserReset
    { status := .error
      crcInvalid := false
      bulkRead := false
      nextBytes := 0
      crcFeed := false
      crc16 := crcInit .crc16X25
      crc32 := crcInit .crc32
      bundleSize := 0
      draft := bundleInit
      parse := .bundleStart
      next := none
      log := [] }

/-- `FAIL`. -/
def Parser.fail (st : Parser) : Parser := { st with status := .error }

/-- Transition to the next stage. -/
def Parser.transition (st : Parser) : Parser := { st with parse := st.next.getD st.parse }

/-- The data of a block.  Its length is a `uint32_t`. -/
def bulkBuffer (bytes : List UInt8) : Buffer :=
  ⟨bytes.take (bytes.length % 2 ^ 32), Buffer.take_fits bytes⟩

/-- The bytes of a bulk read are in `next_buffer`, and its flag is taken away. -/
def fillBulk (st : Parser) (bytes : List UInt8) : Parser :=
  { st with
    draft := { st.draft with block := { st.draft.block with data := bulkBuffer bytes } }
    bulkRead := false }

/-- `bundle7_parser_read` with `NULL`. -/
def readNull (st : Parser) : Parser :=
  if st.parse = .blockEnd then (blockEnd st).transition else st

/-- What the loop does after a stage that consumed these bytes. -/
def accountFor (st : Parser) (bytes : List UInt8) : Parser :=
  { st with
    crc16 := if st.crcFeed then crcFeedBytes st.crc16 bytes else st.crc16
    crc32 := if st.crcFeed then crcFeedBytes st.crc32 bytes else st.crc32 }

/-- The loop of `bundle7_parser_read`, with the bytes parsed, the bytes that are left, and the
iterator unless it is to be initialized.  Every pass but the one of a bulk read consumes a byte, and
after a bulk read there is such a pass. -/
def readLoop (quota : Nat) :
    Nat → Parser → Nat → List UInt8 → Option CborValue → Parser × Nat
  | 0, st, parsed, _, _ => (st, parsed)
  | fuel + 1, st, parsed, rest, iterator =>
      if rest = [] ∨ st.status ≠ .good then (st, parsed)
      else if st.bulkRead then
        if rest.length < st.nextBytes then (st, parsed)
        else
          readLoop quota fuel (readNull (fillBulk st (rest.take st.nextBytes)))
            (parsed + st.nextBytes) (rest.drop st.nextBytes) none
      else
        let (err, it) :=
          match iterator with
          | some it => (none, it)
          | none => T.parserInit rest
        if err = some .unexpectedEof then (st, parsed)
        else if err ≠ none ∧ err ≠ some .unexpectedBreak then (st.fail, parsed)
        else
          match runStage T st.parse st it with
          | (.error e, st) => (if e = .unexpectedEof then st else st.fail, parsed)
          | (.ok it, st) =>
              let consumed := rest.length - it.rest.length
              let st := { st with bundleSize := st.bundleSize + consumed }
              if quota < st.bundleSize then (st.fail, parsed)
              else
                readLoop quota fuel (accountFor st (rest.take consumed)).transition
                  (parsed + consumed) (rest.drop consumed) (if it.atEnd then none else some it)

/-- `bundle7_parser_read`. -/
def bundle7ParserRead (quota : Nat) (st : Parser) (buffer : List UInt8) : Parser × Nat :=
  readLoop T quota (2 * buffer.length + 2) st 0 buffer none

end Bundle7
