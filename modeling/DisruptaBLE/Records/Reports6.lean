import DisruptaBLE.Bundle6.Sdnv
import DisruptaBLE.Bundle7.Eid
import DisruptaBLE.Cla.RxTask
import DisruptaBLE.Records.Record

/-!
# Administrative records of version 6

`components/bundle6/reports.c`: status reports and custody signals are written field by field, and a
state machine reads them byte by byte.

The branch of the machine for the source identifier runs into the one for errors, so that the
machine is never done: no record is read back (`administrative_record_never_read_back`).  Requests
for memory are served.
-/

namespace Bundle6

open BundleProcessor BundleStorage Records
open Bundle7 (cBytes)
open ClaRx (ParserStatus)

/-! ## Generator -/

/-- `bundle6_create_local`. -/
def bundle6CreateLocal (payload : List UInt8) (source destination : CStr)
    (creationTimeS lifetimeS : UInt64) (procFlags : UInt32) : Option Bundle :=
  if ':' ∉ source ∨ ':' ∉ destination then none
  else
    let b : Bundle :=
      { id := invId
        protocolVersion := 6
        procFlags := procFlags ||| flagSingletonEndpoint
        ret := RetConstraints.none
        crcType := .crc16
        destination := destination
        source := source
        reportTo := eidNone
        currentCustodian := eidNone
        creationTimestampMs := creationTimeS * 1000
        sequenceNumber := 1
        lifetimeMs := lifetimeS * 1000
        fragmentOffset := 0
        totalAduLength := 0
        primaryBlockLength := 0
        blocksBefore := []
        payload := ⟨1, blockFlagLastBlock, blockData payload, [], .none⟩
        blocksAfter := [] }
    some { b with primaryBlockLength := bundle6RecalculateHeaderLength b }

/-- `encapsulate_record`; `now` are seconds. -/
def encapsulateRecord (now : UInt64) (b : Bundle) (sourceEid destEid : CStr)
    (payload : List UInt8) : Option Bundle :=
  let lifetimeSeconds := (bundleGetExpirationTimeS now b).toInt64 - now.toInt64
  if lifetimeSeconds < 0 then none
  else
    (bundle6CreateLocal payload sourceEid destEid now lifetimeSeconds.toUInt64
      flagAdministrativeRecord).map fun result =>
        { result with ret := { RetConstraints.none with flagOwn := true } }

/-- What `generate_record` writes; `millitime` are milliseconds. -/
def recordContent (millitime : UInt64) (b : Bundle) (isCustodySignal : Bool)
    (prefix1 prefix2 : UInt8) : List UInt8 :=
  let fragment := b.isFragmented
  let eidLength := UInt16.ofNat b.source.length
  ((if isCustodySignal then 0x20 else 0x10) ||| (if fragment then 0x01 else 0x00)) :: prefix1 ::
    (if isCustodySignal then [prefix2] else []) ++
    (if fragment then sdnvWriteU32 b.fragmentOffset ++ sdnvWriteU32 b.payloadLength else []) ++
    sdnvWriteU64 (millitime / 1000) ++
    sdnvWriteU32 (millitime % 1000 * 1000).toUInt32 ++
    sdnvWriteU64 (b.creationTimestampMs / 1000) ++
    sdnvWriteU64 b.sequenceNumber ++
    sdnvWriteU32 eidLength.toUInt32 ++
    (cBytes b.source).take eidLength.toNat

/-- `generate_record`. -/
def generateRecord (now millitime : UInt64) (b : Bundle) (sourceEid destEid : CStr)
    (isCustodySignal : Bool) (prefix1 prefix2 : UInt8) : Option Bundle :=
  encapsulateRecord now b sourceEid destEid
    (recordContent millitime b isCustodySignal prefix1 prefix2)

/-- `bundle6_generate_status_report`. -/
def bundle6GenerateStatusReport (now millitime : UInt64) (b : Bundle) (report : StatusReport)
    (localEid : CStr) : Option Bundle :=
  generateRecord now millitime b localEid b.reportTo true report.status.toUInt8
    report.reason.toUInt8

/-- `bundle6_generate_custody_signal`. -/
def bundle6GenerateCustodySignal (now millitime : UInt64) (b : Bundle) (signal : CustodySignal)
    (localEid : CStr) : Option Bundle :=
  generateRecord now millitime b localEid b.currentCustodian false
    ((signal.reason &&& 0x7F) ||| (if signal.accepted then 0x80 else 0x00)) 0

/-! ## Parser -/

/-- `enum record_parser_stage`. -/
inductive RecordParserStage where
  | expectType
  | expectReportFlags
  | expectReportReason
  | expectCustodyStatus
  | expectFragmentOffset
  | expectFragmentLength
  | expectRecordDtnSeconds
  | expectRecordDtnNanoseconds
  | expectBundleCreationTimestamp
  | expectBundleCreationSequence
  | expectBundleSourceLength
  | expectBundleSourceEid
  deriving DecidableEq, Repr

/-- `struct record_parser`. -/
structure RecordParser where
  status : ParserStatus
  stage : RecordParserStage
  sdnvState : SdnvState
  record : Record
  currentIndex : UInt16
  bytesRemaining : UInt16
  deriving DecidableEq, Repr

/-- What stands in memory that was just requested. -/
structure Uninit where
  record : Record
  statusReport : StatusReport
  custodySignal : CustodySignal
  parser : RecordParser

variable (uninit : Uninit)

/-- `record_parser_init`. -/
def recordParserInit : RecordParser :=
  { uninit.parser with
    status := .good
    stage := .expectType
    record := { uninit.record with
      statusReport := none
      custodySignal := none
      fragmentOffset := 0
      fragmentLength := 0
      eventTimestamp := 0
      eventNanoseconds := 0
      bundleCreationTimestampMs := 0
      bundleSequenceNumber := 0
      bundleSourceEidLength := 0
      bundleSourceEid := [] } }

/-- `record_parser_next`. -/
def recordParserNext (parser : RecordParser) (next : RecordParserStage) : RecordParser :=
  { parser with stage := next, sdnvState := sdnvReset }

/-- `record_parser_wait_for_sdnv`: whether the number is complete. -/
def recordParserWaitForSdnv (parser : RecordParser) (next : RecordParserStage) :
    RecordParser × Bool :=
  match parser.sdnvState.status with
  | .inProgress => (parser, false)
  | .done => (recordParserNext parser next, true)
  | .error => ({ parser with status := .error }, false)

/-- The stage behind the kind of record. -/
def afterKind (record : Record) : RecordParserStage :=
  if hasFlag record.flags recordFlagFragment then .expectFragmentOffset
  else .expectRecordDtnSeconds

/-- `record_parser_read_byte`. -/
def recordParserReadByte (parser : RecordParser) (byte : UInt8) : RecordParser :=
  let record := parser.record
  match parser.stage with
  | .expectType =>
      let type := ((byte >>> 4) &&& 0x0F).toUInt32
      let record := { record with type, flags := (byte &&& 0x0F).toUInt32 }
      if type = recordStatusReport then
        recordParserNext
          { parser with record := { record with statusReport := some uninit.statusReport } }
          .expectReportFlags
      else if type = recordCustodySignal then
        recordParserNext
          { parser with record := { record with custodySignal := some uninit.custodySignal } }
          .expectCustodyStatus
      else { parser with record, status := .error }
  | .expectReportFlags =>
      let statusReport := record.statusReport.map fun report =>
        { report with status := byte.toUInt32 }
      recordParserNext { parser with record := { record with statusReport } } .expectReportReason
  | .expectReportReason =>
      let statusReport := record.statusReport.map fun report =>
        { report with reason := byte.toUInt32 }
      recordParserNext { parser with record := { record with statusReport } } (afterKind record)
  | .expectCustodyStatus =>
      let custodySignal : Option CustodySignal :=
        record.custodySignal.map fun _ => ⟨byte >>> 7 ≠ 0, byte &&& 0x7F⟩
      recordParserNext { parser with record := { record with custodySignal } } (afterKind record)
  | .expectFragmentOffset =>
      let (sdnvState, fragmentOffset) := sdnvReadU32 parser.sdnvState record.fragmentOffset byte
      (recordParserWaitForSdnv { parser with sdnvState, record := { record with fragmentOffset } }
        .expectFragmentLength).1
  | .expectFragmentLength =>
      let (sdnvState, fragmentLength) := sdnvReadU32 parser.sdnvState record.fragmentLength byte
      (recordParserWaitForSdnv { parser with sdnvState, record := { record with fragmentLength } }
        .expectRecordDtnSeconds).1
  | .expectRecordDtnSeconds =>
      let (sdnvState, eventTimestamp) := sdnvReadU64 parser.sdnvState record.eventTimestamp byte
      (recordParserWaitForSdnv { parser with sdnvState, record := { record with eventTimestamp } }
        .expectRecordDtnNanoseconds).1
  | .expectRecordDtnNanoseconds =>
      let (sdnvState, eventNanoseconds) :=
        sdnvReadU32 parser.sdnvState record.eventNanoseconds byte
      (recordParserWaitForSdnv { parser with sdnvState, record := { record with eventNanoseconds } }
        .expectBundleCreationTimestamp).1
  | .expectBundleCreationTimestamp =>
      let (sdnvState, bundleCreationTimestampMs) :=
        sdnvReadU64 parser.sdnvState record.bundleCreationTimestampMs byte
      let (parser, complete) := recordParserWaitForSdnv
        { parser with sdnvState, record := { record with bundleCreationTimestampMs } }
        .expectBundleCreationSequence
      if complete then
        { parser with record := { parser.record with
            bundleCreationTimestampMs := parser.record.bundleCreationTimestampMs * 1000 } }
      else parser
  | .expectBundleCreationSequence =>
      let (sdnvState, bundleSequenceNumber) :=
        sdnvReadU64 parser.sdnvState record.bundleSequenceNumber byte
      (recordParserWaitForSdnv
        { parser with sdnvState, record := { record with bundleSequenceNumber } }
        .expectBundleSourceLength).1
  | .expectBundleSourceLength =>
      let (sdnvState, bundleSourceEidLength) :=
        sdnvReadU16 parser.sdnvState record.bundleSourceEidLength byte
      let (parser, complete) := recordParserWaitForSdnv
        { parser with sdnvState, record := { record with bundleSourceEidLength } }
        .expectBundleSourceEid
      if complete then
        { parser with
          record := { parser.record with bundleSourceEid := [] }
          currentIndex := 0
          bytesRemaining := parser.record.bundleSourceEidLength }
      else parser
  | .expectBundleSourceEid =>
      let bytesRemaining := parser.bytesRemaining - 1
      let bundleSourceEid := record.bundleSourceEid ++ [Char.ofNat byte.toNat]
      let parser := { parser with
        bytesRemaining
        currentIndex := parser.currentIndex + 1
        record := { record with bundleSourceEid } }
      let parser := if bytesRemaining = 0 then { parser with status := .done } else parser
      -- the branch runs into the default one
      { parser with status := .error }

/-- The loop of `bundle6_parse_administrative_record`. -/
def recordParserReadBytes : RecordParser → List UInt8 → RecordParser
  | parser, [] => parser
  | parser, byte :: rest =>
      if parser.status = .good then
        recordParserReadBytes (recordParserReadByte uninit parser byte) rest
      else parser

/-- `bundle6_parse_administrative_record`. -/
def bundle6ParseAdministrativeRecord (data : List UInt8) : Option Record :=
  let parser := recordParserReadBytes uninit (recordParserInit uninit) data
  if parser.status = .done then some parser.record else none

/-! ## What is read back -/

/-- What identifies the bundle, its times in seconds. -/
structure Identifies (b : Bundle) (record : Record) : Prop where
  source : record.bundleSourceEid = b.source
  creationTimestamp : record.bundleCreationTimestampMs = b.creationTimestampMs / 1000 * 1000
  sequenceNumber : record.bundleSequenceNumber = b.sequenceNumber
  fragmentOffset : b.isFragmented = true → record.fragmentOffset = b.fragmentOffset
  fragmentLength : b.isFragmented = true → record.fragmentLength = b.payloadLength

/-- A status report has come back. -/
def StatusReportReadBack (b : Bundle) (report : StatusReport) (read : Option Record) : Prop :=
  ∃ record, read = some record ∧ record.type = recordStatusReport ∧ Identifies b record ∧
    record.statusReport.map (fun info => (info.status, info.reason)) =
      some (report.status, report.reason)

/-- A custody signal has come back. -/
def CustodySignalReadBack (b : Bundle) (signal : CustodySignal) (read : Option Record) : Prop :=
  ∃ record, read = some record ∧ record.type = recordCustodySignal ∧ Identifies b record ∧
    record.custodySignal = some signal

variable {uninit} {parser : RecordParser}

theorem status_waitForSdnv (hstatus : parser.status ≠ .done) (next : RecordParserStage) :
    (recordParserWaitForSdnv parser next).1.status ≠ .done := by
  unfold recordParserWaitForSdnv recordParserNext
  split
  · exact hstatus
  · exact hstatus
  · exact ParserStatus.noConfusion

/-- **No byte ends a record.** -/
theorem status_readByte (hstatus : parser.status ≠ .done) (byte : UInt8) :
    (recordParserReadByte uninit parser byte).status ≠ .done := by
  unfold recordParserReadByte
  cases parser.stage with
  | expectType =>
      dsimp only
      split_ifs
      · exact hstatus
      · exact hstatus
      · exact ParserStatus.noConfusion
  | expectReportFlags => exact hstatus
  | expectReportReason => exact hstatus
  | expectCustodyStatus => exact hstatus
  | expectFragmentOffset => exact status_waitForSdnv (by exact hstatus) _
  | expectFragmentLength => exact status_waitForSdnv (by exact hstatus) _
  | expectRecordDtnSeconds => exact status_waitForSdnv (by exact hstatus) _
  | expectRecordDtnNanoseconds => exact status_waitForSdnv (by exact hstatus) _
  | expectBundleCreationTimestamp =>
      dsimp only
      split
      · exact status_waitForSdnv (by exact hstatus) _
      · exact status_waitForSdnv (by exact hstatus) _
  | expectBundleCreationSequence => exact status_waitForSdnv (by exact hstatus) _
  | expectBundleSourceLength =>
      dsimp only
      split
      · exact status_waitForSdnv (by exact hstatus) _
      · exact status_waitForSdnv (by exact hstatus) _
  | expectBundleSourceEid => exact ParserStatus.noConfusion

theorem status_readBytes (data : List UInt8) (hstatus : parser.status ≠ .done) :
    (recordParserReadBytes uninit parser data).status ≠ .done := by
  induction data generalizing parser with
  | nil => exact hstatus
  | cons byte rest ih =>
      rw [recordParserReadBytes]
      split
      · exact ih (status_readByte hstatus byte)
      · exact hstatus

/-- **The parser returns nothing**, whatever it is given. -/
theorem parse_eq_none (data : List UInt8) :
    bundle6ParseAdministrativeRecord uninit data = none := by
  have hstatus : (recordParserReadBytes uninit (recordParserInit uninit) data).status ≠ .done :=
    status_readBytes data (by exact ParserStatus.noConfusion)
  rw [bundle6ParseAdministrativeRecord, if_neg hstatus]

/-- **No administrative record comes back**, neither a status report nor a custody signal. -/
theorem administrative_record_never_read_back (now millitime : UInt64) (b : Bundle)
    (localEid : CStr) (uninit : Uninit) :
    (∀ (report : StatusReport) (result : Bundle),
      bundle6GenerateStatusReport now millitime b report localEid = some result →
        ¬ StatusReportReadBack b report
          (bundle6ParseAdministrativeRecord uninit result.payload.data.bytes)) ∧
    ∀ (signal : CustodySignal) (result : Bundle),
      bundle6GenerateCustodySignal now millitime b signal localEid = some result →
        ¬ CustodySignalReadBack b signal
          (bundle6ParseAdministrativeRecord uninit result.payload.data.bytes) := by
  refine ⟨fun report result _ => ?_, fun signal result _ => ?_⟩
  · rintro ⟨record, hread, -⟩
    rw [parse_eq_none] at hread
    cases hread
  · rintro ⟨record, hread, -⟩
    rw [parse_eq_none] at hread
    cases hread

/-- A bundle of version 6 whose custodian and report-to endpoint are given. -/
def reportedBundle : Bundle :=
  { id := invId
    protocolVersion := 6
    procFlags := flagSingletonEndpoint
    ret := RetConstraints.none
    crcType := .crc16
    destination := "dtn:d".toList
    source := "dtn:s".toList
    reportTo := "dtn:r".toList
    currentCustodian := "dtn:c".toList
    creationTimestampMs := 10000
    sequenceNumber := 1
    lifetimeMs := 60000
    fragmentOffset := 0
    totalAduLength := 0
    primaryBlockLength := 0
    blocksBefore := []
    payload := ⟨1, blockFlagLastBlock, blockData [7], [], .none⟩
    blocksAfter := [] }

/-- Memory that was just requested. -/
def blankMemory : Uninit where
  record := ⟨0, 0, none, none, 0, 0, 0, 0, 0, 0, 0, []⟩
  statusReport := ⟨0, 0, 0, 0, 0, 0⟩
  custodySignal := ⟨false, 0⟩
  parser := ⟨.good, .expectType, sdnvReset, ⟨0, 0, none, none, 0, 0, 0, 0, 0, 0, 0, []⟩, 0, 0⟩

theorem administrative_record_never_read_back_sample :
    ∃ result signalResult,
      bundle6GenerateStatusReport 20 20000 reportedBundle ⟨1, 0, 0, 0, 0, 0⟩ "dtn:n".toList =
        some result ∧
      bundle6GenerateCustodySignal 20 20000 reportedBundle ⟨true, 0⟩ "dtn:n".toList =
        some signalResult ∧
      ¬ StatusReportReadBack reportedBundle ⟨1, 0, 0, 0, 0, 0⟩
        (bundle6ParseAdministrativeRecord blankMemory result.payload.data.bytes) ∧
      ¬ CustodySignalReadBack reportedBundle ⟨true, 0⟩
        (bundle6ParseAdministrativeRecord blankMemory signalResult.payload.data.bytes) := by
  have hnever := administrative_record_never_read_back 20 20000 reportedBundle "dtn:n".toList
    blankMemory
  exact ⟨_, _, rfl, rfl, hnever.1 _ _ rfl, hnever.2 _ _ rfl⟩

/-- Both records are generated, and neither is read back. -/
theorem administrative_record_not_parsed :
    (bundle6GenerateStatusReport 20 20000 reportedBundle ⟨1, 0, 0, 0, 0, 0⟩ "dtn:n".toList).map
        (fun result => bundle6ParseAdministrativeRecord blankMemory result.payload.data.bytes) =
      some none ∧
    (bundle6GenerateCustodySignal 20 20000 reportedBundle ⟨true, 0⟩ "dtn:n".toList).map
        (fun result => bundle6ParseAdministrativeRecord blankMemory result.payload.data.bytes) =
      some none := by
  constructor <;> rfl

end Bundle6
