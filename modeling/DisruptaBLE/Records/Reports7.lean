import DisruptaBLE.Bundle7.EidRoundTrip
import DisruptaBLE.Records.Record
import Mathlib.Data.Nat.Bitwise

/-!
# Status reports of version 7

`components/bundle7/reports.c`: the generator writes a status report in nested arrays into a buffer
whose size it has computed before, and the parser reads it back array by array.

The report has an assertion for each of four flags (`statusFlags`); version 7 has no custody.
What the parser reads back is what was reported (`status_report_round_trip`), with the source
identifier as it is read back.  Requests for memory are served.
-/

namespace Bundle7

open Cbor BundleProcessor BundleStorage PtrHeap Records

/-- The functions of TinyCBOR for boolean values. -/
structure TinyCborBool extends TinyCbor where
  /-- `cbor_value_is_boolean` -/
  isBoolean : CborValue → Bool
  /-- `cbor_value_get_boolean` -/
  getBoolean : CborValue → Bool
  /-- `cbor_encode_boolean` -/
  encodeBoolean : Bool → List UInt8

/-- TinyCBOR, as it is documented: a boolean is a simple value of one byte. -/
def referenceBool : TinyCborBool where
  toTinyCbor := reference
  isBoolean := fun it => it.type = some .simple &&
    (it.rest.head? = some 0xf4 || it.rest.head? = some 0xf5)
  getBoolean := fun it => it.rest.head? = some 0xf5
  encodeBoolean := fun b => if b then [0xf5] else [0xf4]

/-- TinyCBOR does what its documentation says, also for boolean values. -/
structure TinyCborBool.Documented (T : TinyCborBool) : Prop where
  base : T.toTinyCbor.Documented
  isBoolean : T.isBoolean = referenceBool.isBoolean
  getBoolean : T.getBoolean = referenceBool.getBoolean
  encodeBoolean : T.encodeBoolean = referenceBool.encodeBoolean

theorem referenceBool_documented : referenceBool.Documented :=
  ⟨reference_documented, rfl, rfl, rfl⟩

theorem TinyCborBool.Documented.eq_reference {T : TinyCborBool} (h : T.Documented) :
    T = referenceBool := by
  obtain ⟨hbase, h₁, h₂, h₃⟩ := h
  have hT := hbase.eq_reference
  cases T
  simp only at hT h₁ h₂ h₃
  subst hT h₁ h₂ h₃
  rfl

variable (T : TinyCborBool)

/-! ## Generator -/

/-- `BUNDLE_FLAG_REPORT_STATUS_TIME`. -/
def flagReportStatusTime : UInt32 := 0x000040

/-- `bundle7_eid_get_max_serialized_size`. -/
def bundle7EidGetMaxSerializedSize (eid : CStr) : Nat :=
  eid.length + bundle7CborUintSizeof (UInt64.ofNat eid.length)

/-- `record_get_last_fields_size`. -/
def recordGetLastFieldsSize (b : Bundle) : Nat :=
  bundle7EidGetMaxSerializedSize b.source +
    (1 + bundle7CborUintSizeof b.creationTimestampMs + bundle7CborUintSizeof b.sequenceNumber) +
    (if b.isFragmented then
      bundle7CborUintSizeof b.fragmentOffset.toUInt64 + bundle7CborUintSizeof
        b.payloadLength.toUInt64
    else 0)

/-- `serialize_last_fields`. -/
def serializeLastFields (b : Bundle) : Option (List UInt8) :=
  match bundle7EidSerializeCbor T.toTinyCbor b.source with
  | none => none
  | some eid =>
      some (eid ++
        (T.createArray 2 ++ T.encodeUint b.creationTimestampMs ++ T.encodeUint b.sequenceNumber) ++
        (if b.isFragmented then
          T.encodeUint b.fragmentOffset.toUInt64 ++ T.encodeUint b.payloadLength.toUInt64
        else []))

/-- The time of a report for a flag. -/
def reportTime (report : StatusReport) (flag : UInt32) : UInt64 :=
  if flag = statusReceived then report.bundleReceivedTime
  else if flag = statusForwarded then report.bundleForwardedTime
  else if flag = statusDelivered then report.bundleDeliveredTime
  else if flag = statusDeleted then report.bundleDeletedTime
  else 0

/-- `serialize_status_info`. -/
def serializeStatusInfo (b : Bundle) (report : StatusReport) (flag : UInt32) : List UInt8 :=
  if hasFlag report.status flag then
    if hasFlag b.procFlags flagReportStatusTime then
      T.createArray 2 ++ T.encodeBoolean true ++ T.encodeUint (reportTime report flag)
    else T.createArray 1 ++ T.encodeBoolean true
  else T.createArray 1 ++ T.encodeBoolean false

/-- What `bundle7_generate_status_report` writes. -/
def statusReportContent (b : Bundle) (report : StatusReport) : Option (List UInt8) :=
  match serializeLastFields T b with
  | none => none
  | some lastFields =>
      some (T.createArray 2 ++ T.encodeUint recordStatusReport.toUInt64 ++
        T.createArray (if b.isFragmented then 6 else 4) ++
        (T.createArray 4 ++ serializeStatusInfo T b report statusReceived ++
          serializeStatusInfo T b report statusForwarded ++
          serializeStatusInfo T b report statusDelivered ++
          serializeStatusInfo T b report statusDeleted) ++
        T.encodeUint report.reason.toUInt64 ++ lastFields)

/-- The size of the buffer of `bundle7_generate_status_report`. -/
def statusReportBufferSize (b : Bundle) : Nat := 49 + recordGetLastFieldsSize b

/-- `bundle7_create_local`. -/
def bundle7CreateLocal (payload : List UInt8) (source destination : CStr)
    (creationTimeS lifetimeS : UInt64) (procFlags : UInt32) : Bundle :=
  let b : Bundle :=
    { id := invId
      protocolVersion := 7
      procFlags := procFlags
      ret := RetConstraints.none
      crcType := .crc16
      destination := destination
      source := source
      reportTo := eidNone
      currentCustodian := []
      creationTimestampMs := creationTimeS * 1000
      sequenceNumber := 1
      lifetimeMs := lifetimeS * 1000
      fragmentOffset := 0
      totalAduLength := 0
      primaryBlockLength := 0
      blocksBefore := []
      payload := ⟨1, 0, Records.blockData payload, [], .none⟩
      blocksAfter := [] }
  { b with primaryBlockLength := bundle7RecalculatePrimaryBlockLength b }

/-- `bundle7_generate_status_report`.  The encoder does not write beyond its buffer, and what it has
then left out is not a report. -/
def bundle7GenerateStatusReport (now : UInt64) (b : Bundle) (report : StatusReport)
    (source : CStr) : Option Bundle :=
  match statusReportContent T b report with
  | none => none
  | some content =>
      if statusReportBufferSize b < content.length then none
      else
        let lifetimeSeconds := (bundleGetExpirationTimeS now b).toInt64 - now.toInt64
        if lifetimeSeconds < 0 then none
        else
          some (bundle7CreateLocal content source b.reportTo now lifetimeSeconds.toUInt64
            flagAdministrativeRecord)

/-! ## Parser -/

/-- The iterator behind the item, unless that fails. -/
def advance (it : CborValue) : Option CborValue := (checked (T.advanceFixed it)).toOption

/-- A number, and the iterator behind it. -/
def parseUint (it : CborValue) : Option (UInt64 × CborValue) :=
  if it.isUnsignedInteger then (advance T it).map fun next => (T.getUint64 it, next) else none

/-- Into an array. -/
def enterArray (it : CborValue) : Option CborValue :=
  if it.isArray then (T.enterContainer it).toOption else none

/-- Out of an array, of which all items have been read. -/
def leaveAtEnd (it nested : CborValue) : Option CborValue :=
  if nested.atEnd then (T.leaveContainer it nested).toOption else none

/-- A report with a time for a flag. -/
def setReportTime (report : StatusReport) (flag : UInt32) (time : UInt64) : StatusReport :=
  if flag = statusReceived then { report with bundleReceivedTime := time }
  else if flag = statusForwarded then { report with bundleForwardedTime := time }
  else if flag = statusDelivered then { report with bundleDeliveredTime := time }
  else if flag = statusDeleted then { report with bundleDeletedTime := time }
  else report

/-- A round of the loop of `status_info`. -/
def parseAssertion (flag : UInt32) (report : StatusReport) (asserts : CborValue) :
    Option (StatusReport × CborValue) := do
  let assertion ← enterArray T asserts
  if !T.isBoolean assertion then none
  else
    let value := T.getBoolean assertion
    let report := if value then { report with status := report.status ||| flag } else report
    let assertion ← advance T assertion
    if !assertion.atEnd then
      let (time, assertion) ← parseUint T assertion
      let asserts ← leaveAtEnd T asserts assertion
      some (setReportTime report flag time, asserts)
    else
      let asserts ← leaveAtEnd T asserts assertion
      some (report, asserts)

/-- The flags of a status report, in the order of their assertions. -/
def assertedFlags : List UInt32 := [statusReceived, statusForwarded, statusDelivered, statusDeleted]

/-- The loop of `status_info`. -/
def parseAssertions : List UInt32 → StatusReport → CborValue → Option (StatusReport × CborValue)
  | [], report, asserts => some (report, asserts)
  | flag :: flags, report, asserts => do
      let (report, asserts) ← parseAssertion T flag report asserts
      parseAssertions flags report asserts

/-- The length of an array, when it is known. -/
def arrayLength (it : CborValue) : Option Nat :=
  if it.isArray && it.lengthKnown then (T.getArrayLength it).toOption else none

/-- `status_info`. -/
def statusInfo (report : StatusReport) (it : CborValue) : Option (StatusReport × CborValue) := do
  let length ← arrayLength T it
  if length ≠ 4 then none
  else
    let asserts ← (T.enterContainer it).toOption
    let (report, asserts) ← parseAssertions T assertedFlags report asserts
    let it ← (T.leaveContainer it asserts).toOption
    some (report, it)

/-- `parse_last_fields`. -/
def parseLastFields (record : Record) (it : CborValue) : Option (Record × CborValue) := do
  let (eid, it) ← (bundle7EidParseCbor T.toTinyCbor it).toOption
  let timestamp ← enterArray T it
  let (creationTimestamp, timestamp) ← parseUint T timestamp
  let (sequenceNumber, timestamp) ← parseUint T timestamp
  let it ← leaveAtEnd T it timestamp
  let record := { record with
    bundleSourceEidLength := UInt16.ofNat eid.length
    bundleSourceEid := eid
    bundleCreationTimestampMs := creationTimestamp
    bundleSequenceNumber := sequenceNumber }
  if !hasFlag record.flags recordFlagFragment then some (record, it)
  else
    let (fragmentOffset, it) ← parseUint T it
    let (fragmentLength, it) ← parseUint T it
    some ({ record with
      fragmentOffset := fragmentOffset.toUInt32
      fragmentLength := fragmentLength.toUInt32 }, it)

/-- `status_report`; `uninit` is what stands in memory that was just requested. -/
def statusReport (uninit : StatusReport) (record : Record) (it : CborValue) :
    Option (Record × CborValue) := do
  let length ← arrayLength T it
  if length ≠ 6 ∧ length ≠ 4 then none
  else
    let record :=
      if length = 6 then { record with flags := record.flags ||| recordFlagFragment } else record
    let report ← (T.enterContainer it).toOption
    let (info, report) ← statusInfo T { uninit with status := 0 } report
    let (reason, report) ← parseUint T report
    let record := { record with statusReport := some { info with reason := reason.toUInt32 } }
    let (record, report) ← parseLastFields T record report
    let it ← leaveAtEnd T it report
    some (record, it)

/-- `administrative_record`. -/
def administrativeRecord (uninit : StatusReport) (record : Record) (it : CborValue) :
    Option Record := do
  let nested ← enterArray T it
  let (type, nested) ← parseUint T nested
  let record := { record with type := type.toUInt32 }
  if record.type = recordStatusReport then
    let (record, nested) ← statusReport T uninit record nested
    if nested.atEnd then some record else none
  else none

/-- `bundle7_parse_administrative_record`; `uninit` and `uninitReport` are what stands in memory
that was just requested. -/
def bundle7ParseAdministrativeRecord (uninit : Record) (uninitReport : StatusReport)
    (data : List UInt8) : Option Record :=
  if data = [] then none
  else
    let record := { uninit with
      flags := 0
      eventTimestamp := 0
      eventNanoseconds := 0
      custodySignal := none
      statusReport := none }
    match T.parserInit data with
    | (some _, _) => none
    | (none, it) => administrativeRecord T uninitReport record it

/-! ## Items of a report -/

variable {l r s : List UInt8} {n v : Nat} {b : Bundle} {report : StatusReport}

theorem parseUint_stand (hv : v < 2 ^ 64) (hready : Ready n r) :
    parseUint referenceBool (stand (n + 1) (encodeHead .uint v ++ r)) =
      some (UInt64.ofNat v, stand n r) := by
  have hadvance : advance referenceBool (stand (n + 1) (encodeHead .uint v ++ r)) =
      some (stand n r) := by
    simp only [advance, referenceBool, advance_uint hv hready]
    rfl
  have hvalue : referenceBool.getUint64 (stand (n + 1) (encodeHead .uint v ++ r)) =
      UInt64.ofNat v := getUint64_stand hv
  rw [parseUint, if_pos (isUnsignedInteger_stand hv), hadvance, Option.map_some, hvalue]

theorem enterArray_stand (hv : v < 2 ^ 32 - 1) (hready : Ready v r) :
    enterArray referenceBool (stand (n + 1) (encodeHead .array v ++ r)) = some (stand v r) := by
  have henter : referenceBool.enterContainer (stand (n + 1) (encodeHead .array v ++ r)) =
      .ok (stand v r) := enter_array hv hready
  rw [enterArray, if_pos (isArray_stand (by omega)), henter]
  rfl

theorem leaveAtEnd_stand (hv : v < 2 ^ 64) (hready : Ready n s) :
    leaveAtEnd referenceBool (stand (n + 1) (encodeHead .array v ++ r)) (stand 0 s) =
      some (stand n s) := by
  have hleave : referenceBool.leaveContainer (stand (n + 1) (encodeHead .array v ++ r))
      (stand 0 s) =
      .ok (stand n s) := leave_array hv hready 0
  rw [leaveAtEnd, if_pos (by simp [atEnd_stand]), hleave]
  rfl

theorem arrayLength_stand (hv : v < 2 ^ 64) :
    arrayLength referenceBool (stand (n + 1) (encodeHead .array v ++ r)) = some v := by
  have hlength : referenceBool.getArrayLength (stand (n + 1) (encodeHead .array v ++ r)) = .ok v :=
    getArrayLength_stand hv
  rw [arrayLength, isArray_stand hv, lengthKnown_stand (by decide) hv, hlength]
  rfl

/-- The head of a boolean. -/
theorem readHead_boolean (value : Bool) (r : List UInt8) :
    ∃ h, readHead (referenceBool.encodeBoolean value ++ r) = .head h ∧ h.kind = .simple ∧
      h.size = 1 := by
  cases value <;> exact ⟨_, rfl, rfl, rfl⟩

theorem isBoolean_stand (value : Bool) :
    referenceBool.isBoolean (stand (n + 1) (referenceBool.encodeBoolean value ++ r)) = true := by
  obtain ⟨h, hread, hkind, -⟩ := readHead_boolean value r
  rw [stand_succ hread]
  cases value <;> simp [referenceBool, hkind]

theorem getBoolean_stand (value : Bool) :
    referenceBool.getBoolean (stand (n + 1) (referenceBool.encodeBoolean value ++ r)) = value := by
  cases value <;> simp [referenceBool]

theorem advance_boolean (value : Bool) (hready : Ready n r) :
    advance referenceBool (stand (n + 1) (referenceBool.encodeBoolean value ++ r)) =
      some (stand n r) := by
  obtain ⟨h, hread, hkind, hsize⟩ := readHead_boolean value r
  have hdrop : (referenceBool.encodeBoolean value ++ r).drop 1 = r := by
    cases value <;> rfl
  have hnext := preparseNext_stand hread (by rw [hkind]; decide) hready
  have hadvance : referenceBool.advanceFixed
      (stand (n + 1) (referenceBool.encodeBoolean value ++ r)) = (none, stand n r) := by
    rw [← hnext]
    change reference.advanceFixed _ = _
    simp only [reference, headOf_stand hread, rest_stand, hsize, hdrop]
  rw [advance, hadvance]
  rfl

theorem starts_boolean (value : Bool) (r : List UInt8) :
    Starts (referenceBool.encodeBoolean value ++ r) := by
  obtain ⟨h, hread, -⟩ := readHead_boolean value r
  exact ⟨h, hread⟩

/-! ## Assertions -/

@[simp] theorem status_setReportTime (flag : UInt32) (time : UInt64) :
    (setReportTime report flag time).status = report.status := by
  unfold setReportTime
  split_ifs <;> rfl

/-- A status with a flag when it is reported. -/
def assertFlag (reported status flag : UInt32) : UInt32 :=
  if hasFlag reported flag then status ||| flag else status

theorem starts_statusInfo (flag : UInt32) (r : List UInt8) :
    Starts (serializeStatusInfo referenceBool b report flag ++ r) := by
  have harray (k : Nat) (hk : k < 2 ^ 64) (s : List UInt8) :
      Starts (referenceBool.createArray k ++ s) := starts_encode (by decide) hk s
  unfold serializeStatusInfo
  split_ifs <;> simp only [List.append_assoc] <;> exact harray _ (by decide) _

/-- **An assertion** is read back. -/
theorem parseAssertion_stand (b : Bundle) (report report' : StatusReport) (flag : UInt32)
    (hready : Ready n r) :
    ∃ read, parseAssertion referenceBool flag report'
        (stand (n + 1) (serializeStatusInfo referenceBool b report flag ++ r)) =
          some (read, stand n r) ∧
      read.status = assertFlag report.status report'.status flag := by
  have harray (k : Nat) : referenceBool.createArray k = encodeHead .array k := rfl
  have huint (k : UInt64) : referenceBool.encodeUint k = encodeHead .uint k.toNat := rfl
  -- an assertion without a time
  have hplain (value : Bool) : ∃ read, parseAssertion referenceBool flag report'
      (stand (n + 1) (referenceBool.createArray 1 ++ referenceBool.encodeBoolean value ++ r)) =
        some (read, stand n r) ∧
      read.status = if value then report'.status ||| flag else report'.status := by
    rw [harray, List.append_assoc]
    unfold parseAssertion
    rw [enterArray_stand (by decide) (ready_of_starts (starts_boolean value r)),
      Option.bind_eq_bind,
      Option.bind_some, isBoolean_stand, getBoolean_stand, advance_boolean value (ready_zero r)]
    simp only [Bool.not_true, Bool.false_eq_true, if_false, Option.bind_eq_bind, Option.bind_some,
      atEnd_stand, beq_self_eq_true, leaveAtEnd_stand (show 1 < 2 ^ 64 by decide) hready]
    refine ⟨_, rfl, ?_⟩
    split <;> rfl
  unfold serializeStatusInfo assertFlag
  split
  · split
    · have htime := (reportTime report flag).toNat_lt
      have hstarts : Starts (encodeHead .uint (reportTime report flag).toNat ++ r) :=
        starts_encode (by decide) htime r
      rw [harray, huint, List.append_assoc, List.append_assoc]
      unfold parseAssertion
      rw [enterArray_stand (by decide) (ready_of_starts (starts_boolean true _)),
        Option.bind_eq_bind, Option.bind_some, isBoolean_stand, getBoolean_stand,
        advance_boolean true (ready_of_starts hstarts)]
      simp only [Bool.not_true, Bool.false_eq_true, if_false, Option.bind_eq_bind, Option.bind_some,
        atEnd_stand, parseUint_stand htime (ready_zero r),
        leaveAtEnd_stand (show 2 < 2 ^ 64 by decide) hready]
      exact ⟨_, rfl, by simp⟩
    · obtain ⟨read, hread, hstatus⟩ := hplain true
      exact ⟨read, hread, hstatus⟩
  · obtain ⟨read, hread, hstatus⟩ := hplain false
    exact ⟨read, hread, hstatus⟩

/-- **All assertions** are read back, one after the other. -/
theorem parseAssertions_stand (b : Bundle) (report report' : StatusReport) (flags : List UInt32)
    (r : List UInt8) :
    ∃ read, parseAssertions referenceBool flags report' (stand flags.length
        (flags.flatMap (serializeStatusInfo referenceBool b report) ++ r)) =
          some (read, stand 0 r) ∧
      read.status = flags.foldl (assertFlag report.status) report'.status := by
  induction flags generalizing report' with
  | nil => exact ⟨report', rfl, rfl⟩
  | cons flag flags ih =>
      have hready : Ready flags.length
          (flags.flatMap (serializeStatusInfo referenceBool b report) ++ r) := by
        cases flags with
        | nil => exact ready_zero _
        | cons next flags =>
            rw [List.flatMap_cons, List.append_assoc]
            exact ready_of_starts (starts_statusInfo next _)
      obtain ⟨first, hfirst, hstatus⟩ :=
        parseAssertion_stand b report report' flag hready
      obtain ⟨read, hread, hall⟩ := ih first
      refine ⟨read, ?_, ?_⟩
      · rw [List.flatMap_cons, List.append_assoc, List.length_cons, parseAssertions, hfirst,
          Option.bind_eq_bind, Option.bind_some]
        exact hread
      · rw [List.foldl_cons, ← hstatus]
        exact hall

/-- The flags of which a status report has assertions. -/
def statusFlags : UInt32 := statusReceived ||| statusForwarded ||| statusDelivered ||| statusDeleted

/-- A flag of one bit is set, or nothing of it. -/
theorem assertFlag_eq (reported status : UInt32) {flag : UInt32} (k : Nat)
    (hflag : flag.toNat = 2 ^ k) :
    assertFlag reported status flag = status ||| (reported &&& flag) := by
  have hbit : (reported &&& flag).toNat = (reported.toNat.testBit k).toNat * 2 ^ k := by
    rw [UInt32.toNat_and, hflag, Nat.and_two_pow]
  unfold assertFlag hasFlag
  cases hset : reported.toNat.testBit k with
  | true =>
      have hall : reported &&& flag = flag := by
        apply UInt32.toNat_inj.mp
        rw [hbit, hset, hflag]
        simp
      have hne : (flag != 0) = true := by
        simp only [bne_iff_ne, ne_eq]
        rintro rfl
        exact absurd hflag.symm (Nat.ne_of_gt (Nat.two_pow_pos k))
      rw [hall, hne]
      rfl
  | false =>
      have hnone : reported &&& flag = 0 := by
        apply UInt32.toNat_inj.mp
        rw [hbit, hset]
        simp
      rw [hnone]
      simp

theorem foldl_assertedFlags (reported : UInt32) :
    assertedFlags.foldl (assertFlag reported) 0 = reported &&& statusFlags := by
  simp only [assertedFlags, List.foldl_cons, List.foldl_nil]
  rw [assertFlag_eq reported _ 4 rfl, assertFlag_eq reported _ 3 rfl,
    assertFlag_eq reported _ 2 rfl, assertFlag_eq reported _ 0 rfl]
  apply UInt32.toNat_inj.mp
  simp only [statusFlags, UInt32.zero_or, UInt32.toNat_or, UInt32.toNat_and,
    Nat.and_or_distrib_left]

/-- **The status** is read back. -/
theorem statusInfo_stand (b : Bundle) (report : StatusReport) {report' : StatusReport}
    (hzero : report'.status = 0) (hready : Ready n r) :
    ∃ read, statusInfo referenceBool report' (stand (n + 1) (encodeHead .array 4 ++
        (assertedFlags.flatMap (serializeStatusInfo referenceBool b report) ++ r))) =
          some (read, stand n r) ∧
      read.status = report.status &&& statusFlags := by
  obtain ⟨read, hread, hstatus⟩ :=
    parseAssertions_stand b report report' assertedFlags r
  have hstarts :
      Starts (assertedFlags.flatMap (serializeStatusInfo referenceBool b report) ++ r) := by
    rw [assertedFlags, List.flatMap_cons, List.append_assoc]
    exact starts_statusInfo _ _
  have henter : referenceBool.enterContainer (stand (n + 1) (encodeHead .array 4 ++
      (assertedFlags.flatMap (serializeStatusInfo referenceBool b report) ++ r))) =
        .ok (stand 4 (assertedFlags.flatMap (serializeStatusInfo referenceBool b report) ++ r)) :=
    enter_array (by decide) (ready_of_starts hstarts)
  have hleave : referenceBool.leaveContainer (stand (n + 1) (encodeHead .array 4 ++
      (assertedFlags.flatMap (serializeStatusInfo referenceBool b report) ++ r))) (stand 0 r) =
        .ok (stand n r) := leave_array (by decide) hready 0
  refine ⟨read, ?_, ?_⟩
  · unfold statusInfo
    rw [arrayLength_stand (by decide), henter]
    simp only [Option.bind_eq_bind, Option.bind_some, ne_eq, not_true_eq_false, if_false,
      Except.toOption]
    change (parseAssertions referenceBool assertedFlags report'
      (stand assertedFlags.length _)).bind _ =
      _
    rw [hread, Option.bind_some]
    simp only [hleave, Option.bind_some]
  · rw [hstatus, hzero, foldl_assertedFlags]

/-! ## The last fields -/

/-- The fields that identify the bundle, with the data of a fragment. -/
structure Identifies (b : Bundle) (record : Record) : Prop where
  source : record.bundleSourceEid = readBack b.source
  creationTimestamp : record.bundleCreationTimestampMs = b.creationTimestampMs
  sequenceNumber : record.bundleSequenceNumber = b.sequenceNumber
  fragmentOffset : b.isFragmented = true → record.fragmentOffset = b.fragmentOffset
  fragmentLength : b.isFragmented = true → record.fragmentLength = b.payloadLength

theorem ofNat_toNat_toUInt32 (x : UInt32) : (UInt64.ofNat x.toUInt64.toNat).toUInt32 = x := by
  rw [UInt64.ofNat_toNat, UInt32.toUInt32_toUInt64]

/-- **The last fields** are read back. -/
theorem parseLastFields_stand (record : Record) {wire : List UInt8} (hstring : IsCString b.source)
    (hlen : b.source.length < 2 ^ 64) (hwire : serializeLastFields referenceBool b = some wire)
    (hflags : hasFlag record.flags recordFlagFragment = b.isFragmented) (r : List UInt8) :
    ∃ read, parseLastFields referenceBool record
        (stand (if b.isFragmented then 4 else 2) (wire ++ r)) = some (read, stand 0 r) ∧
      Identifies b read ∧ read.flags = record.flags ∧ read.type = record.type ∧
      read.statusReport = record.statusReport := by
  have h64 (x : UInt64) : x.toNat < 2 ^ 64 := x.toNat_lt
  have hnumber (x : UInt64) (s : List UInt8) : Starts (encodeHead .uint x.toNat ++ s) :=
    starts_encode (by decide) (h64 x) s
  unfold serializeLastFields at hwire
  split at hwire
  · cases hwire
  · next eid heid =>
    obtain rfl := Option.some.inj hwire
    -- the items behind the identifier
    obtain ⟨m, rest, hcount, hrest, hready⟩ : ∃ m rest,
        (if b.isFragmented then 4 else 2) = m + 2 ∧
        (if b.isFragmented then
            referenceBool.encodeUint b.fragmentOffset.toUInt64 ++
              referenceBool.encodeUint b.payloadLength.toUInt64
          else []) ++ r = rest ∧ Ready m rest := by
      cases b.isFragmented with
      | true =>
          refine ⟨2, _, rfl, rfl, ready_of_starts ?_⟩
          simp only [if_true, List.append_assoc]
          exact hnumber _ _
      | false => exact ⟨0, _, rfl, rfl, ready_zero _⟩
    have hlayout : eid ++ (referenceBool.createArray 2 ++
        referenceBool.encodeUint b.creationTimestampMs ++
        referenceBool.encodeUint b.sequenceNumber) ++
        (if b.isFragmented then
            referenceBool.encodeUint b.fragmentOffset.toUInt64 ++
              referenceBool.encodeUint b.payloadLength.toUInt64
          else []) ++ r =
        eid ++ (encodeHead .array 2 ++ (encodeHead .uint b.creationTimestampMs.toNat ++
          (encodeHead .uint b.sequenceNumber.toNat ++ rest))) := by
      rw [← hrest]
      simp [referenceBool, reference]
    rw [hlayout, hcount]
    have hparse : bundle7EidParseCbor referenceBool.toTinyCbor (stand (m + 2) (eid ++
        (encodeHead .array 2 ++ (encodeHead .uint b.creationTimestampMs.toNat ++
          (encodeHead .uint b.sequenceNumber.toNat ++ rest))))) =
        .ok (readBack b.source, stand (m + 1) (encodeHead .array 2 ++
          (encodeHead .uint b.creationTimestampMs.toNat ++
            (encodeHead .uint b.sequenceNumber.toNat ++ rest)))) :=
      parse_serialized (ready_of_starts (starts_encode (by decide) (by decide) _)) hstring
        (fun _ => hlen) heid
    unfold parseLastFields
    rw [hparse]
    simp only [Except.toOption, Option.bind_eq_bind, Option.bind_some,
      enterArray_stand (show 2 < 2 ^ 32 - 1 by decide) (ready_of_starts (hnumber _ _)),
      parseUint_stand (h64 b.creationTimestampMs) (ready_of_starts (hnumber _ _)),
      parseUint_stand (h64 b.sequenceNumber) (ready_zero _),
      leaveAtEnd_stand (show 2 < 2 ^ 64 by decide) hready, UInt64.ofNat_toNat, hflags]
    cases hfragment : b.isFragmented with
    | false =>
        simp only [hfragment] at hrest hcount
        obtain rfl : m = 0 := by
          have hm : 2 = m + 2 := hcount
          omega
        rw [← hrest]
        refine ⟨_, rfl, ⟨rfl, rfl, rfl, ?_, ?_⟩, rfl, rfl, rfl⟩ <;> simp [hfragment]
    | true =>
        simp only [hfragment] at hrest hcount
        obtain rfl : m = 2 := by
          have hm : 4 = m + 2 := hcount
          omega
        have hitems : rest = encodeHead .uint b.fragmentOffset.toUInt64.toNat ++
            (encodeHead .uint b.payloadLength.toUInt64.toNat ++ r) := by
          rw [← hrest]
          simp [referenceBool, reference]
        rw [hitems]
        simp only [Bool.not_true, Bool.false_eq_true, if_false, Option.bind_some,
          parseUint_stand (h64 b.fragmentOffset.toUInt64) (ready_of_starts (hnumber _ _)),
          parseUint_stand (h64 b.payloadLength.toUInt64) (ready_zero _)]
        exact ⟨_, rfl, ⟨rfl, rfl, rfl, fun _ => ofNat_toNat_toUInt32 _,
          fun _ => ofNat_toNat_toUInt32 _⟩, rfl, rfl, rfl⟩

/-! ## The report -/

/-- What a record says about a bundle and its status. -/
structure Reported (b : Bundle) (report : StatusReport) (record : Record) : Prop where
  type : record.type = recordStatusReport
  status : ∃ read, record.statusReport = some read ∧
    read.status = report.status &&& statusFlags ∧ read.reason = report.reason
  fragment : hasFlag record.flags recordFlagFragment = b.isFragmented
  identifies : Identifies b record

/-- The report within its record. -/
theorem statusReport_stand (report : StatusReport) {record : Record} {uninit : StatusReport}
    {lastFields : List UInt8} (hstring : IsCString b.source) (hlen : b.source.length < 2 ^ 64)
    (hflags : record.flags = 0)
    (hwire : serializeLastFields referenceBool b = some lastFields) (r : List UInt8) :
    ∃ read, statusReport referenceBool uninit record
        (stand 1 (encodeHead .array (if b.isFragmented then 6 else 4) ++
          (encodeHead .array 4 ++ (assertedFlags.flatMap
            (serializeStatusInfo referenceBool b report) ++
            (encodeHead .uint report.reason.toUInt64.toNat ++ (lastFields ++ r)))))) =
          some (read, stand 0 r) ∧
      read.type = record.type ∧ hasFlag read.flags recordFlagFragment = b.isFragmented ∧
      Identifies b read ∧ ∃ info, read.statusReport = some info ∧
        info.status = report.status &&& statusFlags ∧ info.reason = report.reason := by
  have hreason : report.reason.toUInt64.toNat < 2 ^ 64 := report.reason.toUInt64.toNat_lt
  have hstarts : Starts (lastFields ++ r) := by
    unfold serializeLastFields at hwire
    split at hwire
    · cases hwire
    · next eid heid =>
      obtain rfl := Option.some.inj hwire
      rw [List.append_assoc, List.append_assoc]
      exact starts_eid heid _
  have hcode : Starts (encodeHead .uint report.reason.toUInt64.toNat ++ (lastFields ++ r)) :=
    starts_encode (by decide) hreason _
  have hinfo : Starts (encodeHead .array 4 ++
      (assertedFlags.flatMap (serializeStatusInfo referenceBool b report) ++
        (encodeHead .uint report.reason.toUInt64.toNat ++ (lastFields ++ r)))) :=
    starts_encode (by decide) (by decide) _
  -- the number of items is that of the status, the reason and the last fields
  obtain ⟨m, hcount, hbound, hm⟩ : ∃ m, (if b.isFragmented then 6 else 4) = m + 2 ∧ m + 2 < 7 ∧
      m = (if b.isFragmented then 4 else 2) := by
    cases b.isFragmented with
    | true => exact ⟨4, rfl, by decide, rfl⟩
    | false => exact ⟨2, rfl, by decide, rfl⟩
  have hlength : (m + 2 = 6 ↔ b.isFragmented = true) ∧ (m + 2 = 6 ∨ m + 2 = 4) := by
    rw [hm]
    cases b.isFragmented <;> simp
  rw [hcount]
  have henter : referenceBool.enterContainer (stand 1 (encodeHead .array (m + 2) ++
      (encodeHead .array 4 ++ (assertedFlags.flatMap (serializeStatusInfo referenceBool b report) ++
        (encodeHead .uint report.reason.toUInt64.toNat ++ (lastFields ++ r)))))) =
      .ok (stand (m + 2) (encodeHead .array 4 ++
        (assertedFlags.flatMap (serializeStatusInfo referenceBool b report) ++
          (encodeHead .uint report.reason.toUInt64.toNat ++ (lastFields ++ r))))) :=
    enter_array (by omega) (ready_of_starts hinfo)
  obtain ⟨info, hread, hstatus⟩ := @statusInfo_stand _ (m + 1) b report
    { uninit with status := 0 } rfl (ready_of_starts hcode)
  -- the record with the flag of a fragment and the status
  obtain ⟨marked, hmarked, hmarkedType, hmarkedFlags⟩ : ∃ marked : Record,
      (if m + 2 = 6 then { record with flags := record.flags ||| recordFlagFragment } else record) =
        marked ∧ marked.type = record.type ∧
      hasFlag marked.flags recordFlagFragment = b.isFragmented := by
    by_cases hsix : m + 2 = 6
    · refine ⟨_, if_pos hsix, rfl, ?_⟩
      rw [hlength.1.mp hsix, hflags]
      exact (by decide : hasFlag (0 ||| recordFlagFragment) recordFlagFragment = true)
    · refine ⟨_, if_neg hsix, rfl, ?_⟩
      have hfragment : b.isFragmented = false := by
        cases h : b.isFragmented with
        | false => rfl
        | true => exact absurd (hlength.1.mpr h) hsix
      rw [hfragment, hflags]
      rfl
  obtain ⟨read, hlast, hidentifies, hreadFlags, hreadType, hreadReport⟩ :=
    parseLastFields_stand { marked with statusReport := some { info with reason := report.reason } }
      hstring hlen hwire hmarkedFlags r
  rw [← hm] at hlast
  refine ⟨read, ?_, hreadType.trans hmarkedType, ?_, hidentifies, _, hreadReport, hstatus, rfl⟩
  · unfold statusReport
    rw [arrayLength_stand (by omega)]
    simp only [Option.bind_eq_bind, Option.bind_some]
    rw [if_neg (by omega), henter]
    simp only [Except.toOption, Option.bind_some, hread, hmarked,
      parseUint_stand hreason (ready_of_starts hstarts), ofNat_toNat_toUInt32, hlast,
      leaveAtEnd_stand (show m + 2 < 2 ^ 64 by omega) (ready_zero r)]
  · rw [hreadFlags]
    exact hmarkedFlags

/-- **What was written of a report** is read back. -/
theorem parse_content {content : List UInt8} {uninit : Record} {uninitReport : StatusReport}
    (hstring : IsCString b.source) (hlen : b.source.length < 2 ^ 64)
    (hwire : statusReportContent referenceBool b report = some content) :
    ∃ read, bundle7ParseAdministrativeRecord referenceBool uninit uninitReport content = some read ∧
      Reported b report read := by
  unfold statusReportContent at hwire
  split at hwire
  · cases hwire
  · next lastFields hlast =>
    obtain ⟨k, hk⟩ : ∃ k, (if b.isFragmented then 6 else 4) = k := ⟨_, rfl⟩
    have hlayout : content = encodeHead .array 2 ++ (encodeHead .uint 1 ++ (encodeHead .array k ++
        (encodeHead .array 4 ++ (assertedFlags.flatMap
          (serializeStatusInfo referenceBool b report) ++
          (encodeHead .uint report.reason.toUInt64.toNat ++ (lastFields ++ [])))))) := by
      rw [← Option.some.inj hwire, ← hk]
      simp [assertedFlags, referenceBool, reference, recordStatusReport]
    have hkLt : k < 2 ^ 64 := by
      rw [← hk]
      split <;> decide
    rw [hlayout]
    have hstarts : Starts (encodeHead .array k ++ (encodeHead .array 4 ++
        (assertedFlags.flatMap (serializeStatusInfo referenceBool b report) ++
          (encodeHead .uint report.reason.toUInt64.toNat ++ (lastFields ++ []))))) :=
      starts_encode (by decide) hkLt _
    obtain ⟨record, hrecord⟩ : ∃ record : Record, record = { uninit with
        flags := 0
        eventTimestamp := 0
        eventNanoseconds := 0
        custodySignal := none
        statusReport := none
        type := (UInt64.ofNat 1).toUInt32 } := ⟨_, rfl⟩
    obtain ⟨read, hread, htype, hflags, hidentifies, hinfo⟩ :=
      @statusReport_stand b report record uninitReport lastFields hstring hlen
        (by rw [hrecord]) hlast
        []
    rw [hk] at hread
    refine ⟨read, ?_, ?_, hinfo, hflags, hidentifies⟩
    · unfold bundle7ParseAdministrativeRecord
      rw [if_neg (by simp [encodeHead])]
      have hinit (l : List UInt8) (hl : Starts (encodeHead .array 2 ++ l)) :
          referenceBool.parserInit (encodeHead .array 2 ++ l) =
            (none, stand 1 (encodeHead .array 2 ++ l)) := by
        obtain ⟨h, hl⟩ := hl
        simp [referenceBool, reference, preparseValue, stand, hl]
      rw [hinit _ (starts_encode (by decide) (by decide) _)]
      dsimp only
      unfold administrativeRecord
      simp only [Option.bind_eq_bind, Option.bind_some,
        enterArray_stand (show 2 < 2 ^ 32 - 1 by decide)
          (ready_of_starts (starts_encode (show Kind.uint ≠ .simple by decide)
            (show 1 < 2 ^ 64 by decide) _)),
        parseUint_stand (show 1 < 2 ^ 64 by decide) (ready_of_starts hstarts)]
      rw [if_pos (by decide), ← hrecord, hread]
      simp [atEnd_stand]
    · rw [htype, hrecord]
      rfl

/-! ## The size of the buffer -/

/-- The size of a number is that of its shortest form. -/
theorem length_encodeHead_uint (k : Kind) (num : UInt64) :
    (encodeHead k num.toNat).length = bundle7CborUintSizeof num := by
  rw [length_encodeHead]
  unfold bundle7CborUintSizeof
  simp only [UInt64.le_iff_toNat_le]
  have h16 : (0xFFFF : UInt64).toNat = 0xFFFF := rfl
  have h8 : (0xFF : UInt64).toNat = 0xFF := rfl
  have h32 : (0xFFFFFFFF : UInt64).toNat = 0xFFFFFFFF := rfl
  have h23 : (23 : UInt64).toNat = 23 := rfl
  rw [h16, h8, h32, h23]
  split_ifs <;> omega

theorem length_encodeHead_le (k : Kind) (v : Nat) : (encodeHead k v).length ≤ 9 := by
  rw [length_encodeHead]
  split_ifs <;> decide

theorem length_encodeHead_mono (k : Kind) {m n : Nat} (h : m ≤ n) :
    (encodeHead k m).length ≤ (encodeHead k n).length := by
  rw [length_encodeHead, length_encodeHead]
  split_ifs <;> omega

/-- A number has no fewer digits than bytes, up to 32 bits. -/
theorem length_encodeHead_le_digits (k : Kind) {v : Nat} (hv : v < 2 ^ 32) :
    (encodeHead k v).length ≤ (Nat.toDigits 10 v).length := by
  have hpos : 0 < (Nat.toDigits 10 v).length := Nat.length_toDigits_pos
  have hlt (j : Nat) (hj : 0 < j) (hle : (Nat.toDigits 10 v).length ≤ j) : v < 10 ^ j :=
    (Nat.length_toDigits_le_iff (by decide) hj).mp hle
  have h1 := hlt 1 (by decide)
  have h2 := hlt 2 (by decide)
  have h4 := hlt 4 (by decide)
  rw [length_encodeHead]
  split_ifs <;> omega

theorem length_serializeDtn (eid : CStr) :
    (serializeDtn reference eid).length =
      2 + (encodeHead .text (eid.length - 4)).length + (eid.length - 4) := by
  have hssp : (cBytes (eid.drop 4)).length = eid.length - 4 := by
    rw [cBytes, List.length_map, List.length_drop]
  have hscheme : (reference.createArray 2 ++ reference.encodeUint 1).length = 2 := rfl
  have htext : (reference.encodeTextString (cBytes (eid.drop 4))).length =
      (encodeHead .text (eid.length - 4)).length + (eid.length - 4) := by
    rw [← hssp]
    exact List.length_append
  rw [serializeDtn, List.length_append, hscheme, htext, Nat.add_assoc]

/-- The number of a node or a service, which is read from the digits of a name. -/
theorem length_encodeUint_le_digits {v : Nat} (hv : v < 2 ^ 32) :
    (reference.encodeUint (UInt32.ofNat v).toUInt64).length ≤ (Nat.toDigits 10 v).length := by
  have hval : (UInt32.ofNat v).toUInt64.toNat = v := by
    rw [UInt32.toNat_toUInt64, UInt32.toNat_ofNat', Nat.mod_eq_of_lt hv]
  calc (reference.encodeUint (UInt32.ofNat v).toUInt64).length
      = (encodeHead .uint (UInt32.ofNat v).toUInt64.toNat).length := rfl
    _ = (encodeHead .uint v).length := by rw [hval]
    _ ≤ (Nat.toDigits 10 v).length := length_encodeHead_le_digits .uint hv

theorem length_serializeIpn_le {nodenum servicenum : Nat} {bytes : List UInt8}
    (hnode : nodenum < 2 ^ 32) (hservice : servicenum < 2 ^ 32)
    (h : serializeIpn reference (ipnName nodenum servicenum) = some bytes) :
    bytes.length ≤ (ipnName nodenum servicenum).length := by
  unfold serializeIpn at h
  rw [sscanfIpn_ipnName] at h
  obtain rfl := Option.some.inj h
  have hnodeLen := length_encodeUint_le_digits hnode
  have hserviceLen := length_encodeUint_le_digits hservice
  have hscheme : (reference.createArray 2 ++ reference.encodeUint 2).length = 2 := rfl
  have harray : (reference.createArray 2).length = 1 := rfl
  have hname : (ipnName nodenum servicenum).length =
      4 + (Nat.toDigits 10 nodenum).length + 1 + (Nat.toDigits 10 servicenum).length := by
    have hipn : "ipn:".toList.length = 4 := rfl
    simp only [ipnName, List.length_append, List.length_cons, hipn]
    omega
  rw [List.length_append, hscheme, List.length_append, List.length_append, harray]
  omega

/-- **The bound on an identifier** holds for canonical ones. -/
theorem length_eid_le {eid : CStr} {bytes : List UInt8} (hcanonical : Canonical eid)
    (hlen : eid.length < 2 ^ 64) (hwire : bundle7EidSerializeCbor reference eid = some bytes) :
    bytes.length ≤ bundle7EidGetMaxSerializedSize eid := by
  have hsize : (UInt64.ofNat eid.length).toNat = eid.length := by
    rw [UInt64.toNat_ofNat', Nat.mod_eq_of_lt hlen]
  have hmax : bundle7EidGetMaxSerializedSize eid =
      eid.length + (encodeHead .text eid.length).length := by
    rw [bundle7EidGetMaxSerializedSize, ← length_encodeHead_uint .text, hsize]
  rw [hmax]
  unfold bundle7EidSerializeCbor at hwire
  split at hwire
  · next hnone =>
    subst hnone
    obtain rfl := Option.some.inj hwire
    decide
  · split at hwire
    · next hdtn =>
      obtain rfl := Option.some.inj hwire
      have hfour : 4 ≤ eid.length := by
        have htake := congrArg List.length hdtn
        rw [List.length_take] at htake
        have hd : "dtn:".toList.length = 4 := rfl
        omega
      have hmono := length_encodeHead_mono .text (Nat.sub_le eid.length 4)
      rw [length_serializeDtn]
      omega
    · next hdtn =>
      split at hwire
      · obtain hdtn' | ⟨nodenum, servicenum, -, hnode, -, hservice, rfl⟩ := hcanonical
        · exact absurd hdtn' hdtn
        · have hle := length_serializeIpn_le hnode hservice hwire
          omega
      · cases hwire

/-- An assertion takes no more than eleven bytes. -/
theorem length_statusInfo_le (flag : UInt32) :
    (serializeStatusInfo referenceBool b report flag).length ≤ 11 := by
  have hbool (value : Bool) : (referenceBool.encodeBoolean value).length = 1 := by
    cases value <;> rfl
  have hone : (referenceBool.createArray 1).length = 1 := rfl
  have htwo : (referenceBool.createArray 2).length = 1 := rfl
  have htime : (referenceBool.encodeUint (reportTime report flag)).length ≤ 9 :=
    length_encodeHead_le _ _
  unfold serializeStatusInfo
  split_ifs <;> simp only [List.length_append, hbool, hone, htwo] <;> omega

/-- **The size of the buffer is never exceeded.** -/
theorem length_content_le {content : List UInt8} (hcanonical : Canonical b.source)
    (hlen : b.source.length < 2 ^ 64) (hreason : report.reason < 24)
    (hwire : statusReportContent referenceBool b report = some content) :
    content.length ≤ statusReportBufferSize b := by
  have huint (x : UInt64) : (referenceBool.encodeUint x).length = bundle7CborUintSizeof x :=
    length_encodeHead_uint .uint x
  have htwo : (referenceBool.createArray 2).length = 1 := rfl
  have hfour : (referenceBool.createArray 4).length = 1 := rfl
  have hcount : (referenceBool.createArray (if b.isFragmented then 6 else 4)).length = 1 := by
    cases b.isFragmented <;> rfl
  have htype : (referenceBool.encodeUint recordStatusReport.toUInt64).length = 1 := rfl
  have hcode : (referenceBool.encodeUint report.reason.toUInt64).length = 1 := by
    have hlt : report.reason.toNat < 24 := UInt32.lt_iff_toNat_lt.mp hreason
    change (encodeHead .uint report.reason.toUInt64.toNat).length = 1
    rw [UInt32.toNat_toUInt64, length_encodeHead, if_pos hlt]
  have hreceived := @length_statusInfo_le b report statusReceived
  have hforwarded := @length_statusInfo_le b report statusForwarded
  have hdelivered := @length_statusInfo_le b report statusDelivered
  have hdeleted := @length_statusInfo_le b report statusDeleted
  unfold statusReportContent at hwire
  split at hwire
  · cases hwire
  · next lastFields hlast =>
    obtain rfl := Option.some.inj hwire
    have hfields : lastFields.length ≤ recordGetLastFieldsSize b := by
      unfold serializeLastFields at hlast
      split at hlast
      · cases hlast
      · next eid heid =>
        obtain rfl := Option.some.inj hlast
        have heidLen := length_eid_le hcanonical hlen heid
        unfold recordGetLastFieldsSize
        cases b.isFragmented <;>
          simp only [List.length_append, List.length_nil, htwo, huint, if_true, Bool.false_eq_true,
            if_false] <;> omega
    simp only [List.length_append, htwo, hfour, hcount, htype, hcode, statusReportBufferSize]
    omega

/-! ## Round trip -/

variable {T}

/-- **A status report is read back**, for every bundle with a canonical source: the flags that
version 7 has, the reason, and what identifies the bundle.  What is written fits the buffer. -/
theorem status_report_round_trip (hT : T.Documented) (hstring : IsCString b.source)
    (hcanonical : Canonical b.source) (hsize : statusReportBufferSize b < 2 ^ 32)
    (hreason : ∃ reason : ReportReason, report.reason = reason.code.toUInt32)
    (uninit : Record) (uninitReport : StatusReport) :
    (∀ content, statusReportContent T b report = some content →
      content.length ≤ statusReportBufferSize b) ∧
    ∀ (now : UInt64) (source : CStr) (result : Bundle),
      bundle7GenerateStatusReport T now b report source = some result →
      ∃ read, bundle7ParseAdministrativeRecord T uninit uninitReport result.payload.data.bytes =
          some read ∧
        Reported b report read ∧ read.bundleSourceEid = b.source := by
  obtain rfl := hT.eq_reference
  have hlen : b.source.length < 2 ^ 64 := by
    simp only [statusReportBufferSize, recordGetLastFieldsSize, bundle7EidGetMaxSerializedSize]
      at hsize
    omega
  have hsmall : report.reason < 24 := by
    obtain ⟨reason, hreason⟩ := hreason
    rw [hreason]
    cases reason <;> decide
  have hfits : ∀ content, statusReportContent referenceBool b report = some content →
      content.length ≤ statusReportBufferSize b :=
    fun content hcontent => length_content_le hcanonical hlen hsmall hcontent
  refine ⟨hfits, fun now source result hgen => ?_⟩
  unfold bundle7GenerateStatusReport at hgen
  split at hgen
  · cases hgen
  · next content hcontent =>
    have hle := hfits content hcontent
    rw [if_neg (Nat.not_lt.mpr hle)] at hgen
    dsimp only at hgen
    split at hgen
    · cases hgen
    · obtain rfl := Option.some.inj hgen
      have hdata : (bundle7CreateLocal content source b.reportTo now
          ((bundleGetExpirationTimeS now b).toInt64 - now.toInt64).toUInt64
          flagAdministrativeRecord).payload.data.bytes = content :=
        Records.bytes_blockData (by omega)
      rw [hdata]
      obtain ⟨read, hread, hreported⟩ := parse_content hstring hlen hcontent
      refine ⟨read, hread, hreported, ?_⟩
      rw [hreported.identifies.source]
      unfold statusReportContent serializeLastFields at hcontent
      cases heid : bundle7EidSerializeCbor reference b.source with
      | none =>
          have hnone : bundle7EidSerializeCbor referenceBool.toTinyCbor b.source = none := heid
          simp [hnone] at hcontent
      | some bytes => exact (readBack_eq_iff heid).mpr hcanonical

/-- A bundle of a source. -/
def reportedBundle (source : CStr) : Bundle :=
  { bundle7CreateLocal [7] source "dtn:x".toList 10 60 0 with reportTo := "dtn:r".toList }

/-- A status and no times. -/
def reportOf (status : UInt32) : StatusReport := ⟨status, 0, 0, 0, 0, 0⟩

/-- Memory that was not written yet. -/
def blankRecord : Record := ⟨0, 0, none, none, 0, 0, 0, 0, 0, 0, 0, []⟩

/-- What comes back of a report about a bundle from a source. -/
def reportedBack (source : CStr) (status : UInt32) : Option Record :=
  (bundle7GenerateStatusReport referenceBool 20 (reportedBundle source) (reportOf status)
    "dtn:n".toList).bind fun result =>
      bundle7ParseAdministrativeRecord referenceBool blankRecord (reportOf 0)
        result.payload.data.bytes

/-- A report about a bundle of `dtn:a` comes back. -/
theorem status_report_round_trip_dtn :
    ∃ read, reportedBack "dtn:a".toList 5 = some read ∧
      Reported (reportedBundle "dtn:a".toList) (reportOf 5) read ∧
      read.bundleSourceEid = "dtn:a".toList := by
  have hstring : IsCString "dtn:a".toList := by decide
  have hcanonical : Canonical "dtn:a".toList := Or.inl (by decide)
  have hgenerated : (bundle7GenerateStatusReport referenceBool 20 (reportedBundle "dtn:a".toList)
      (reportOf 5) "dtn:n".toList).isSome = true := by rfl
  obtain ⟨result, hresult⟩ := Option.isSome_iff_exists.mp hgenerated
  obtain ⟨read, hread, hreported⟩ := (@status_report_round_trip referenceBool
    (reportedBundle "dtn:a".toList) (reportOf 5) referenceBool_documented hstring hcanonical
    (by decide) ⟨.noInfo, rfl⟩ blankRecord (reportOf 0)).2 20 "dtn:n".toList result hresult
  refine ⟨read, ?_, hreported⟩
  unfold reportedBack
  rw [hresult]
  exact hread

/-- The flag for custody does not come back, and a number zero in a source is lost. -/
theorem status_report_not_read_back :
    (reportedBack "dtn:a".toList 3).map (fun read => read.statusReport.map (·.status)) =
      some (some 1) ∧
    (reportedBack "ipn:5.0".toList 1).map (·.bundleSourceEid) = some "ipn:5.".toList := by
  constructor <;> rfl

end Bundle7
