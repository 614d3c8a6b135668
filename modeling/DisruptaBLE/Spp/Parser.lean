import DisruptaBLE.Spp.Timecodes

/-!
# Headers of space packets

`components/spp/spp.c`, `spp_internal.c` and `spp_parser.c`: the primary header of a space
packet is three words of 16 bits, most significant octet first.  A secondary header is
a time code, ancillary data or both; the parser does not read ancillary data.

`parse_part1`, `parse_part2` and `parse_len` say that the words of a primary header are
parsed into the fields that they were made of.
-/

namespace Spp

open PtrHeap
open ByteFeed (Fed)

/-! ## Definitions -/

/-- `SPP_MAX_APID`. -/
def maxApid : UInt16 := 0x7ff

/-- `SPP_MAX_SEGMENT_NUMBER`. -/
def maxSegmentNumber : UInt16 := 0x3fff

/-- `SPP_MAX_DATA_LENGTH`. -/
def maxDataLength : UInt64 := 65536

/-- `SPP_PRIMARY_HEADER_SIZE`. -/
def primaryHeaderSize : UInt64 := 6

/-- `enum spp_segment_status_t`. -/
inductive SegmentStatus where
  | continuation
  | first
  | last
  | unsegmented
  deriving DecidableEq, Repr

def SegmentStatus.code : SegmentStatus → UInt16
  | .continuation => 0
  | .first => 1
  | .last => 2
  | .unsegmented => 3

/-- The segment status of two bits. -/
def SegmentStatus.ofCode (code : UInt16) : SegmentStatus :=
  if code = 0 then .continuation
  else if code = 1 then .first
  else if code = 2 then .last
  else .unsegmented

/-- `struct spp_meta_t`. -/
structure SppMeta where
  isRequest : Bool
  apid : UInt16
  segmentStatus : SegmentStatus
  segmentNumber : UInt16
  dtnTimestamp : UInt64
  dtnCounter : UInt32
  deriving DecidableEq, Repr

/-- `struct spp_primary_header_t`. -/
structure PrimaryHeader where
  isRequest : Bool
  hasSecondaryHeader : Bool
  apid : UInt16
  segmentStatus : SegmentStatus
  segmentNumber : UInt16
  dataLength : UInt64
  deriving DecidableEq, Repr

/-- `struct spp_context_t`. -/
structure SppContext where
  timecode : Option TcContext
  ancillaryDataLen : UInt64
  deriving DecidableEq, Repr

/-- `write_uint16`. -/
def writeUint16 (val : UInt16) : List UInt8 :=
  [(val >>> 8).toUInt8, (val &&& 0xff).toUInt8]

/-- The first word of a primary header. -/
def PrimaryHeader.part1 (header : PrimaryHeader) : UInt16 :=
  (if header.isRequest then 0x1000 else 0) |||
    (if header.hasSecondaryHeader then 0x0800 else 0) ||| header.apid

/-- The second word of a primary header. -/
def PrimaryHeader.part2 (header : PrimaryHeader) : UInt16 :=
  (header.segmentStatus.code <<< 14) ||| header.segmentNumber

/-- `spp_serialize_primary_header`. -/
def sppSerializePrimaryHeader (header : PrimaryHeader) : Option (List UInt8) :=
  if maxApid < header.apid then none
  else if maxDataLength < header.dataLength then none
  else if maxSegmentNumber < header.segmentNumber then none
  else
    some (writeUint16 header.part1 ++ writeUint16 header.part2 ++
      writeUint16 (header.dataLength - 1).toUInt16)

/-- The size of the time code of a context. -/
def SppContext.tcSize (ctx : SppContext) : UInt64 :=
  match ctx.timecode with
  | some tc => tcGetSize tc
  | none => 0

/-- The primary header that `spp_serialize_header` fills in. -/
def headerOf (ctx : SppContext) (metadata : SppMeta) (payloadLen : UInt64) : PrimaryHeader :=
  { isRequest := metadata.isRequest
    hasSecondaryHeader := decide (0 < ctx.ancillaryDataLen) || ctx.timecode.isSome
    apid := metadata.apid
    segmentStatus := metadata.segmentStatus
    segmentNumber := metadata.segmentNumber
    dataLength := payloadLen + ctx.ancillaryDataLen + ctx.tcSize }

/-- `spp_serialize_header`. -/
def sppSerializeHeader (ctx : SppContext) (metadata : SppMeta) (payloadLen : UInt64) :
    Option (List UInt8) := do
  let primary ← sppSerializePrimaryHeader (headerOf ctx metadata payloadLen)
  match ctx.timecode with
  | none => some primary
  | some tc =>
      let timecode ← tcSerialize tc metadata.dtnTimestamp metadata.dtnCounter
      some (primary ++ timecode)

/-- `spp_get_size`. -/
def sppGetSize (ctx : SppContext) (payloadLen : UInt64) : UInt64 :=
  if payloadLen = 0 ∧ ctx.ancillaryDataLen = 0 ∧ ctx.timecode.isNone then 0
  else ctx.ancillaryDataLen + payloadLen + primaryHeaderSize + ctx.tcSize

/-- `spp_check_first_byte`. -/
def sppCheckFirstByte (byte : UInt8) : Bool :=
  !(byte &&& 0xe0 != 0)

/-- `spp_parse_ph_p1`. -/
def sppParsePhP1 (word : UInt16) (header : PrimaryHeader) : PrimaryHeader :=
  { header with
    hasSecondaryHeader := word &&& 0x0800 != 0
    isRequest := word &&& 0x1000 != 0
    apid := word &&& 0x07ff }

/-- `spp_parse_ph_p2`. -/
def sppParsePhP2 (word : UInt16) (header : PrimaryHeader) : PrimaryHeader :=
  { header with
    segmentStatus := .ofCode ((word &&& 0xc000) >>> 14)
    segmentNumber := word &&& 0x3fff }

/-- `spp_parse_ph_len`. -/
def sppParsePhLen (word : UInt16) (header : PrimaryHeader) : PrimaryHeader :=
  { header with dataLength := word.toUInt64 + 1 }

/-- `enum parser_status`. -/
inductive ParserStatus where
  | good
  | done
  | error
  deriving DecidableEq, Repr

/-- `struct parser`. -/
structure ParserBase where
  status : ParserStatus
  flags : UInt8
  nextBytes : UInt64
  deriving DecidableEq, Repr

/-- `enum spp_parser_state`. -/
inductive SppParserState where
  | phP1Msb
  | phP1Lsb
  | phP2Msb
  | phP2Lsb
  | phLenMsb
  | phLenLsb
  | shTimecodeSubparser
  | shAncillarySubparser
  | dataSubparser
  deriving DecidableEq, Repr

def SppParserState.code : SppParserState → Nat
  | .phP1Msb => 0
  | .phP1Lsb => 1
  | .phP2Msb => 2
  | .phP2Lsb => 3
  | .phLenMsb => 4
  | .phLenLsb => 5
  | .shTimecodeSubparser => 6
  | .shAncillarySubparser => 7
  | .dataSubparser => 8

/-- `struct spp_parser`. -/
structure SppParser where
  base : ParserBase
  bufw : UInt16
  header : PrimaryHeader
  ctx : SppContext
  state : SppParserState
  tcParser : TcParser
  dataLength : UInt64
  dtnTimestamp : UInt64
  deriving DecidableEq, Repr

/-- `spp_parser_reset`. -/
def sppParserReset (p : SppParser) : SppParser :=
  { p with
    base := ⟨.good, 0, 0⟩
    state := .phP1Msb }

/-- `spp_parser_init`. -/
def sppParserInit (p : SppParser) (ctx : SppContext) : SppParser :=
  sppParserReset { p with ctx := ctx }

/-- The end of `spp_parse_byte` for a secondary header without a time code to be read. -/
def sppBehindTimecode (p : SppParser) : Bool × SppParser :=
  if 0 < p.ctx.ancillaryDataLen then (true, { p with state := .shAncillarySubparser })
  else (false, { p with state := .dataSubparser })

/-- `spp_parse_byte`. -/
def sppParseByte (p : SppParser) (byte : UInt8) : Except Fault (Bool × SppParser) :=
  match p.state with
  | .phP1Msb =>
      if !sppCheckFirstByte byte then
        let p := sppParserReset p
        .ok (true, { p with base := { p.base with status := .error } })
      else .ok (true, { p with bufw := byte.toUInt16 <<< 8, state := .phP1Lsb })
  | .phP1Lsb =>
      let bufw := p.bufw ||| byte.toUInt16
      .ok (true,
        { p with bufw := bufw, header := sppParsePhP1 bufw p.header, state := .phP2Msb })
  | .phP2Msb => .ok (true, { p with bufw := byte.toUInt16 <<< 8, state := .phP2Lsb })
  | .phP2Lsb =>
      let bufw := p.bufw ||| byte.toUInt16
      .ok (true,
        { p with bufw := bufw, header := sppParsePhP2 bufw p.header, state := .phLenMsb })
  | .phLenMsb => .ok (true, { p with bufw := byte.toUInt16 <<< 8, state := .phLenLsb })
  | .phLenLsb =>
      let bufw := p.bufw ||| byte.toUInt16
      let header := sppParsePhLen bufw p.header
      let p :=
        { p with
          bufw := bufw
          header := header
          dataLength := header.dataLength - p.ctx.ancillaryDataLen }
      if !header.hasSecondaryHeader then .ok (false, { p with state := .dataSubparser })
      else
        match p.ctx.timecode with
        | some tc =>
            .ok (true,
              { p with state := .shTimecodeSubparser, tcParser := tcParserInit tc p.tcParser })
        | none => .ok (sppBehindTimecode p)
  | .shTimecodeSubparser =>
      match tcParserFeed p.tcParser byte with
      | .error f => .error f
      | .ok (result, tcParser) =>
          let p := { p with dataLength := p.dataLength - 1, tcParser := tcParser }
          match result with
          | .good => .ok (true, p)
          | .error => .ok (false, p)
          | .done =>
              .ok (sppBehindTimecode { p with dtnTimestamp := tcGetDtnTimestamp tcParser })
  | .shAncillarySubparser => .error .assertFailed
  | .dataSubparser => .error .assertFailed

/-- `spp_parser_read`, with the number of octets that were read. -/
def sppParserRead (p : SppParser) (buffer : List UInt8) : Except Fault (Nat × SppParser) :=
  ByteFeed.read sppParseByte buffer p

/-- `spp_parser_get_meta`. -/
def sppParserGetMeta (p : SppParser) : Option SppMeta :=
  if p.state.code < SppParserState.shAncillarySubparser.code then none
  else
    some
      { isRequest := p.header.isRequest
        apid := p.header.apid
        segmentStatus := p.header.segmentStatus
        segmentNumber := p.header.segmentNumber
        dtnTimestamp := p.dtnTimestamp
        dtnCounter := 0 }

/-- `spp_parser_get_data_length`. -/
def sppParserGetDataLength (p : SppParser) : Option UInt64 :=
  if p.state.code < SppParserState.shAncillarySubparser.code then none
  else some p.dataLength

/-! ## Words -/

/-- **A word** is read as it was written. -/
theorem read_writeUint16 (val : UInt16) :
    ((val >>> 8).toUInt8.toUInt16 <<< 8) ||| (val &&& 0xff).toUInt8.toUInt16 = val := by
  have hval : val.toNat < 2 ^ 16 := val.toNat_lt
  have hhigh : ((val >>> 8).toUInt8.toUInt16 <<< 8).toNat = val.toNat / 256 * 2 ^ 8 := by
    rw [UInt16.toNat_shiftLeft, UInt8.toNat_toUInt16, UInt16.toNat_toUInt8,
      UInt16.toNat_shiftRight, Nat.shiftLeft_eq]
    change val.toNat >>> 8 % 256 * 256 % 2 ^ 16 = val.toNat / 256 * 256
    rw [Nat.shiftRight_eq_div_pow]
    omega
  have hlow : (val &&& 0xff).toUInt8.toUInt16.toNat = val.toNat % 256 := by
    rw [UInt8.toNat_toUInt16, UInt16.toNat_toUInt8, UInt16.toNat_and]
    change (val.toNat &&& 2 ^ 8 - 1) % 256 = _
    rw [Nat.and_two_pow_sub_one_eq_mod]
    omega
  have hlt : val.toNat % 256 < 2 ^ 8 := Nat.mod_lt _ (by decide)
  apply UInt16.toNat_inj.mp
  rw [UInt16.toNat_or, hhigh, hlow, ← Nat.shiftLeft_eq, ← Nat.shiftLeft_add_eq_or_of_lt hlt,
    Nat.shiftLeft_eq]
  omega

theorem or_and_distrib (a b mask : UInt16) :
    (a ||| b) &&& mask = (a &&& mask) ||| (b &&& mask) := by
  apply UInt16.toNat_inj.mp
  simp only [UInt16.toNat_and, UInt16.toNat_or, Nat.and_or_distrib_right]

/-- A mask of flags leaves out a field that fits below them. -/
theorem or_field_and_flag (flags : UInt16) {field low flag : UInt16}
    (hfield : field &&& low = field) (hflag : low &&& flag = 0) :
    (flags ||| field) &&& flag = flags &&& flag := by
  rw [or_and_distrib, ← hfield, UInt16.and_assoc, hflag, UInt16.and_zero, UInt16.or_zero]

/-- The mask of a field leaves out the flags. -/
theorem or_field_and_low {flags field low : UInt16} (hfield : field &&& low = field)
    (hflags : flags &&& low = 0) : (flags ||| field) &&& low = field := by
  rw [or_and_distrib, hflags, hfield, UInt16.zero_or]

theorem and_maxApid {apid : UInt16} (h : apid ≤ maxApid) : apid &&& 0x07ff = apid := by
  have hlt : apid.toNat < 2 ^ 11 := Nat.lt_succ_of_le (UInt16.le_iff_toNat_le.mp h)
  apply UInt16.toNat_inj.mp
  rw [UInt16.toNat_and]
  exact Nat.and_two_pow_sub_one_of_lt_two_pow hlt

theorem and_maxSegmentNumber {number : UInt16} (h : number ≤ maxSegmentNumber) :
    number &&& 0x3fff = number := by
  have hlt : number.toNat < 2 ^ 14 := Nat.lt_succ_of_le (UInt16.le_iff_toNat_le.mp h)
  apply UInt16.toNat_inj.mp
  rw [UInt16.toNat_and]
  exact Nat.and_two_pow_sub_one_of_lt_two_pow hlt

section Header

variable {header : PrimaryHeader}

/-- The first word of a header passes the check of its version. -/
theorem checkFirstByte_part1 (hapid : header.apid ≤ maxApid) :
    sppCheckFirstByte (header.part1 >>> 8).toUInt8 = true := by
  have hversion : header.part1 &&& 0xe000 = 0 := by
    rw [PrimaryHeader.part1, or_field_and_flag _ (and_maxApid hapid) rfl]
    cases header.isRequest <;> cases header.hasSecondaryHeader <;> rfl
  have hbyte : (header.part1 >>> 8).toUInt8 &&& (0xe0 : UInt8) = 0 := by
    have hshift : ((header.part1 &&& 0xe000) >>> 8).toUInt8 =
        (header.part1 >>> 8).toUInt8 &&& (0xe0 : UInt8) := by
      rw [UInt16.shiftRight_and, UInt16.toUInt8_and]
      rfl
    rw [← hshift, hversion]
    rfl
  unfold sppCheckFirstByte
  rw [hbyte]
  rfl

/-- The fields of the first word. -/
theorem parse_part1 (hapid : header.apid ≤ maxApid) (old : PrimaryHeader) :
    sppParsePhP1 header.part1 old =
      { old with
        isRequest := header.isRequest
        hasSecondaryHeader := header.hasSecondaryHeader
        apid := header.apid } := by
  have hfield := and_maxApid hapid
  have hrequest : (header.part1 &&& 0x1000 != 0) = header.isRequest := by
    rw [PrimaryHeader.part1, or_field_and_flag _ hfield rfl]
    cases header.isRequest <;> cases header.hasSecondaryHeader <;> rfl
  have hsecondary : (header.part1 &&& 0x0800 != 0) = header.hasSecondaryHeader := by
    rw [PrimaryHeader.part1, or_field_and_flag _ hfield rfl]
    cases header.isRequest <;> cases header.hasSecondaryHeader <;> rfl
  have hapid' : header.part1 &&& 0x07ff = header.apid := by
    apply or_field_and_low hfield
    cases header.isRequest <;> cases header.hasSecondaryHeader <;> rfl
  unfold sppParsePhP1
  rw [hrequest, hsecondary, hapid']

/-- The fields of the second word. -/
theorem parse_part2 (hnumber : header.segmentNumber ≤ maxSegmentNumber) (old : PrimaryHeader) :
    sppParsePhP2 header.part2 old =
      { old with
        segmentStatus := header.segmentStatus
        segmentNumber := header.segmentNumber } := by
  have hfield := and_maxSegmentNumber hnumber
  have hstatus : .ofCode ((header.part2 &&& 0xc000) >>> 14) = header.segmentStatus := by
    rw [PrimaryHeader.part2, or_field_and_flag _ hfield rfl]
    cases header.segmentStatus <;> rfl
  have hnumber' : header.part2 &&& 0x3fff = header.segmentNumber := by
    apply or_field_and_low hfield
    cases header.segmentStatus <;> rfl
  unfold sppParsePhP2
  rw [hstatus, hnumber']

/-- The length of the data is written without its first octet. -/
theorem parse_len {dataLength : UInt64} (hpos : 1 ≤ dataLength) (hle : dataLength ≤ maxDataLength)
    (old : PrimaryHeader) :
    sppParsePhLen (dataLength - 1).toUInt16 old = { old with dataLength := dataLength } := by
  have hpos' : 1 ≤ dataLength.toNat := UInt64.le_iff_toNat_le.mp hpos
  have hle' : dataLength.toNat ≤ 65536 := UInt64.le_iff_toNat_le.mp hle
  have hlength : (dataLength - 1).toUInt16.toUInt64 + 1 = dataLength := by
    apply UInt64.toNat_inj.mp
    rw [UInt64.toNat_add, UInt16.toNat_toUInt64, UInt64.toNat_toUInt16,
      UInt64.toNat_sub_of_le _ _ hpos]
    change ((dataLength.toNat - 1) % 2 ^ 16 + 1) % 2 ^ 64 = dataLength.toNat
    omega
  unfold sppParsePhLen
  rw [hlength]

end Header

end Spp
