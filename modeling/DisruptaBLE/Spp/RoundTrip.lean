import DisruptaBLE.Spp.Parser

/-!
# Headers of space packets are read back

The octets that `spp_serialize_header` writes are a course of the parser: three words of a
primary header (`fed_part1`, `fed_part2`, `fed_len_last`) and the octets of a time code
(`fed_behind_primary`).  A course may come in any segments, so `header_round_trip` holds
for any of them.
-/

namespace Spp

open PtrHeap
open ByteFeed (Fed)

/-! ## The primary header -/

section Primary

variable {p : SppParser} {word : UInt16}

theorem fed_part1 (hstate : p.state = .phP1Msb)
    (hversion : sppCheckFirstByte (word >>> 8).toUInt8 = true) :
    Fed sppParseByte p (writeUint16 word) true
      { p with bufw := word, header := sppParsePhP1 word p.header, state := .phP2Msb } := by
  have hfirst : sppParseByte p (word >>> 8).toUInt8 =
      .ok (true,
        { p with bufw := (word >>> 8).toUInt8.toUInt16 <<< 8, state := .phP1Lsb }) := by
    unfold sppParseByte
    rw [hstate]
    dsimp only
    rw [hversion]
    rfl
  apply Fed.more hfirst
  apply Fed.more _ .nil
  unfold sppParseByte
  dsimp only
  rw [read_writeUint16]

theorem fed_part2 (hstate : p.state = .phP2Msb) :
    Fed sppParseByte p (writeUint16 word) true
      { p with bufw := word, header := sppParsePhP2 word p.header, state := .phLenMsb } := by
  have hfirst : sppParseByte p (word >>> 8).toUInt8 =
      .ok (true,
        { p with bufw := (word >>> 8).toUInt8.toUInt16 <<< 8, state := .phP2Lsb }) := by
    unfold sppParseByte
    rw [hstate]
  apply Fed.more hfirst
  apply Fed.more _ .nil
  unfold sppParseByte
  dsimp only
  rw [read_writeUint16]

/-- The parser behind the words of a primary header. -/
def SppParser.behindWords (p : SppParser) (word : UInt16) : SppParser :=
  { p with
    bufw := word
    header := sppParsePhLen word p.header
    dataLength := (sppParsePhLen word p.header).dataLength - p.ctx.ancillaryDataLen }

theorem parse_lenMsb (hstate : p.state = .phLenMsb) (byte : UInt8) :
    sppParseByte p byte =
      .ok (true, { p with bufw := byte.toUInt16 <<< 8, state := .phLenLsb }) := by
  unfold sppParseByte
  rw [hstate]

/-- Without a secondary header, the parser stops behind the third word. -/
theorem fed_len_last (hstate : p.state = .phLenMsb)
    (hsecondary : p.header.hasSecondaryHeader = false) :
    Fed sppParseByte p (writeUint16 word) false
      { p.behindWords word with state := .dataSubparser } := by
  apply Fed.more (parse_lenMsb hstate _)
  apply Fed.last
  unfold sppParseByte
  dsimp only
  rw [read_writeUint16]
  simp only [sppParsePhLen, hsecondary, SppParser.behindWords]
  rfl

/-- With a time code, the parser of time codes is started behind the third word. -/
theorem fed_len_timecode {tc : TcContext} (hstate : p.state = .phLenMsb)
    (hsecondary : p.header.hasSecondaryHeader = true) (htimecode : p.ctx.timecode = some tc) :
    Fed sppParseByte p (writeUint16 word) true
      { p.behindWords word with
        state := .shTimecodeSubparser
        tcParser := tcParserInit tc p.tcParser } := by
  apply Fed.more (parse_lenMsb hstate _)
  apply Fed.more _ .nil
  unfold sppParseByte
  dsimp only
  rw [read_writeUint16]
  simp only [sppParsePhLen, hsecondary, htimecode, SppParser.behindWords]
  rfl

end Primary

/-! ## The time code -/

theorem tcParserFeed_status {t t' : TcParser} {byte : UInt8} {status : TcParserStatus}
    (h : tcParserFeed t byte = .ok (status, t')) : t'.status = status := by
  unfold tcParserFeed at h
  cases hinner : tcParserFeedInner t byte with
  | error f =>
      rw [hinner] at h
      cases h
  | ok result =>
      rw [hinner] at h
      cases h
      rfl

theorem eq_of_tcStep {t t' : TcParser} {byte : UInt8} {wants : Bool}
    (h : tcStep t byte = .ok (wants, t')) :
    tcParserFeed t byte = .ok (t'.status, t') ∧ wants = decide (t'.status = .good) := by
  unfold tcStep at h
  cases hfeed : tcParserFeed t byte with
  | error f =>
      rw [hfeed] at h
      cases h
  | ok result =>
      obtain ⟨status, t₁⟩ := result
      rw [hfeed] at h
      cases h
      rw [tcParserFeed_status hfeed]
      exact ⟨rfl, rfl⟩

/-- What a course of the parser of time codes takes, the parser of packets takes. -/
theorem fed_behind_primary {t' : TcParser} {bytes : List UInt8} {p : SppParser}
    (hstate : p.state = .shTimecodeSubparser) (hancillary : p.ctx.ancillaryDataLen = 0)
    (h : Fed tcStep p.tcParser bytes false t') (hdone : t'.status = .done) :
    Fed sppParseByte p bytes false
      { p with
        dataLength := p.dataLength - UInt64.ofNat bytes.length
        tcParser := t'
        dtnTimestamp := tcGetDtnTimestamp t'
        state := .dataSubparser } := by
  generalize hstarted : p.tcParser = t at h
  generalize hends : false = wants at h ⊢
  induction h generalizing p with
  | nil => cases hends
  | @more t₀ t₁ t₂ byte bytes wants hstep _ ih =>
      obtain ⟨hfeed, hgood⟩ := eq_of_tcStep hstep
      rw [of_decide_eq_true hgood.symm] at hfeed
      have hbyte : sppParseByte p byte =
          .ok (true, { p with dataLength := p.dataLength - 1, tcParser := t₁ }) := by
        unfold sppParseByte
        rw [hstate, hstarted]
        dsimp only
        rw [hfeed]
      have hrest := @ih { p with dataLength := p.dataLength - 1, tcParser := t₁ } hstate
        hancillary hdone rfl hends
      have hlength : p.dataLength - 1 - UInt64.ofNat bytes.length =
          p.dataLength - UInt64.ofNat (byte :: bytes).length := by
        rw [List.length_cons, UInt64.ofNat_add]
        grind
      rw [hlength] at hrest
      exact .more hbyte hrest
  | @last t₀ t₁ byte hstep =>
      have hfeed := (eq_of_tcStep hstep).1
      rw [hdone] at hfeed
      apply Fed.last
      unfold sppParseByte
      rw [hstate, hstarted]
      dsimp only
      rw [hfeed]
      unfold sppBehindTimecode
      dsimp only
      rw [hancillary]
      rfl

/-! ## The round trip -/

section RoundTrip

variable {ctx : SppContext} {metadata : SppMeta} {payloadLen : UInt64}

/-- A primary header that is written is parsed into its fields. -/
theorem parse_header {header : PrimaryHeader} (hapid : header.apid ≤ maxApid)
    (hnumber : header.segmentNumber ≤ maxSegmentNumber) (hpos : 1 ≤ header.dataLength)
    (hle : header.dataLength ≤ maxDataLength) (old : PrimaryHeader) :
    sppParsePhLen (header.dataLength - 1).toUInt16
      (sppParsePhP2 header.part2 (sppParsePhP1 header.part1 old)) = header := by
  rw [parse_part1 hapid, parse_part2 hnumber, parse_len hpos hle]

/-- The parser in front of the third word of a primary header. -/
def SppParser.behindPart2 (p : SppParser) (header : PrimaryHeader) : SppParser :=
  { p with
    bufw := header.part2
    header := sppParsePhP2 header.part2 (sppParsePhP1 header.part1 p.header)
    state := .phLenMsb }

theorem fed_parts {p : SppParser} {header : PrimaryHeader} (hstate : p.state = .phP1Msb)
    (hapid : header.apid ≤ maxApid) :
    Fed sppParseByte p (writeUint16 header.part1 ++ writeUint16 header.part2) true
      (p.behindPart2 header) :=
  (fed_part1 hstate (checkFirstByte_part1 hapid)).append (fed_part2 rfl)

/-- The contexts, the metadata and the lengths of payloads that are read back. -/
structure Supported (ctx : SppContext) (metadata : SppMeta) (payloadLen : UInt64) : Prop where
  ancillary : ctx.ancillaryDataLen = 0
  timecode : ∀ tc, ctx.timecode = some tc → tc.Supported ∧
    metadata.dtnTimestamp.toNat + ccsdsEpochToDtnEpoch.toNat <
      256 ^ tc.defaults.unsegmented.baseUnitOctets.toNat
  apid : metadata.apid ≤ maxApid
  segmentNumber : metadata.segmentNumber ≤ maxSegmentNumber
  pos : 1 ≤ payloadLen.toNat + ctx.tcSize.toNat
  le : payloadLen.toNat + ctx.tcSize.toNat ≤ maxDataLength.toNat

theorem toNat_dataLength (h : Supported ctx metadata payloadLen) :
    (headerOf ctx metadata payloadLen).dataLength.toNat =
      payloadLen.toNat + ctx.tcSize.toNat := by
  have hle : payloadLen.toNat + ctx.tcSize.toNat ≤ 65536 := h.le
  change (payloadLen + ctx.ancillaryDataLen + ctx.tcSize).toNat = _
  rw [h.ancillary, UInt64.add_zero, UInt64.toNat_add]
  omega

theorem serialize_primary (h : Supported ctx metadata payloadLen) :
    sppSerializePrimaryHeader (headerOf ctx metadata payloadLen) =
      some (writeUint16 (headerOf ctx metadata payloadLen).part1 ++
        writeUint16 (headerOf ctx metadata payloadLen).part2 ++
        writeUint16 ((headerOf ctx metadata payloadLen).dataLength - 1).toUInt16) := by
  have hlength : (headerOf ctx metadata payloadLen).dataLength ≤ maxDataLength := by
    rw [UInt64.le_iff_toNat_le, toNat_dataLength h]
    exact h.le
  have hapid : (headerOf ctx metadata payloadLen).apid ≤ maxApid := h.apid
  have hnumber : (headerOf ctx metadata payloadLen).segmentNumber ≤ maxSegmentNumber :=
    h.segmentNumber
  unfold sppSerializePrimaryHeader
  rw [if_neg (UInt16.not_lt.mpr hapid), if_neg (UInt64.not_lt.mpr hlength),
    if_neg (UInt16.not_lt.mpr hnumber)]

/-- The size without the payload is the one of the headers. -/
theorem toNat_getSize_sub (h : Supported ctx metadata payloadLen) :
    (sppGetSize ctx payloadLen - payloadLen).toNat = 6 + ctx.tcSize.toNat := by
  have hpos := h.pos
  have hle : payloadLen.toNat + ctx.tcSize.toNat ≤ 65536 := h.le
  have hvalid : ¬ (payloadLen = 0 ∧ ctx.ancillaryDataLen = 0 ∧ ctx.timecode.isNone) := by
    rintro ⟨hpayload, -, hnone⟩
    have htc : ctx.tcSize = 0 := by
      rw [SppContext.tcSize, Option.isNone_iff_eq_none.mp hnone]
    rw [hpayload, htc] at hpos
    exact absurd hpos (by decide)
  have hsize : sppGetSize ctx payloadLen - payloadLen = 6 + ctx.tcSize := by
    unfold sppGetSize primaryHeaderSize
    rw [if_neg hvalid, h.ancillary]
    grind
  rw [hsize, UInt64.toNat_add]
  change (6 + ctx.tcSize.toNat) % 2 ^ 64 = _
  omega

/-- What the parser returns for a header that was written. -/
structure ReadBack (ctx : SppContext) (metadata : SppMeta) (payloadLen : UInt64)
    (q : SppParser) : Prop where
  metadata : ∃ m, sppParserGetMeta q = some m ∧ m.apid = metadata.apid ∧
    m.isRequest = metadata.isRequest ∧ m.segmentStatus = metadata.segmentStatus ∧
    m.segmentNumber = metadata.segmentNumber ∧
    (ctx.timecode.isSome → m.dtnTimestamp = metadata.dtnTimestamp)
  dataLength : sppParserGetDataLength q = some payloadLen

theorem readBack_of {q : SppParser} (hstate : q.state = .dataSubparser)
    (hheader : q.header = headerOf ctx metadata payloadLen) (hlength : q.dataLength = payloadLen)
    (htimestamp : ctx.timecode.isSome → q.dtnTimestamp = metadata.dtnTimestamp) :
    ReadBack ctx metadata payloadLen q where
  metadata := by
    unfold sppParserGetMeta
    rw [hstate, hheader]
    exact ⟨_, rfl, rfl, rfl, rfl, rfl, htimestamp⟩
  dataLength := by
    unfold sppParserGetDataLength
    rw [hstate, hlength]
    rfl

/-- The octets of a header are a course of the parser. -/
theorem fed_header (h : Supported ctx metadata payloadLen) (p : SppParser) :
    ∃ bytes q, sppSerializeHeader ctx metadata payloadLen = some bytes ∧
      bytes.length = 6 + ctx.tcSize.toNat ∧
      Fed sppParseByte (sppParserInit p ctx) bytes false q ∧
      ReadBack ctx metadata payloadLen q := by
  let header := headerOf ctx metadata payloadLen
  have hlength := toNat_dataLength h
  have hpos : 1 ≤ header.dataLength := by
    rw [UInt64.le_iff_toNat_le, hlength]
    exact h.pos
  have hle : header.dataLength ≤ maxDataLength := by
    rw [UInt64.le_iff_toNat_le, hlength]
    exact h.le
  have hheader := @parse_header header h.apid h.segmentNumber hpos hle
  have hprimary := serialize_primary h
  have hparts := @fed_parts (sppParserInit p ctx) header rfl h.apid
  have hsecondary : ((sppParserInit p ctx).behindPart2 header).header.hasSecondaryHeader =
      ctx.timecode.isSome := by
    unfold SppParser.behindPart2
    dsimp only
    rw [parse_part1 h.apid, parse_part2 h.segmentNumber]
    change (decide (0 < ctx.ancillaryDataLen) || ctx.timecode.isSome) = _
    rw [h.ancillary]
    rfl
  let behind := ((sppParserInit p ctx).behindPart2 header).behindWords
    (header.dataLength - 1).toUInt16
  have hbehind : behind.header = header := hheader _
  have hdata : behind.dataLength = payloadLen + ctx.tcSize := by
    change behind.header.dataLength - ctx.ancillaryDataLen = _
    rw [hbehind, h.ancillary, UInt64.sub_zero]
    change payloadLen + ctx.ancillaryDataLen + ctx.tcSize = _
    rw [h.ancillary, UInt64.add_zero]
  cases htimecode : ctx.timecode with
  | none =>
      rw [htimecode] at hsecondary
      have hsize : ctx.tcSize = 0 := by
        rw [SppContext.tcSize, htimecode]
      have hlast := @fed_len_last _ (header.dataLength - 1).toUInt16 rfl hsecondary
      refine ⟨_, _, ?_, ?_, hparts.append hlast, ?_⟩
      · unfold sppSerializeHeader
        rw [hprimary, htimecode]
        rfl
      · rw [hsize]
        rfl
      · apply readBack_of
        · rfl
        · exact hbehind
        · rw [hsize, UInt64.add_zero] at hdata
          exact hdata
        · intro hsome
          rw [htimecode] at hsome
          cases hsome
  | some tc =>
      rw [htimecode] at hsecondary
      have hsize : ctx.tcSize = tcGetSize tc := by
        rw [SppContext.tcSize, htimecode]
      have hlen := @fed_len_timecode _ (header.dataLength - 1).toUInt16 tc rfl hsecondary htimecode
      obtain ⟨htc, hfits⟩ := h.timecode tc htimecode
      obtain ⟨bytes, t, hbytes, hbytesLength, hfed, hdone, htimestamp⟩ :=
        fed_timecode htc hfits metadata.dtnCounter p.tcParser
      let started : SppParser :=
        { behind with state := .shTimecodeSubparser, tcParser := tcParserInit tc p.tcParser }
      have hread := @fed_behind_primary t bytes started rfl h.ancillary hfed hdone
      refine ⟨_, _, ?_, ?_, (hparts.append hlen).append hread, ?_⟩
      · unfold sppSerializeHeader
        rw [hprimary, htimecode]
        dsimp only
        rw [Option.bind_eq_bind, Option.bind_some, hbytes]
        rfl
      · rw [List.length_append, hbytesLength, hsize]
        rfl
      · apply readBack_of
        · rfl
        · exact hbehind
        · change behind.dataLength - UInt64.ofNat bytes.length = payloadLen
          rw [hdata, hbytesLength, hsize, UInt64.ofNat_toNat, UInt64.add_sub_cancel]
        · intro _
          exact htimestamp

/-- **Headers are read back.**  In any segments, the octets that are written are read as
a whole, as many as the size without the payload; so they are when others follow.  The
parser then has the metadata and the length of the payload. -/
theorem header_round_trip (h : Supported ctx metadata payloadLen) (p : SppParser) :
    ∃ bytes q, sppSerializeHeader ctx metadata payloadLen = some bytes ∧
      bytes.length = (sppGetSize ctx payloadLen - payloadLen).toNat ∧
      (∀ segments : List (List UInt8), segments.flatten = bytes →
        ByteFeed.readSegments sppParseByte segments (sppParserInit p ctx) =
          .ok (segments.map List.length, q)) ∧
      (∀ rest, sppParserRead (sppParserInit p ctx) (bytes ++ rest) = .ok (bytes.length, q)) ∧
      ReadBack ctx metadata payloadLen q := by
  obtain ⟨bytes, q, hbytes, hlength, hfed, hread⟩ := fed_header h p
  refine ⟨bytes, q, hbytes, hlength.trans (toNat_getSize_sub h).symm, ?_, hfed.read_append,
    hread⟩
  intro segments hsegments
  rw [← hsegments] at hfed
  exact hfed.readSegments

end RoundTrip

/-- Five octets of seconds and four of fractions, so that the P-field has a second octet. -/
def wideContext : SppContext :=
  { timecode := some ⟨true, ⟨.unsegmentedCcsdsEpoch, ⟨5, 4⟩⟩⟩, ancillaryDataLen := 0 }

def lastSegment : SppMeta :=
  { isRequest := true
    apid := 0x7ff
    segmentStatus := .last
    segmentNumber := 0x3fff
    dtnTimestamp := 658489863
    dtnCounter := 7 }

/-- A parser before `spp_parser_init`. -/
def zeroParser : SppParser :=
  { base := ⟨.good, 0, 0⟩
    bufw := 0
    header := ⟨false, false, 0, .continuation, 0, 0⟩
    ctx := ⟨none, 0⟩
    state := .phP1Msb
    tcParser := tcStarted ⟨.unknown, ⟨0, 0⟩⟩
    dataLength := 0
    dtnTimestamp := 0 }

theorem wide_header_round_trip :
    ∃ bytes q, sppSerializeHeader wideContext lastSegment 65525 = some bytes ∧
      bytes.length = (sppGetSize wideContext 65525 - 65525).toNat ∧
      (∀ segments : List (List UInt8), segments.flatten = bytes →
        ByteFeed.readSegments sppParseByte segments (sppParserInit zeroParser wideContext) =
          .ok (segments.map List.length, q)) ∧
      (∀ rest, sppParserRead (sppParserInit zeroParser wideContext) (bytes ++ rest) =
        .ok (bytes.length, q)) ∧
      ReadBack wideContext lastSegment 65525 q := by
  apply header_round_trip
  exact
    { ancillary := rfl
      timecode := by
        intro tc htc
        cases htc
        exact ⟨⟨rfl, by decide, by decide, by decide⟩, by decide⟩
      apid := by decide
      segmentNumber := by decide
      pos := by decide
      le := by decide }

end Spp
