import DisruptaBLE.Lib.ByteFeed
import DisruptaBLE.Lib.Heap
import Mathlib.Algebra.Group.Nat.Defs

/-!
# Time codes of space packets

`components/spp/spp_timecodes.c`: a time code is an optional P-field, which describes the
format, a number of octets for the seconds and a number of octets for fractions of them.

`fed_timecode` says that the parser takes exactly the octets that `spp_tc_serialize`
writes, and ends with the seconds that were written.
-/

namespace Spp

open PtrHeap

/-! ## Definitions -/

/-- `enum spp_tc_type`; three bits may also be a number that has no name. -/
inductive TcType where
  | unsegmentedCcsdsEpoch
  | unsegmentedCustomEpoch
  | daySegmented
  | calendarSegmented
  | custom
  | unknown
  | unnamed (code : UInt8)
  deriving DecidableEq, Repr

/-- The number of a type. -/
def TcType.code : TcType → UInt8
  | .unsegmentedCcsdsEpoch => 1
  | .unsegmentedCustomEpoch => 2
  | .daySegmented => 4
  | .calendarSegmented => 5
  | .custom => 6
  | .unknown => 0xff
  | .unnamed code => code

/-- The type with a number. -/
def TcType.ofCode (code : UInt8) : TcType :=
  if code = 1 then .unsegmentedCcsdsEpoch
  else if code = 2 then .unsegmentedCustomEpoch
  else if code = 4 then .daySegmented
  else if code = 5 then .calendarSegmented
  else if code = 6 then .custom
  else if code = 0xff then .unknown
  else .unnamed code

/-- `enum spp_tc_parser_status`. -/
inductive TcParserStatus where
  | good
  | error
  | done
  deriving DecidableEq, Repr

/-- `struct spp_tc_unsegmented_config_t`. -/
structure UnsegmentedConfig where
  baseUnitOctets : UInt8
  fractionalOctets : UInt8
  deriving DecidableEq, Repr

/-- `struct spp_tc_config_t`. -/
structure TcConfig where
  type : TcType
  unsegmented : UnsegmentedConfig
  deriving DecidableEq, Repr

/-- `struct spp_tc_context_t`. -/
structure TcContext where
  withPField : Bool
  defaults : TcConfig
  deriving DecidableEq, Repr

/-- `SPP_TC_UNSEGMENTED_FRACTIONAL_MAX_OCTETS`. -/
def fractionalMaxOctets : Nat := 6

/-- The state of an unsegmented time code. -/
structure UnsegmentedState where
  readBaseUnit : Bool
  baseUnitRemaining : UInt8
  fractionalRemaining : UInt8
  baseUnitCount : UInt64
  fractionalPtr : UInt8
  fractionalBuf : List UInt8
  deriving DecidableEq, Repr

/-- The `state` of a time code parser, a union. -/
inductive TcState where
  | preamble (hasSecondOctet : Bool) (detectedType : TcType)
  | unsegmented (u : UnsegmentedState)
  deriving DecidableEq, Repr

/-- `has_second_octet`, which lies where `read_base_unit` does. -/
def TcState.hasSecondOctet : TcState → Bool
  | .preamble hasSecondOctet _ => hasSecondOctet
  | .unsegmented u => u.readBaseUnit

/-- `detected_type`, which is written before it is read. -/
def TcState.detectedType : TcState → TcType
  | .preamble _ detectedType => detectedType
  | .unsegmented _ => .unknown

/-- `struct spp_tc_parser_t`. -/
structure TcParser where
  status : TcParserStatus
  format : TcConfig
  state : TcState
  deriving DecidableEq, Repr

/-- `CCSDS_EPOCH_TO_DTN_EPOCH`. -/
def ccsdsEpochToDtnEpoch : UInt64 := 1325376000

/-- `UNSEGMENTED_BASE_UNIT_LONGP_THRESHOLD`. -/
def baseUnitLongpThreshold : UInt8 := 4

/-- `UNSEGMENTED_FRACTIONAL_LONGP_THRESHOLD`. -/
def fractionalLongpThreshold : UInt8 := 3

/-- `spp_tc_parser_start_from_config`.  The buffer for fractions is not read. -/
def tcParserStartFromConfig (p : TcParser) : TcParser :=
  { p with
    state := .unsegmented
      { readBaseUnit := false
        baseUnitRemaining := p.format.unsegmented.baseUnitOctets
        fractionalRemaining := p.format.unsegmented.fractionalOctets
        baseUnitCount := 0
        fractionalPtr := 0
        fractionalBuf := List.replicate fractionalMaxOctets 0 } }

/-- `spp_tc_pfield_parse_first`. -/
def tcPfieldParseFirst (p : TcParser) (byte : UInt8) : TcParserStatus × TcParser :=
  let detectedType := TcType.ofCode ((byte &&& 0x70) >>> 4)
  let p := { p with state := .preamble (byte &&& 0x80 != 0) detectedType }
  match detectedType with
  | .unsegmentedCcsdsEpoch | .unsegmentedCustomEpoch =>
      (.good,
        { p with
          format :=
            { p.format with
              unsegmented := ⟨((byte &&& 0x0c) >>> 2) + 1, byte &&& 0x03⟩ } })
  | _ => (.error, p)

/-- `spp_tc_pfield_parse_second`. -/
def tcPfieldParseSecond (p : TcParser) (byte : UInt8) : TcParserStatus × TcParser :=
  let detectedType := p.state.detectedType
  let p := { p with state := .preamble (byte &&& 0x80 != 0) detectedType }
  match detectedType with
  | .unsegmentedCcsdsEpoch | .unsegmentedCustomEpoch =>
      (.good,
        { p with
          format :=
            { p.format with
              unsegmented :=
                ⟨p.format.unsegmented.baseUnitOctets + ((byte &&& 0x60) >>> 5),
                  p.format.unsegmented.fractionalOctets + ((byte &&& 0x1c) >>> 2)⟩ } })
  | _ => (.error, p)

/-- `spp_tc_pfield_feed`. -/
def tcPfieldFeed (p : TcParser) (byte : UInt8) : TcParserStatus × TcParser :=
  let (result, p) :=
    if !p.state.hasSecondOctet then tcPfieldParseFirst p byte else tcPfieldParseSecond p byte
  if result ≠ .good then (result, p)
  else if !p.state.hasSecondOctet then
    (result, tcParserStartFromConfig
      { p with format := { p.format with type := p.state.detectedType } })
  else (result, p)

/-- `spp_tc_parser_init`. -/
def tcParserInit (ctx : TcContext) (p : TcParser) : TcParser :=
  if ctx.withPField then
    { status := .good
      format := { p.format with type := .unknown }
      state := .preamble false p.state.detectedType }
  else { tcParserStartFromConfig { p with format := ctx.defaults } with status := .good }

/-- `spp_tc_unsegmented_advance`. -/
def tcUnsegmentedAdvance (u : UnsegmentedState) : TcParserStatus × UnsegmentedState :=
  let u := if !u.readBaseUnit && u.baseUnitRemaining = 0 then { u with readBaseUnit := true } else u
  (if u.readBaseUnit && u.fractionalRemaining = 0 then .done else .good, u)

/-- An octet of the seconds is appended to their count. -/
def UnsegmentedState.appendBase (u : UnsegmentedState) (byte : UInt8) : UnsegmentedState :=
  { u with
    baseUnitRemaining := u.baseUnitRemaining - 1
    baseUnitCount := (u.baseUnitCount <<< 8) ||| byte.toUInt64 }

/-- An octet of the fractions is kept in the buffer. -/
def UnsegmentedState.appendFractional (u : UnsegmentedState) (byte : UInt8) :
    UnsegmentedState :=
  { u with
    fractionalPtr := u.fractionalPtr + 1
    fractionalBuf := u.fractionalBuf.set u.fractionalPtr.toNat byte
    fractionalRemaining := u.fractionalRemaining - 1 }

/-- An octet of an unsegmented time code.  The source does not check the index into the buffer. -/
def tcUnsegmentedFeed (u : UnsegmentedState) (byte : UInt8) :
    Except Fault (TcParserStatus × UnsegmentedState) :=
  if !u.readBaseUnit then .ok (tcUnsegmentedAdvance (u.appendBase byte))
  else if u.fractionalPtr.toNat < fractionalMaxOctets then
    .ok (tcUnsegmentedAdvance (u.appendFractional byte))
  else .error .dangling

/-- `_spp_tc_parser_feed`. -/
def tcParserFeedInner (p : TcParser) (byte : UInt8) :
    Except Fault (TcParserStatus × TcParser) :=
  match p.format.type with
  | .unknown => .ok (tcPfieldFeed p byte)
  | .unsegmentedCcsdsEpoch =>
      match p.state with
      | .unsegmented u => do
          let (result, u) ← tcUnsegmentedFeed u byte
          pure (result, { p with state := .unsegmented u })
      | .preamble _ _ => .error .assertFailed
  | _ => .ok (.error, p)

/-- `spp_tc_parser_feed`. -/
def tcParserFeed (p : TcParser) (byte : UInt8) : Except Fault (TcParserStatus × TcParser) := do
  let (result, p) ← tcParserFeedInner p byte
  pure (result, { p with status := result })

/-- `spp_tc_get_dtn_timestamp`. -/
def tcGetDtnTimestamp (p : TcParser) : UInt64 :=
  if p.status ≠ .done then 0xffffffffffffffff
  else
    match p.format.type, p.state with
    | .unsegmentedCcsdsEpoch, .unsegmented u =>
        if u.baseUnitCount < ccsdsEpochToDtnEpoch then 0xffffffffffffffff
        else u.baseUnitCount - ccsdsEpochToDtnEpoch
    | _, _ => 0xffffffffffffffff

/-- Whether the P-field of a format has a second octet. -/
def needSecondByte (format : UnsegmentedConfig) : Bool :=
  baseUnitLongpThreshold < format.baseUnitOctets ||
    fractionalLongpThreshold < format.fractionalOctets

/-- `spp_tc_get_size`. -/
def tcGetSize (ctx : TcContext) : UInt64 :=
  match ctx.defaults.type with
  | .unsegmentedCcsdsEpoch | .unsegmentedCustomEpoch =>
      let format := ctx.defaults.unsegmented
      format.baseUnitOctets.toUInt64 + format.fractionalOctets.toUInt64 +
        if ctx.withPField then (if needSecondByte format then 2 else 1) else 0
  | _ => 0

/-- `spp_tc_serialize_preamble`. -/
def tcSerializePreamble (format : TcConfig) : Option (List UInt8) :=
  match format.type with
  | .unsegmentedCcsdsEpoch | .unsegmentedCustomEpoch =>
      let base := format.unsegmented.baseUnitOctets
      let fractional := format.unsegmented.fractionalOctets
      let baseUnitWide := decide (baseUnitLongpThreshold < base)
      let fractionalWide := decide (fractionalLongpThreshold < fractional)
      let first : UInt8 := (format.type.code <<< 4) |||
        (if baseUnitWide || fractionalWide then (0x80 : UInt8) else 0) |||
        (if baseUnitWide then (0x0c : UInt8) else (base - 1) <<< 2) |||
        (if fractionalWide then (0x03 : UInt8) else fractional)
      if !(baseUnitWide || fractionalWide) then some [first]
      else
        let second : UInt8 :=
          (if baseUnitWide then (base - baseUnitLongpThreshold) <<< 5 else 0) |||
          (if fractionalWide then (fractional - fractionalLongpThreshold) <<< 2 else 0)
        some [first, second]
  | _ => none

/-- The loops of `serialize_unsegmented`: octets of a value, from a shift downwards. -/
def serializeOctets (value : UInt64) : Nat → UInt64 → List UInt8
  | 0, _ => []
  | n + 1, shift => ((value >>> shift) &&& 0xff).toUInt8 :: serializeOctets value n (shift - 8)

/-- `serialize_unsegmented`. -/
def serializeUnsegmented (config : UnsegmentedConfig) (seconds fractional : UInt64) :
    List UInt8 :=
  serializeOctets seconds config.baseUnitOctets.toNat ((config.baseUnitOctets.toUInt64 - 1) * 8) ++
    serializeOctets fractional config.fractionalOctets.toNat (64 - 8)

/-- `spp_tc_serialize`. -/
def tcSerialize (ctx : TcContext) (dtnTimestamp : UInt64) (dtnCounter : UInt32) :
    Option (List UInt8) := do
  let preamble ← if ctx.withPField then tcSerializePreamble ctx.defaults else some []
  match ctx.defaults.type with
  | .unsegmentedCcsdsEpoch =>
      some (preamble ++ serializeUnsegmented ctx.defaults.unsegmented
        (dtnTimestamp + ccsdsEpochToDtnEpoch) (dtnCounter.toUInt64 <<< 32))
  | _ => none

/-! ## The parser as a course -/

open ByteFeed (Fed)

/-- A byte for the parser, and whether it wants another one. -/
def tcStep (p : TcParser) (byte : UInt8) : Except Fault (Bool × TcParser) :=
  match tcParserFeed p byte with
  | .ok (status, p) => .ok (decide (status = .good), p)
  | .error f => .error f

/-- The time codes of the round trip. -/
structure TcContext.Supported (ctx : TcContext) : Prop where
  type : ctx.defaults.type = .unsegmentedCcsdsEpoch
  base_pos : 1 ≤ ctx.defaults.unsegmented.baseUnitOctets.toNat
  base_le : ctx.defaults.unsegmented.baseUnitOctets.toNat ≤ 7
  fractional_le : ctx.defaults.unsegmented.fractionalOctets.toNat ≤ 6

/-- The parser in front of the octets of a time code. -/
def tcStarted (format : TcConfig) : TcParser :=
  tcParserStartFromConfig ⟨.good, format, .preamble false .unknown⟩

/-- **The P-field** describes the format, in one octet or in two. -/
theorem fed_preamble {base fractional : UInt8} (hpos : 1 ≤ base.toNat) (hbase : base.toNat ≤ 7)
    (hfractional : fractional.toNat ≤ 6) (format : TcConfig) (detectedType : TcType) :
    ∃ preamble, tcSerializePreamble ⟨.unsegmentedCcsdsEpoch, ⟨base, fractional⟩⟩ =
        some preamble ∧
      preamble.length = (if needSecondByte ⟨base, fractional⟩ then 2 else 1) ∧
      Fed tcStep ⟨.good, { format with type := .unknown }, .preamble false detectedType⟩ preamble
        true (tcStarted ⟨.unsegmentedCcsdsEpoch, ⟨base, fractional⟩⟩) := by
  have hb : base = 1 ∨ base = 2 ∨ base = 3 ∨ base = 4 ∨ base = 5 ∨ base = 6 ∨ base = 7 := by
    simp only [← UInt8.toNat_inj, UInt8.reduceToNat]
    omega
  have hf : fractional = 0 ∨ fractional = 1 ∨ fractional = 2 ∨ fractional = 3 ∨ fractional = 4 ∨
      fractional = 5 ∨ fractional = 6 := by
    simp only [← UInt8.toNat_inj, UInt8.reduceToNat]
    omega
  rcases hb with rfl | rfl | rfl | rfl | rfl | rfl | rfl <;>
    rcases hf with rfl | rfl | rfl | rfl | rfl | rfl | rfl <;>
    first
    | exact ⟨_, rfl, rfl, .more rfl .nil⟩
    | exact ⟨_, rfl, rfl, by apply Fed.more rfl; exact .more rfl .nil⟩

/-! ## Octets -/

/-- An octet is appended to the count of those before it. -/
theorem toNat_append_octet {value count : UInt64} {n : Nat} (hn : n < 8)
    (hcount : count.toNat = value.toNat / 256 ^ (n + 1)) :
    ((count <<< 8) ||| ((value >>> (UInt64.ofNat n * 8)) &&& 0xff).toUInt8.toUInt64).toNat =
      value.toNat / 256 ^ n := by
  have hvalue : value.toNat < 2 ^ 64 := value.toNat_lt
  have hshift : (UInt64.ofNat n * 8).toNat = 8 * n := by
    rw [UInt64.toNat_mul, UInt64.toNat_ofNat_of_lt' (Nat.lt_of_lt_of_le hn (by decide))]
    change n * 8 % 2 ^ 64 = 8 * n
    omega
  have hoctet : ((value >>> (UInt64.ofNat n * 8)) &&& 0xff).toUInt8.toUInt64.toNat =
      value.toNat / 256 ^ n % 256 := by
    rw [UInt8.toNat_toUInt64, UInt64.toNat_toUInt8, UInt64.toNat_and, UInt64.toNat_shiftRight,
      hshift, Nat.mod_eq_of_lt (by omega : 8 * n < 64), Nat.shiftRight_eq_div_pow, Nat.pow_mul]
    change (value.toNat / 256 ^ n &&& 2 ^ 8 - 1) % 256 = _
    rw [Nat.and_two_pow_sub_one_eq_mod]
    omega
  have hdiv : value.toNat / 256 ^ (n + 1) = value.toNat / 256 ^ n / 256 := by
    rw [Nat.pow_succ, Nat.div_div_eq_div_mul]
  have hle : value.toNat / 256 ^ n ≤ value.toNat := Nat.div_le_self _ _
  have hhigh : (count <<< 8).toNat = value.toNat / 256 ^ n / 256 * 2 ^ 8 := by
    rw [UInt64.toNat_shiftLeft, hcount, hdiv, Nat.shiftLeft_eq]
    change value.toNat / 256 ^ n / 256 * 256 % 2 ^ 64 = value.toNat / 256 ^ n / 256 * 256
    omega
  have hlow : value.toNat / 256 ^ n % 256 < 2 ^ 8 := Nat.mod_lt _ (by decide)
  rw [UInt64.toNat_or, hoctet, hhigh, ← Nat.shiftLeft_eq, ← Nat.shiftLeft_add_eq_or_of_lt hlow,
    Nat.shiftLeft_eq]
  omega

theorem length_serializeOctets (value : UInt64) (n : Nat) (shift : UInt64) :
    (serializeOctets value n shift).length = n := by
  induction n generalizing shift with
  | zero => rfl
  | succ n ih =>
      rw [serializeOctets, List.length_cons, ih]

/-- The parser in the middle of the octets of a time code. -/
def tcReading (format : TcConfig) (u : UnsegmentedState) : TcParser :=
  ⟨.good, format, .unsegmented u⟩

/-- A parser at the end of a time code. -/
def tcFinished (format : TcConfig) (u : UnsegmentedState) : TcParser :=
  ⟨.done, format, .unsegmented u⟩

section Reading

variable {format : TcConfig} {u : UnsegmentedState}

/-- An octet that is read, with what comes after it. -/
theorem tcStep_reading (htype : format.type = .unsegmentedCcsdsEpoch) {byte : UInt8}
    {status : TcParserStatus} {u' : UnsegmentedState}
    (hfeed : tcUnsegmentedFeed u byte = .ok (status, u')) :
    tcStep (tcReading format u) byte =
      .ok (decide (status = .good), ⟨status, format, .unsegmented u'⟩) := by
  unfold tcStep tcParserFeed tcParserFeedInner tcReading
  dsimp only
  rw [htype]
  dsimp only
  rw [hfeed]
  rfl

theorem advance_fractional (hread : u.readBaseUnit = true) :
    tcUnsegmentedAdvance u = (if u.fractionalRemaining = 0 then .done else .good, u) := by
  unfold tcUnsegmentedAdvance
  simp [hread]

theorem advance_base (hread : u.readBaseUnit = false) (hmore : u.baseUnitRemaining ≠ 0) :
    tcUnsegmentedAdvance u = (.good, u) := by
  unfold tcUnsegmentedAdvance
  simp [hread, hmore]

theorem advance_last_base (hread : u.readBaseUnit = false) (hlast : u.baseUnitRemaining = 0) :
    tcUnsegmentedAdvance u =
      (if u.fractionalRemaining = 0 then .done else .good, { u with readBaseUnit := true }) := by
  unfold tcUnsegmentedAdvance
  simp [hread, hlast]

/-- A countdown of octets. -/
theorem toNat_sub_one {count : UInt8} {n : Nat} (hcount : count.toNat = n + 1) :
    (count - 1).toNat = n := by
  have hone : (1 : UInt8) ≤ count := by
    apply UInt8.le_iff_toNat_le.mpr
    change 1 ≤ count.toNat
    omega
  rw [UInt8.toNat_sub_of_le _ _ hone, hcount]
  rfl

theorem eq_zero_iff_of_toNat {count : UInt8} {n : Nat} (hcount : count.toNat = n) :
    count = 0 ↔ n = 0 := by
  rw [← UInt8.toNat_inj, hcount]
  rfl

/-- **Fractions** are read to the last octet, and nothing depends on them. -/
theorem fed_fractional (htype : format.type = .unsegmentedCcsdsEpoch) (bytes : List UInt8)
    (hread : u.readBaseUnit = true) (hcount : u.fractionalRemaining.toNat = bytes.length)
    (hpos : bytes ≠ []) (hroom : u.fractionalPtr.toNat + bytes.length ≤ fractionalMaxOctets) :
    ∃ u', Fed tcStep (tcReading format u) bytes false (tcFinished format u') ∧
      u'.baseUnitCount = u.baseUnitCount := by
  induction bytes generalizing u with
  | nil => exact absurd rfl hpos
  | cons byte bytes ih =>
      rw [List.length_cons] at hcount hroom
      have hremaining : (u.appendFractional byte).fractionalRemaining.toNat = bytes.length :=
        toNat_sub_one hcount
      have hzero := eq_zero_iff_of_toNat hremaining
      have hfeed : tcUnsegmentedFeed u byte =
          .ok (tcUnsegmentedAdvance (u.appendFractional byte)) := by
        unfold tcUnsegmentedFeed
        rw [hread, Bool.not_true, if_neg Bool.false_ne_true, if_pos (by omega)]
      rw [advance_fractional (by exact hread)] at hfeed
      have hstep := tcStep_reading htype hfeed
      by_cases hlast : bytes = []
      · subst hlast
        rw [if_pos (hzero.mpr rfl)] at hstep
        exact ⟨_, .last hstep, rfl⟩
      · have hnonempty : bytes.length ≠ 0 := mt List.eq_nil_of_length_eq_zero hlast
        have hptr : (u.appendFractional byte).fractionalPtr.toNat + bytes.length ≤
            fractionalMaxOctets := by
          change (u.fractionalPtr.toNat + 1) % 256 + bytes.length ≤ 6
          change u.fractionalPtr.toNat + (bytes.length + 1) ≤ 6 at hroom
          omega
        rw [if_neg (mt hzero.mp hnonempty)] at hstep
        obtain ⟨u', hfed, hsame⟩ := @ih (u.appendFractional byte) hread hremaining hlast hptr
        exact ⟨u', .more hstep hfed, hsame⟩

theorem shift_succ (n : Nat) : UInt64.ofNat (n + 1) * 8 - 8 = UInt64.ofNat n * 8 := by
  have hsplit : UInt64.ofNat (n + 1) * 8 = UInt64.ofNat n * 8 + 8 := by
    rw [UInt64.ofNat_add, UInt64.add_mul]
    rfl
  rw [hsplit, UInt64.add_sub_cancel]

/-- **Seconds** are read octet by octet; fractions may come after them. -/
theorem fed_base (htype : format.type = .unsegmentedCcsdsEpoch) (value : UInt64) {n : Nat}
    (hn : n < 8) (hread : u.readBaseUnit = false) (hremaining : u.baseUnitRemaining.toNat = n + 1)
    (hcount : u.baseUnitCount.toNat = value.toNat / 256 ^ (n + 1)) :
    ∃ u', u'.baseUnitCount = value ∧ u'.readBaseUnit = true ∧
      u'.fractionalRemaining = u.fractionalRemaining ∧ u'.fractionalPtr = u.fractionalPtr ∧
      Fed tcStep (tcReading format u) (serializeOctets value (n + 1) (UInt64.ofNat n * 8))
        (decide (u.fractionalRemaining ≠ 0))
        ⟨if u.fractionalRemaining = 0 then .done else .good, format, .unsegmented u'⟩ := by
  induction n generalizing u with
  | zero =>
      let octet := ((value >>> (UInt64.ofNat 0 * 8)) &&& 0xff).toUInt8
      have hfeed : tcUnsegmentedFeed u octet = .ok (tcUnsegmentedAdvance (u.appendBase octet)) := by
        unfold tcUnsegmentedFeed
        rw [hread, Bool.not_false, if_pos rfl]
      have hzero : (u.appendBase octet).baseUnitRemaining = 0 :=
        (eq_zero_iff_of_toNat (toNat_sub_one hremaining)).mpr rfl
      rw [advance_last_base (by exact hread) hzero] at hfeed
      have hstep := tcStep_reading htype hfeed
      have hvalue : (u.appendBase octet).baseUnitCount = value := by
        apply UInt64.toNat_inj.mp
        apply (toNat_append_octet hn hcount).trans
        rw [Nat.pow_zero, Nat.div_one]
      have hkept : (u.appendBase octet).fractionalRemaining = u.fractionalRemaining := rfl
      rw [hkept] at hstep
      by_cases hnone : u.fractionalRemaining = 0
      · rw [if_pos hnone] at hstep ⊢
        rw [decide_eq_false (not_not.mpr hnone)]
        exact ⟨{ u.appendBase octet with readBaseUnit := true }, hvalue, rfl, hkept, rfl,
          .last hstep⟩
      · rw [if_neg hnone] at hstep ⊢
        rw [decide_eq_true hnone]
        exact ⟨{ u.appendBase octet with readBaseUnit := true }, hvalue, rfl, hkept, rfl,
          .more hstep .nil⟩
  | succ n ih =>
      let octet := ((value >>> (UInt64.ofNat (n + 1) * 8)) &&& 0xff).toUInt8
      have hfeed : tcUnsegmentedFeed u octet = .ok (tcUnsegmentedAdvance (u.appendBase octet)) := by
        unfold tcUnsegmentedFeed
        rw [hread, Bool.not_false, if_pos rfl]
      have hleft : (u.appendBase octet).baseUnitRemaining.toNat = n + 1 := toNat_sub_one hremaining
      have hmore : (u.appendBase octet).baseUnitRemaining ≠ 0 :=
        mt (eq_zero_iff_of_toNat hleft).mp (Nat.succ_ne_zero n)
      rw [advance_base (by exact hread) hmore] at hfeed
      have hstep := tcStep_reading htype hfeed
      obtain ⟨u', hvalue, hdone, hfractional, hptr, hfed⟩ :=
        @ih (u.appendBase octet) (by omega) hread hleft (toNat_append_octet hn hcount)
      refine ⟨u', hvalue, hdone, hfractional, hptr, ?_⟩
      rw [serializeOctets, shift_succ]
      exact .more hstep hfed

/-- The octets of a time code are read, and the parser is done. -/
theorem fed_unsegmented {config : UnsegmentedConfig} {seconds fractional : UInt64}
    (htype : format.type = .unsegmentedCcsdsEpoch) (hconfig : format.unsegmented = config)
    (hpos : 1 ≤ config.baseUnitOctets.toNat) (hbase : config.baseUnitOctets.toNat ≤ 7)
    (hfractional : config.fractionalOctets.toNat ≤ 6)
    (hfits : seconds.toNat < 256 ^ config.baseUnitOctets.toNat) :
    ∃ u', u'.baseUnitCount = seconds ∧
      Fed tcStep (tcStarted format) (serializeUnsegmented config seconds fractional) false
        (tcFinished format u') := by
  obtain ⟨n, hn⟩ : ∃ n, config.baseUnitOctets.toNat = n + 1 := ⟨_, (Nat.sub_add_cancel hpos).symm⟩
  let u : UnsegmentedState :=
    { readBaseUnit := false
      baseUnitRemaining := config.baseUnitOctets
      fractionalRemaining := config.fractionalOctets
      baseUnitCount := 0
      fractionalPtr := 0
      fractionalBuf := List.replicate fractionalMaxOctets 0 }
  have hstarted : tcStarted format = tcReading format u := by
    unfold tcStarted tcParserStartFromConfig tcReading
    rw [hconfig]
  have hzero : u.baseUnitCount.toNat = seconds.toNat / 256 ^ (n + 1) := by
    rw [Nat.div_eq_of_lt (hn ▸ hfits)]
    rfl
  obtain ⟨u', hseconds, hread, hremaining, hptr, hfed⟩ :=
    fed_base (u := u) htype seconds (by omega) rfl hn hzero
  have hshift : (config.baseUnitOctets.toUInt64 - 1) * 8 = UInt64.ofNat n * 8 := by
    have hoctets : config.baseUnitOctets.toUInt64 = UInt64.ofNat n + 1 := by
      apply UInt64.toNat_inj.mp
      rw [UInt8.toNat_toUInt64, hn, ← UInt64.ofNat_one, ← UInt64.ofNat_add,
        UInt64.toNat_ofNat_of_lt' (by change n + 1 < 2 ^ 64; omega)]
    rw [hoctets, UInt64.add_sub_cancel]
  rw [hstarted, serializeUnsegmented, hshift, hn]
  by_cases hnone : u.fractionalRemaining = 0
  · have hlength : config.fractionalOctets.toNat = 0 := by
      rw [show config.fractionalOctets = 0 from hnone]
      rfl
    rw [if_pos hnone, decide_eq_false (not_not.mpr hnone)] at hfed
    rw [hlength, serializeOctets, List.append_nil]
    exact ⟨u', hseconds, hfed⟩
  · rw [if_neg hnone, decide_eq_true hnone] at hfed
    have hlength : u'.fractionalRemaining.toNat =
        (serializeOctets fractional config.fractionalOctets.toNat (64 - 8)).length := by
      rw [hremaining, length_serializeOctets]
    have hnonempty : serializeOctets fractional config.fractionalOctets.toNat (64 - 8) ≠ [] := by
      intro hempty
      rw [hremaining, hempty] at hlength
      exact hnone (UInt8.toNat_inj.mp hlength)
    have hroom : u'.fractionalPtr.toNat +
        (serializeOctets fractional config.fractionalOctets.toNat (64 - 8)).length ≤
          fractionalMaxOctets := by
      rw [hptr, length_serializeOctets]
      change 0 + config.fractionalOctets.toNat ≤ 6
      omega
    obtain ⟨u'', hfed', hsame⟩ := fed_fractional htype _ hread hlength hnonempty hroom
    exact ⟨u'', hsame.trans hseconds, hfed.append hfed'⟩

end Reading

/-! ## The round trip -/

/-- The seconds of a time stamp from the epoch of time codes. -/
theorem toNat_add_epoch {timestamp : UInt64} {n : Nat} (hn : n ≤ 7)
    (hfits : timestamp.toNat + ccsdsEpochToDtnEpoch.toNat < 256 ^ n) :
    (timestamp + ccsdsEpochToDtnEpoch).toNat = timestamp.toNat + ccsdsEpochToDtnEpoch.toNat := by
  rw [UInt64.toNat_add]
  apply Nat.mod_eq_of_lt
  calc timestamp.toNat + ccsdsEpochToDtnEpoch.toNat
      < 256 ^ n := hfits
    _ ≤ 256 ^ 7 := Nat.pow_le_pow_right (by decide) hn
    _ < 2 ^ 64 := by decide

theorem get_finished {format : TcConfig} {u : UnsegmentedState} {timestamp : UInt64} {n : Nat}
    (hn : n ≤ 7) (htype : format.type = .unsegmentedCcsdsEpoch)
    (hfits : timestamp.toNat + ccsdsEpochToDtnEpoch.toNat < 256 ^ n)
    (hcount : u.baseUnitCount = timestamp + ccsdsEpochToDtnEpoch) :
    tcGetDtnTimestamp (tcFinished format u) = timestamp := by
  have hsum := toNat_add_epoch hn hfits
  have hnotless : ¬ timestamp + ccsdsEpochToDtnEpoch < ccsdsEpochToDtnEpoch := by
    rw [UInt64.lt_iff_toNat_lt, hsum]
    omega
  unfold tcGetDtnTimestamp tcFinished
  simp only [ne_eq, not_true_eq_false, if_false, htype, hcount, if_neg hnotless]
  exact UInt64.add_sub_cancel _ _

theorem toNat_getSize {ctx : TcContext} (h : ctx.Supported) :
    (tcGetSize ctx).toNat =
      ctx.defaults.unsegmented.baseUnitOctets.toNat +
        ctx.defaults.unsegmented.fractionalOctets.toNat +
        (if ctx.withPField then (if needSecondByte ctx.defaults.unsegmented then 2 else 1)
          else 0) := by
  have hbase := h.base_le
  have hfractional := h.fractional_le
  unfold tcGetSize
  rw [h.type]
  dsimp only
  rw [UInt64.toNat_add, UInt64.toNat_add, UInt8.toNat_toUInt64, UInt8.toNat_toUInt64]
  have hpfield : (if ctx.withPField then
        (if needSecondByte ctx.defaults.unsegmented then (2 : UInt64) else 1) else 0).toNat =
      if ctx.withPField then (if needSecondByte ctx.defaults.unsegmented then 2 else 1)
        else 0 := by
    split_ifs <;> rfl
  rw [hpfield]
  split_ifs <;> omega

theorem length_serializeUnsegmented (config : UnsegmentedConfig) (seconds fractional : UInt64) :
    (serializeUnsegmented config seconds fractional).length =
      config.baseUnitOctets.toNat + config.fractionalOctets.toNat := by
  rw [serializeUnsegmented, List.length_append, length_serializeOctets, length_serializeOctets]

/-- **A time code** that is serialized is read back, and no other octet is needed. -/
theorem fed_timecode {ctx : TcContext} (h : ctx.Supported) {timestamp : UInt64}
    (hfits : timestamp.toNat + ccsdsEpochToDtnEpoch.toNat <
      256 ^ ctx.defaults.unsegmented.baseUnitOctets.toNat) (counter : UInt32) (q : TcParser) :
    ∃ bytes p, tcSerialize ctx timestamp counter = some bytes ∧
      bytes.length = (tcGetSize ctx).toNat ∧
      Fed tcStep (tcParserInit ctx q) bytes false p ∧
      p.status = .done ∧ tcGetDtnTimestamp p = timestamp := by
  have hsize := toNat_getSize h
  obtain ⟨withPField, type, base, fractional⟩ := ctx
  obtain ⟨rfl, hpos, hbase, hfractional⟩ := h
  dsimp only at hpos hbase hfractional hfits hsize
  let config : UnsegmentedConfig := ⟨base, fractional⟩
  let octets := serializeUnsegmented config (timestamp + ccsdsEpochToDtnEpoch)
    (counter.toUInt64 <<< 32)
  have hlength : octets.length = base.toNat + fractional.toNat := length_serializeUnsegmented ..
  have hseconds : (timestamp + ccsdsEpochToDtnEpoch).toNat < 256 ^ base.toNat := by
    rw [toNat_add_epoch hbase hfits]
    exact hfits
  obtain ⟨u', hcount, hfed⟩ :=
    @fed_unsegmented ⟨.unsegmentedCcsdsEpoch, config⟩ config _ (counter.toUInt64 <<< 32) rfl rfl
      hpos hbase hfractional hseconds
  have hget : tcGetDtnTimestamp (tcFinished ⟨.unsegmentedCcsdsEpoch, config⟩ u') = timestamp :=
    get_finished hbase rfl hfits hcount
  cases withPField with
  | false => exact ⟨octets, _, rfl, by rw [hlength, hsize]; rfl, hfed, rfl, hget⟩
  | true =>
      obtain ⟨preamble, hpreamble, hpreambleLength, hfedPreamble⟩ :=
        fed_preamble hpos hbase hfractional q.format q.state.detectedType
      refine ⟨preamble ++ octets, _, ?_, ?_, hfedPreamble.append hfed, rfl, hget⟩
      · unfold tcSerialize
        rw [if_pos rfl, hpreamble]
        rfl
      · rw [List.length_append, hlength, hpreambleLength, hsize, if_pos rfl, Nat.add_comm]

end Spp
