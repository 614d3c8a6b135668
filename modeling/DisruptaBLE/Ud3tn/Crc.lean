import DisruptaBLE.Bundle7.Crc
import DisruptaBLE.Lib.BitCrc

/-!
# The checksums of the library

`components/ud3tn/crc.c`, whole: three checks, each as a function over a buffer and as a stream.
All six work with tables of literals; `x25`, `ccittFalse` and `castagnoli` are what the comments of
the file document about them.  The streams of version 7 of the bundle protocol, which leave out one
of the checks, are these streams (`feed_ofBundle7`).
-/

namespace Crc

open Bundle7 (crc16X25Table crc32Table crcFeedWith)

/-- `enum crc_version`. -/
inductive CrcVersion where
  | crc16X25
  | crc16CcittFalse
  | crc32
  deriving DecidableEq, Repr

/-- `struct crc_stream`: the version stands for its two functions. -/
structure CrcStream where
  version : CrcVersion
  checksum : UInt32
  deriving DecidableEq, Repr

/-- `crc16_ccitt_false_table`. -/
def crc16CcittFalseTable : List UInt16 :=
   [0x0000, 0x1021, 0x2042, 0x3063, 0x4084, 0x50a5, 0x60c6, 0x70e7, 0x8108, 0x9129, 0xa14a, 0xb16b,
    0xc18c, 0xd1ad, 0xe1ce, 0xf1ef, 0x1231, 0x0210, 0x3273, 0x2252, 0x52b5, 0x4294, 0x72f7, 0x62d6,
    0x9339, 0x8318, 0xb37b, 0xa35a, 0xd3bd, 0xc39c, 0xf3ff, 0xe3de, 0x2462, 0x3443, 0x0420, 0x1401,
    0x64e6, 0x74c7, 0x44a4, 0x5485, 0xa56a, 0xb54b, 0x8528, 0x9509, 0xe5ee, 0xf5cf, 0xc5ac, 0xd58d,
    0x3653, 0x2672, 0x1611, 0x0630, 0x76d7, 0x66f6, 0x5695, 0x46b4, 0xb75b, 0xa77a, 0x9719, 0x8738,
    0xf7df, 0xe7fe, 0xd79d, 0xc7bc, 0x48c4, 0x58e5, 0x6886, 0x78a7, 0x0840, 0x1861, 0x2802, 0x3823,
    0xc9cc, 0xd9ed, 0xe98e, 0xf9af, 0x8948, 0x9969, 0xa90a, 0xb92b, 0x5af5, 0x4ad4, 0x7ab7, 0x6a96,
    0x1a71, 0x0a50, 0x3a33, 0x2a12, 0xdbfd, 0xcbdc, 0xfbbf, 0xeb9e, 0x9b79, 0x8b58, 0xbb3b, 0xab1a,
    0x6ca6, 0x7c87, 0x4ce4, 0x5cc5, 0x2c22, 0x3c03, 0x0c60, 0x1c41, 0xedae, 0xfd8f, 0xcdec, 0xddcd,
    0xad2a, 0xbd0b, 0x8d68, 0x9d49, 0x7e97, 0x6eb6, 0x5ed5, 0x4ef4, 0x3e13, 0x2e32, 0x1e51, 0x0e70,
    0xff9f, 0xefbe, 0xdfdd, 0xcffc, 0xbf1b, 0xaf3a, 0x9f59, 0x8f78, 0x9188, 0x81a9, 0xb1ca, 0xa1eb,
    0xd10c, 0xc12d, 0xf14e, 0xe16f, 0x1080, 0x00a1, 0x30c2, 0x20e3, 0x5004, 0x4025, 0x7046, 0x6067,
    0x83b9, 0x9398, 0xa3fb, 0xb3da, 0xc33d, 0xd31c, 0xe37f, 0xf35e, 0x02b1, 0x1290, 0x22f3, 0x32d2,
    0x4235, 0x5214, 0x6277, 0x7256, 0xb5ea, 0xa5cb, 0x95a8, 0x8589, 0xf56e, 0xe54f, 0xd52c, 0xc50d,
    0x34e2, 0x24c3, 0x14a0, 0x0481, 0x7466, 0x6447, 0x5424, 0x4405, 0xa7db, 0xb7fa, 0x8799, 0x97b8,
    0xe75f, 0xf77e, 0xc71d, 0xd73c, 0x26d3, 0x36f2, 0x0691, 0x16b0, 0x6657, 0x7676, 0x4615, 0x5634,
    0xd94c, 0xc96d, 0xf90e, 0xe92f, 0x99c8, 0x89e9, 0xb98a, 0xa9ab, 0x5844, 0x4865, 0x7806, 0x6827,
    0x18c0, 0x08e1, 0x3882, 0x28a3, 0xcb7d, 0xdb5c, 0xeb3f, 0xfb1e, 0x8bf9, 0x9bd8, 0xabbb, 0xbb9a,
    0x4a75, 0x5a54, 0x6a37, 0x7a16, 0x0af1, 0x1ad0, 0x2ab3, 0x3a92, 0xfd2e, 0xed0f, 0xdd6c, 0xcd4d,
    0xbdaa, 0xad8b, 0x9de8, 0x8dc9, 0x7c26, 0x6c07, 0x5c64, 0x4c45, 0x3ca2, 0x2c83, 0x1ce0, 0x0cc1,
    0xef1f, 0xff3e, 0xcf5d, 0xdf7c, 0xaf9b, 0xbfba, 0x8fd9, 0x9ff8, 0x6e17, 0x7e36, 0x4e55, 0x5e74,
    0x2e93, 0x3eb2, 0x0ed1, 0x1ef0]

/-! ## Functions over a buffer -/

/-- `crc16_x25`, the body of its loop. -/
def crc16X25Step (crc : UInt16) (byte : UInt8) : UInt16 :=
  ((crc >>> 8).toUInt32 ^^^ crc16X25Table.getD ((crc &&& 0xff).toUInt8 ^^^ byte).toNat 0).toUInt16

/-- `crc16_x25`. -/
def crc16X25 (data : List UInt8) : UInt16 := data.foldl crc16X25Step 0xffff ^^^ 0xffff

/-- `crc16_ccitt_false`, the body of its loop. -/
def crc16CcittFalseStep (crc : UInt16) (byte : UInt8) : UInt16 :=
  let index := (((crc >>> 8) ^^^ byte.toUInt16) &&& 0x00ff).toUInt8
  ((crc <<< 8) &&& 0xff00) ^^^ crc16CcittFalseTable.getD index.toNat 0

/-- `crc16_ccitt_false`. -/
def crc16CcittFalse (data : List UInt8) : UInt16 := data.foldl crc16CcittFalseStep 0xffff

/-- `crc32`, the body of its loop. -/
def crc32Step (crc : UInt32) (byte : UInt8) : UInt32 :=
  (crc >>> 8) ^^^ crc32Table.getD ((crc &&& 0xff).toUInt8 ^^^ byte).toNat 0

/-- `crc32`. -/
def crc32 (data : List UInt8) : UInt32 := data.foldl crc32Step 0xffffffff ^^^ 0xffffffff

/-! ## Streams -/

/-- `crc16_ccitt_false_feed`, on the checksum of the stream. -/
def crc16CcittFalseFeed (checksum : UInt32) (byte : UInt8) : UInt32 :=
  let index := (((checksum >>> 8) ^^^ byte.toUInt32) &&& 0x00ff).toUInt8
  ((checksum <<< 8) &&& 0xff00) ^^^ (crc16CcittFalseTable.getD index.toNat 0).toUInt32

/-- `crc->feed`. -/
def CrcStream.feed (crc : CrcStream) (byte : UInt8) : CrcStream :=
  match crc.version with
  | .crc16X25 => { crc with checksum := crcFeedWith crc16X25Table crc.checksum byte }
  | .crc16CcittFalse => { crc with checksum := crc16CcittFalseFeed crc.checksum byte }
  | .crc32 => { crc with checksum := crcFeedWith crc32Table crc.checksum byte }

/-- `crc->feed_eof`. -/
def CrcStream.feedEof (crc : CrcStream) : CrcStream :=
  match crc.version with
  | .crc16X25 => { crc with checksum := crc.checksum ^^^ 0xffff }
  | .crc16CcittFalse => crc
  | .crc32 => { crc with checksum := crc.checksum ^^^ 0xffffffff }

/-- `crc_feed_bytes`. -/
def crcFeedBytes (crc : CrcStream) (data : List UInt8) : CrcStream := data.foldl CrcStream.feed crc

/-- `crc_init`. -/
def crcInit : CrcVersion → CrcStream
  | .crc16X25 => ⟨.crc16X25, 0xffff⟩
  | .crc16CcittFalse => ⟨.crc16CcittFalse, 0xffff⟩
  | .crc32 => ⟨.crc32, 0xffffffff⟩

/-- The function over a buffer that goes with a stream, in the width of a stream. -/
def oneShot : CrcVersion → List UInt8 → UInt32
  | .crc16X25, data => (crc16X25 data).toUInt32
  | .crc16CcittFalse, data => (crc16CcittFalse data).toUInt32
  | .crc32, data => crc32 data

/-- A stream over a message that comes in pieces. -/
def streamed (version : CrcVersion) (pieces : List (List UInt8)) : UInt32 :=
  (pieces.foldl crcFeedBytes (crcInit version)).feedEof.checksum

/-! ## What the file documents -/

/-- "Reflected X.25 CRC-16". -/
def x25 : BitCrc.Parameters 16 where
  poly := 0x1021
  reflectInput := true
  reflectResult := true
  initial := 0xffff
  finalXor := 0xffff

/-- "CRC-16 CCITT FALSE". -/
def ccittFalse : BitCrc.Parameters 16 where
  poly := 0x1021
  reflectInput := false
  reflectResult := false
  initial := 0xffff
  finalXor := 0x0000

/-- "Reflected CRC-32-C (Castagnoli)". -/
def castagnoli : BitCrc.Parameters 32 where
  poly := 0x1edc6f41
  reflectInput := true
  reflectResult := true
  initial := 0xffffffff
  finalXor := 0xffffffff

/-- A buffer as bit vectors. -/
def message (data : List UInt8) : List (BitVec 8) := data.map UInt8.toBitVec

/-! ## Tables -/

/-- Two lists of 256 entries that agree are one table. -/
theorem getD_of_map_eq {α β : Type} {table : List α} (f : α → β) (entry : BitVec 8 → β)
    (h : table.map f = (List.range 256).map fun i => entry (BitVec.ofNat 8 i)) (d : α)
    (index : BitVec 8) : f (table.getD index.toNat d) = entry index := by
  have hlength : table.length = 256 := by
    simpa using congrArg List.length h
  have hindex : index.toNat < 256 := index.isLt
  have hlt : index.toNat < table.length := by
    omega
  have hget := congrArg (fun l => l[index.toNat]?) h
  simpa [hindex, hlt] using hget

theorem crc16X25Table_eq (index : BitVec 8) :
    (crc16X25Table.getD index.toNat 0).toBitVec =
      (BitCrc.reflectedEntry x25.poly index).setWidth 32 := by
  have hpoly : x25.poly.reverse = 0x8408#16 := by
    decide +kernel
  rw [BitCrc.reflectedEntry_eq, hpoly]
  refine getD_of_map_eq UInt32.toBitVec (fun index =>
    (((List.range 8).map index.getLsbD).foldl (BitCrc.shiftOut 0x8408#16) 0#16).setWidth 32) ?_ 0 _
  decide +kernel

theorem crc16CcittFalseTable_eq (index : BitVec 8) :
    (crc16CcittFalseTable.getD index.toNat 0).toBitVec =
      BitCrc.tableEntry ccittFalse.poly index := by
  refine getD_of_map_eq UInt16.toBitVec (BitCrc.tableEntry ccittFalse.poly) ?_ 0 _
  decide +kernel

theorem crc32Table_eq (index : BitVec 8) :
    (crc32Table.getD index.toNat 0).toBitVec = BitCrc.reflectedEntry castagnoli.poly index := by
  have hpoly : castagnoli.poly.reverse = 0x82f63b78#32 := by
    decide +kernel
  rw [BitCrc.reflectedEntry_eq, hpoly]
  refine getD_of_map_eq UInt32.toBitVec (fun index =>
    ((List.range 8).map index.getLsbD).foldl (BitCrc.shiftOut 0x82f63b78#32) 0#32) ?_ 0 _
  decide +kernel

/-! ## One byte -/

theorem setWidth_low (x : BitVec 32) : (x &&& 0xff#32).setWidth 8 = x.setWidth 8 := by
  have hones : (0xff#32).setWidth 8 = BitVec.allOnes 8 := by
    decide
  rw [BitVec.setWidth_and, hones, BitVec.and_allOnes]

theorem setWidth_low16 (x : BitVec 16) : (x &&& 0xff#16).setWidth 8 = x.setWidth 8 := by
  have hones : (0xff#16).setWidth 8 = BitVec.allOnes 8 := by
    decide
  rw [BitVec.setWidth_and, hones, BitVec.and_allOnes]

theorem shiftLeft_upper (x : BitVec 16) : x <<< 8 &&& 0xff00#16 = x <<< 8 := by
  have hmask : ∀ i : Fin 16, (0xff00#16).getLsbD i.val = decide (8 ≤ i.val) := by
    decide
  apply BitVec.eq_of_getLsbD_eq
  intro i hi
  rw [BitVec.getLsbD_and, hmask ⟨i, hi⟩, BitVec.getLsbD_shiftLeft]
  by_cases hlow : i < 8 <;> simp [hlow]
  omega

theorem crc32Step_toBitVec (crc : UInt32) (byte : UInt8) :
    (crc32Step crc byte).toBitVec =
      BitCrc.reflectedStep castagnoli.poly crc.toBitVec byte.toBitVec := by
  have hentry := crc32Table_eq ((crc &&& 0xff).toUInt8 ^^^ byte).toBitVec
  have hindex : ((crc &&& 0xff).toUInt8 ^^^ byte).toBitVec =
      crc.toBitVec.setWidth 8 ^^^ byte.toBitVec := by
    rw [UInt8.toBitVec_xor, UInt32.toBitVec_toUInt8, UInt32.toBitVec_and]
    exact congrArg (· ^^^ byte.toBitVec) (setWidth_low _)
  rw [crc32Step, UInt32.toBitVec_xor, UInt32.toBitVec_shiftRight, BitCrc.reflectedStep, ← hindex,
    ← hentry]
  rfl

theorem crc16X25Step_toBitVec (crc : UInt16) (byte : UInt8) :
    (crc16X25Step crc byte).toBitVec =
      BitCrc.reflectedStep x25.poly crc.toBitVec byte.toBitVec := by
  have hentry := crc16X25Table_eq ((crc &&& 0xff).toUInt8 ^^^ byte).toBitVec
  have hindex : ((crc &&& 0xff).toUInt8 ^^^ byte).toBitVec =
      crc.toBitVec.setWidth 8 ^^^ byte.toBitVec := by
    rw [UInt8.toBitVec_xor, UInt16.toBitVec_toUInt8, UInt16.toBitVec_and]
    exact congrArg (· ^^^ byte.toBitVec) (setWidth_low16 _)
  rw [crc16X25Step, UInt32.toBitVec_toUInt16, UInt32.toBitVec_xor, BitVec.setWidth_xor,
    UInt16.toBitVec_toUInt32, UInt16.toBitVec_shiftRight, BitCrc.reflectedStep, ← hindex]
  have hwiden : ∀ x : BitVec 16, (x.setWidth 32).setWidth 16 = x := fun x => by
    rw [BitVec.setWidth_setWidth_of_le x (by decide), BitVec.setWidth_eq]
  rw [hwiden]
  exact congrArg₂ (· ^^^ ·) rfl ((congrArg _ hentry).trans (hwiden _))

theorem crc16CcittFalseStep_toBitVec (crc : UInt16) (byte : UInt8) :
    (crc16CcittFalseStep crc byte).toBitVec =
      BitCrc.tableStep ccittFalse.poly crc.toBitVec byte.toBitVec := by
  let index := (((crc >>> 8) ^^^ byte.toUInt16) &&& 0x00ff).toUInt8
  have hentry := crc16CcittFalseTable_eq index.toBitVec
  have hindex : index.toBitVec = BitCrc.topByte crc.toBitVec ^^^ byte.toBitVec := by
    show ((((crc >>> 8) ^^^ byte.toUInt16) &&& 0x00ff).toUInt8).toBitVec = _
    rw [UInt16.toBitVec_toUInt8, UInt16.toBitVec_and]
    refine (setWidth_low16 _).trans ?_
    rw [UInt16.toBitVec_xor, BitVec.setWidth_xor, UInt8.toBitVec_toUInt16,
      BitVec.setWidth_setWidth_of_le _ (by decide), BitVec.setWidth_eq]
    rfl
  have hupper : (crc <<< 8 &&& 0xff00).toBitVec = crc.toBitVec <<< 8 := by
    rw [UInt16.toBitVec_and, UInt16.toBitVec_shiftLeft]
    exact shiftLeft_upper _
  show ((crc <<< 8 &&& 0xff00) ^^^ crc16CcittFalseTable.getD index.toNat 0).toBitVec = _
  rw [UInt16.toBitVec_xor, hupper, BitCrc.tableStep, ← hindex, ← hentry]
  rfl

/-! ## Buffers -/

/-- The register of a table, as bits, through all bytes. -/
theorem foldl_bytes {σ : Type} {w : Nat} {bits : σ → BitVec w} {step : σ → UInt8 → σ}
    {bitStep : BitVec w → BitVec 8 → BitVec w}
    (h : ∀ crc byte, bits (step crc byte) = bitStep (bits crc) byte.toBitVec) (crc : σ)
    (data : List UInt8) :
    bits (data.foldl step crc) = (message data).foldl bitStep (bits crc) := by
  rw [message, List.foldl_map]
  exact (List.foldl_hom bits fun crc byte => (h crc byte).symm).symm

theorem crc32_toBitVec (data : List UInt8) :
    (crc32 data).toBitVec = castagnoli.checksum (message data) := by
  have hfold := foldl_bytes crc32Step_toBitVec 0xffffffff data
  rw [crc32, UInt32.toBitVec_xor, hfold,
    BitCrc.Parameters.checksum_reflected castagnoli _ (by decide) rfl rfl]
  have hinitial : castagnoli.initial.reverse = (0xffffffff : UInt32).toBitVec := by
    decide +kernel
  rw [hinitial]
  rfl

theorem crc16X25_toBitVec (data : List UInt8) :
    (crc16X25 data).toBitVec = x25.checksum (message data) := by
  have hfold := foldl_bytes crc16X25Step_toBitVec 0xffff data
  rw [crc16X25, UInt16.toBitVec_xor, hfold,
    BitCrc.Parameters.checksum_reflected x25 _ (by decide) rfl rfl]
  have hinitial : x25.initial.reverse = (0xffff : UInt16).toBitVec := by
    decide +kernel
  rw [hinitial]
  rfl

theorem crc16CcittFalse_toBitVec (data : List UInt8) :
    (crc16CcittFalse data).toBitVec = ccittFalse.checksum (message data) := by
  have hfold := foldl_bytes crc16CcittFalseStep_toBitVec 0xffff data
  rw [crc16CcittFalse, hfold,
    BitCrc.Parameters.checksum_direct ccittFalse _ (by decide) rfl rfl]
  exact (BitVec.xor_zero).symm

/-! ## Streams -/

theorem crcFeedBytes_append (crc : CrcStream) (a b : List UInt8) :
    crcFeedBytes crc (a ++ b) = crcFeedBytes (crcFeedBytes crc a) b :=
  List.foldl_append

/-- It does not matter in which pieces a message comes. -/
theorem foldl_crcFeedBytes (crc : CrcStream) (pieces : List (List UInt8)) :
    pieces.foldl crcFeedBytes crc = crcFeedBytes crc pieces.flatten := by
  induction pieces generalizing crc with
  | nil => rfl
  | cons piece pieces ih => rw [List.foldl_cons, ih, List.flatten_cons, crcFeedBytes_append]

theorem topByte_widen (x : BitVec 16) :
    ((x.setWidth 32) >>> 8).setWidth 8 = BitCrc.topByte x := by
  rw [← BitVec.setWidth_ushiftRight (by decide), BitVec.setWidth_setWidth_of_le _ (by decide)]
  rfl

/-- The mask does for 32 bits what the width does for 16. -/
theorem shiftLeft_widen (x : BitVec 16) :
    x.setWidth 32 <<< 8 &&& 0xff00#32 = (x <<< 8).setWidth 32 := by
  have hmask : ∀ i : Fin 32, (0xff00#32).getLsbD i.val = decide (8 ≤ i.val ∧ i.val < 16) := by
    decide
  apply BitVec.eq_of_getLsbD_eq
  intro i hi
  rw [BitVec.getLsbD_and, hmask ⟨i, hi⟩, BitVec.getLsbD_shiftLeft, BitVec.getLsbD_setWidth,
    BitVec.getLsbD_setWidth, BitVec.getLsbD_shiftLeft]
  by_cases hlow : i < 8
  · simp [hlow]
  · by_cases hhigh : i < 16
    · have hbit : i - 8 < 32 := by
        omega
      simp [hlow, hhigh, hi, hbit, Nat.le_of_not_lt hlow]
    · simp [hhigh]

/-- A stream of 32 bits over a check of 16 bits. -/
theorem crcFeedWith_widen (crc : UInt16) (byte : UInt8) :
    crcFeedWith crc16X25Table crc.toUInt32 byte = (crc16X25Step crc byte).toUInt32 := by
  let index := (crc.toUInt32 &&& 0xff).toUInt8 ^^^ byte
  have hindex : index.toBitVec = crc.toBitVec.setWidth 8 ^^^ byte.toBitVec := by
    show ((crc.toUInt32 &&& 0xff).toUInt8 ^^^ byte).toBitVec = _
    rw [UInt8.toBitVec_xor, UInt32.toBitVec_toUInt8, UInt32.toBitVec_and,
      UInt16.toBitVec_toUInt32]
    refine congrArg (· ^^^ byte.toBitVec) ((setWidth_low _).trans ?_)
    exact BitVec.setWidth_setWidth_of_le _ (by decide)
  have hentry := crc16X25Table_eq index.toBitVec
  apply UInt32.toBitVec_inj.mp
  show (crc.toUInt32 >>> 8 ^^^ crc16X25Table.getD index.toNat 0).toBitVec = _
  rw [UInt32.toBitVec_xor, UInt32.toBitVec_shiftRight, UInt16.toBitVec_toUInt32,
    UInt16.toBitVec_toUInt32, crc16X25Step_toBitVec, BitCrc.reflectedStep, ← hindex,
    BitVec.setWidth_xor, ← hentry, BitVec.setWidth_ushiftRight (by decide)]
  rfl

theorem crc16CcittFalseFeed_widen (crc : UInt16) (byte : UInt8) :
    crc16CcittFalseFeed crc.toUInt32 byte = (crc16CcittFalseStep crc byte).toUInt32 := by
  let index := (((crc.toUInt32 >>> 8) ^^^ byte.toUInt32) &&& 0x00ff).toUInt8
  have hindex : index.toBitVec = BitCrc.topByte crc.toBitVec ^^^ byte.toBitVec := by
    show ((((crc.toUInt32 >>> 8) ^^^ byte.toUInt32) &&& 0x00ff).toUInt8).toBitVec = _
    rw [UInt32.toBitVec_toUInt8, UInt32.toBitVec_and]
    refine (setWidth_low _).trans ?_
    rw [UInt32.toBitVec_xor, BitVec.setWidth_xor, UInt8.toBitVec_toUInt32,
      BitVec.setWidth_setWidth_of_le _ (by decide), BitVec.setWidth_eq,
      UInt32.toBitVec_shiftRight, UInt16.toBitVec_toUInt32]
    exact congrArg (· ^^^ byte.toBitVec) (topByte_widen _)
  have hentry := crc16CcittFalseTable_eq index.toBitVec
  have hupper : (crc.toUInt32 <<< 8 &&& 0xff00).toBitVec = (crc.toBitVec <<< 8).setWidth 32 := by
    rw [UInt32.toBitVec_and, UInt32.toBitVec_shiftLeft, UInt16.toBitVec_toUInt32]
    exact shiftLeft_widen _
  apply UInt32.toBitVec_inj.mp
  show ((crc.toUInt32 <<< 8 &&& 0xff00) ^^^
    (crc16CcittFalseTable.getD index.toNat 0).toUInt32).toBitVec = _
  rw [UInt32.toBitVec_xor, hupper, UInt16.toBitVec_toUInt32, UInt16.toBitVec_toUInt32,
    crc16CcittFalseStep_toBitVec, BitCrc.tableStep, ← hindex, BitVec.setWidth_xor, ← hentry]
  rfl

/-- A register of a table, which a stream carries in 32 bits, through all bytes. -/
theorem feed_register {σ : Type} {version : CrcVersion} {widen : σ → UInt32}
    {step : σ → UInt8 → σ}
    (h : ∀ crc byte, CrcStream.feed ⟨version, widen crc⟩ byte = ⟨version, widen (step crc byte)⟩)
    (crc : σ) (data : List UInt8) :
    crcFeedBytes ⟨version, widen crc⟩ data = ⟨version, widen (data.foldl step crc)⟩ := by
  rw [crcFeedBytes]
  exact List.foldl_hom (fun crc => CrcStream.mk version (widen crc)) h

theorem feed_crc16X25 (crc : UInt16) (byte : UInt8) :
    CrcStream.feed ⟨.crc16X25, crc.toUInt32⟩ byte = ⟨.crc16X25, (crc16X25Step crc byte).toUInt32⟩ :=
  congrArg (CrcStream.mk .crc16X25) (crcFeedWith_widen crc byte)

theorem feed_crc16CcittFalse (crc : UInt16) (byte : UInt8) :
    CrcStream.feed ⟨.crc16CcittFalse, crc.toUInt32⟩ byte =
      ⟨.crc16CcittFalse, (crc16CcittFalseStep crc byte).toUInt32⟩ :=
  congrArg (CrcStream.mk .crc16CcittFalse) (crc16CcittFalseFeed_widen crc byte)

theorem feed_crc32 (crc : UInt32) (byte : UInt8) :
    CrcStream.feed ⟨.crc32, id crc⟩ byte = ⟨.crc32, id (crc32Step crc byte)⟩ := rfl

theorem streamed_eq (version : CrcVersion) (pieces : List (List UInt8)) :
    streamed version pieces = oneShot version pieces.flatten := by
  have hlast {crc crc' : CrcStream} (h : crc = crc') :
      crc.feedEof.checksum = crc'.feedEof.checksum := by
    rw [h]
  rw [streamed, foldl_crcFeedBytes]
  cases version with
  | crc16X25 => exact hlast (feed_register feed_crc16X25 0xffff pieces.flatten)
  | crc16CcittFalse => exact hlast (feed_register feed_crc16CcittFalse 0xffff pieces.flatten)
  | crc32 => exact hlast (feed_register feed_crc32 0xffffffff pieces.flatten)

/-- **The checksums are the documented ones.**  The three functions over a buffer compute their
checks, and a stream ends in the same checksum, in whichever pieces the message comes. -/
theorem checksums_documented (data : List UInt8) (pieces : List (List UInt8)) :
    (crc16X25 data).toBitVec = x25.checksum (message data) ∧
      (crc16CcittFalse data).toBitVec = ccittFalse.checksum (message data) ∧
      (crc32 data).toBitVec = castagnoli.checksum (message data) ∧
      ∀ version, streamed version pieces = oneShot version pieces.flatten :=
  ⟨crc16X25_toBitVec data, crc16CcittFalse_toBitVec data, crc32_toBitVec data,
    fun version => streamed_eq version pieces⟩

/-- The text "asdf" of the unit test. -/
example : crc16X25 [0x61, 0x73, 0x64, 0x66] = 0x1238 ∧
    crc16CcittFalse [0x61, 0x73, 0x64, 0x66] = 0xe170 ∧
    crc32 [0x61, 0x73, 0x64, 0x66] = 0xdc7d5c77 := by
  decide +kernel

/-! ## The streams of version 7 -/

/-- The two checks that bundles of version 7 use. -/
def ofBundle7 : Bundle7.CrcStream → CrcStream
  | ⟨.crc16X25, checksum⟩ => ⟨.crc16X25, checksum⟩
  | ⟨.crc32, checksum⟩ => ⟨.crc32, checksum⟩

theorem feed_ofBundle7 (crc : Bundle7.CrcStream) (byte : UInt8) :
    ofBundle7 (crc.feed byte) = (ofBundle7 crc).feed byte := by
  obtain ⟨version, checksum⟩ := crc
  cases version with
  | crc16X25 => rfl
  | crc32 => rfl

theorem crcFeedBytes_ofBundle7 (crc : Bundle7.CrcStream) (data : List UInt8) :
    ofBundle7 (Bundle7.crcFeedBytes crc data) = crcFeedBytes (ofBundle7 crc) data := by
  rw [crcFeedBytes, Bundle7.crcFeedBytes]
  exact (List.foldl_hom ofBundle7 fun crc byte => (feed_ofBundle7 crc byte).symm).symm

theorem feedEof_ofBundle7 (crc : Bundle7.CrcStream) :
    crc.feedEof.checksum = (ofBundle7 crc).feedEof.checksum := by
  obtain ⟨version, checksum⟩ := crc
  cases version with
  | crc16X25 => rfl
  | crc32 => rfl

/-- The checksum of a block of version 7 is a documented one. -/
theorem bundle7_checksum (fed : List UInt8) :
    (Bundle7.crcFeedBytes (Bundle7.crcInit .crc16X25) fed).feedEof.checksum =
        (crc16X25 fed).toUInt32 ∧
      (Bundle7.crcFeedBytes (Bundle7.crcInit .crc32) fed).feedEof.checksum = crc32 fed := by
  have hpiece : [fed].flatten = fed := List.flatten_singleton
  have hx25 := streamed_eq .crc16X25 [fed]
  have hcrc32 := streamed_eq .crc32 [fed]
  rw [hpiece] at hx25 hcrc32
  constructor
  · rw [feedEof_ofBundle7, crcFeedBytes_ofBundle7]
    exact hx25
  · rw [feedEof_ofBundle7, crcFeedBytes_ofBundle7]
    exact hcrc32

end Crc
