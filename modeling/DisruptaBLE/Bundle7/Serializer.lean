import DisruptaBLE.Bundle7.Eid
import DisruptaBLE.Bundle7.Crc
import DisruptaBLE.Bundle7.Parser

/-!
# The serializer of version 7

`components/bundle7/serializer.c`.  What is written is returned with the result, also when an EID
cannot be serialized.  Apart from EIDs, everything that is encoded in one piece has room in the
buffer.

The stream for the checksums is a variable of the function: blocks whose CRC type is not one of the
known ones go on with what the block before has left in it.
-/

namespace Bundle7

open BundleProcessor

/-- `BUFFER_SIZE`. -/
def bufferSize : Nat := 128

/-- `primary_block_get_item_count`. -/
def primaryBlockGetItemCount (b : Bundle) : Nat :=
  8 + (if b.crcType ≠ .none then 1 else 0) + (if b.isFragmented then 2 else 0)

/-- `block_get_item_count`. -/
def blockGetItemCount (x : Block) : Nat := 5 + (if x.crcType ≠ .none then 1 else 0)

/-- `cbor_htons` on a machine with the least significant byte first. -/
def cborHtons (x : UInt32) : UInt32 :=
  ((x &&& (0xff : UInt32)) <<< 8) ||| ((x >>> 8) &&& (0xff : UInt32))

/-- `cbor_htonl` on a machine with the least significant byte first. -/
def cborHtonl (x : UInt32) : UInt32 :=
  (x <<< 24) ||| ((x &&& (0xff00 : UInt32)) <<< 8) ||| ((x >>> 8) &&& (0xff00 : UInt32)) |||
    (x >>> 24)

/-- `init_crc`. -/
def initCrc (crc : CrcStream) : CrcType → CrcStream
  | .crc32 => crcInit .crc32
  | .crc16 => crcInit .crc16X25
  | _ => crc

/-- `feed_crc`. -/
def feedCrc (crc : CrcStream) (type : CrcType) (bytes : List UInt8) : CrcStream :=
  if type ≠ .none then crcFeedBytes crc bytes else crc

variable (T : TinyCbor)

/-- `write_crc`: the stream and the field.  The bytes of the swapped checksum are those of the
checksum with the most significant one first. -/
def writeCrc (type : CrcType) (crc : CrcStream) : CrcStream × List UInt8 :=
  if type = .crc32 then
    let crc := (crcFeedBytes crc [0x44, 0x00, 0x00, 0x00, 0x00]).feedEof
    ({ crc with checksum := cborHtonl crc.checksum },
      T.encodeByteString (Cbor.toBytes 4 crc.checksum.toNat))
  else
    let crc := (crcFeedBytes crc [0x42, 0x00, 0x00]).feedEof
    ({ crc with checksum := cborHtons crc.checksum },
      T.encodeByteString (Cbor.toBytes 2 crc.checksum.toNat))

/-- The field of a CRC, if there is one. -/
def crcField (type : CrcType) (crc : CrcStream) : CrcStream × List UInt8 :=
  if type ≠ .none then writeCrc T type crc else (crc, [])

/-- The beginning of the primary block, without the header of the bundle. -/
def primaryHead (b : Bundle) : List UInt8 :=
  UInt8.ofNat (0x80 + primaryBlockGetItemCount b) :: (T.encodeUint b.protocolVersion.toUInt64 ++
    T.encodeUint (b.procFlags &&& bpV7Flags).toUInt64 ++ T.encodeUint b.crcType.code)

/-- The creation timestamp, and the numbers behind it. -/
def primaryTail (b : Bundle) : List UInt8 :=
  0x82 :: (T.encodeUint b.creationTimestampMs ++ T.encodeUint b.sequenceNumber ++
    T.encodeUint b.lifetimeMs ++
    if b.isFragmented then
      T.encodeUint b.fragmentOffset.toUInt64 ++ T.encodeUint b.totalAduLength.toUInt64
    else [])

/-- The EIDs of the primary block: whether all of them fit, the stream, and what is written. -/
def writeEids (type : CrcType) : List CStr → CrcStream → Bool × CrcStream × List UInt8
  | [], crc => (true, crc, [])
  | eid :: eids, crc =>
      match bundle7EidSerialize T eid bufferSize with
      | none => (false, crc, [])
      | some bytes =>
          let (ok, crc, written) := writeEids type eids (feedCrc crc type bytes)
          (ok, crc, bytes ++ written)

/-- A byte string header, from the number with which it shares its form. -/
def toByteString : List UInt8 → List UInt8
  | [] => []
  | b :: bytes => (b ||| 0x40) :: bytes

/-- What is written of a block before its data. -/
def blockHead (x : Block) : List UInt8 :=
  UInt8.ofNat (0x80 + blockGetItemCount x) :: (T.encodeUint x.type.toUInt64 ++
    T.encodeUint x.number.toUInt64 ++
    T.encodeUint (bundle7ConvertToProtocolBlockFlags x).toUInt64 ++
    T.encodeUint x.crcType.code ++ toByteString (T.encodeUint x.data.length.toUInt64))

/-- A pass of the loop over the blocks. -/
def serializeBlock (crc : CrcStream) (x : Block) : CrcStream × List UInt8 :=
  let crc := feedCrc (initCrc crc x.crcType) x.crcType (blockHead T x)
  let crc := feedCrc crc x.crcType x.data.bytes
  let (crc, field) := crcField T x.crcType crc
  (crc, blockHead T x ++ x.data.bytes ++ field)

/-- The loop over the blocks. -/
def serializeBlocks : CrcStream → List Block → List UInt8
  | _, [] => []
  | crc, x :: xs => (serializeBlock T crc x).2 ++ serializeBlocks (serializeBlock T crc x).1 xs

/-- `bundle7_serialize`: whether it returns `UD3TN_OK`, and what it writes. -/
def bundle7Serialize (crc : CrcStream) (b : Bundle) : Bool × List UInt8 :=
  if b.protocolVersion ≠ 7 then (false, [])
  else
    let crc := feedCrc (initCrc crc b.crcType) b.crcType (primaryHead T b)
    let (ok, crc, eids) := writeEids T b.crcType [b.destination, b.source, b.reportTo] crc
    let written := 0x9f :: primaryHead T b ++ eids
    if ok then
      let (crc, field) := crcField T b.crcType (feedCrc crc b.crcType (primaryTail T b))
      (true, written ++ primaryTail T b ++ field ++ serializeBlocks T crc b.blocks ++ [0xff])
    else (false, written)

end Bundle7
