import DisruptaBLE.Bundle7.Serializer

/-!
# The frames of MTCP

`components/cla/mtcp_proto.c`: a frame is a CBOR byte string.  Its header is the head of that byte
string, and its data is a serialized bundle.
-/

namespace Mtcp

open Bundle7

/-- What MTCP uses of its `struct parser`. -/
structure FrameParser where
  /-- `PARSER_FLAG_DATA_SUBPARSER` -/
  dataSubparser : Bool
  nextBytes : Nat
  deriving DecidableEq, Repr

/-- `mtcp_parser_reset`. -/
def mtcpParserReset : FrameParser := ⟨false, 0⟩

variable (T : TinyCbor)

/-- `mtcp_parser_parse`.  The error of the last call is not looked at. -/
def mtcpParserParse (p : FrameParser) (buffer : List UInt8) : FrameParser × Nat :=
  let (err, it) := T.parserInit buffer
  let length : Except CborError Nat :=
    match err with
    | some e => .error e
    | none => if it.isByteString then T.getStringLength it else .error .illegalType
  match length with
  | .error .unexpectedEof => (p, 0)
  | .error _ => (p, 1)
  | .ok plLength =>
      let it := (T.advanceFixed { it with type := some .uint }).2
      (⟨true, plLength⟩, buffer.length - it.rest.length)

/-- `mtcp_encode_header`. -/
def mtcpEncodeHeader (dataLength : UInt64) : List UInt8 := toByteString (T.encodeUint dataLength)

end Mtcp
