import DisruptaBLE.Bundle7.TinyCbor
import DisruptaBLE.Processor.Bundle

/-!
# Endpoint identifiers

`components/bundle7/eid.c`: the CBOR representation of endpoint identifiers, which is an array of
the scheme and of what is specific to it.

Requests for memory are served, and the `snprintf` of the parser cuts the text to the space that
was requested for it.
-/

namespace Bundle7

open BundleProcessor

/-! ## Strings -/

/-- The bytes of a C string. -/
def cBytes (s : CStr) : List UInt8 := s.map fun c => UInt8.ofNat c.toNat

/-- The C string at the begin of some bytes. -/
def cString (l : List UInt8) : CStr := (l.takeWhile (· ≠ 0)).map fun b => Char.ofNat b.toNat

/-- The loop of `decimal_digits`. -/
def decimalDigitsLoop : Nat → Nat → Nat
  | 0, _ => 0
  | fuel + 1, number => if number = 0 then 0 else 1 + decimalDigitsLoop fuel (number / 10)

/-- `decimal_digits`.  Numbers of 32 bits have no more than ten digits. -/
def decimalDigits (number : UInt32) : Nat := decimalDigitsLoop 10 number.toNat

/-! ## Parser -/

variable (T : TinyCbor)

/-- `eid_parse_dtn`.  The result of the first `cbor_value_advance_fixed` is not looked at. -/
def eidParseDtn (it : CborValue) : Except CborError (CStr × CborValue) :=
  if it.isUnsignedInteger then
    if T.getUint64 it ≠ 0 then .error .illegalType
    else .ok ("dtn:none".toList, (T.advanceFixed it).2)
  else if it.isTextString then do
    let length ← T.getStringLength it
    if it.rest.length < length then .error .unexpectedEof
    else
      let (ssp, it) ← T.copyString it (length + 1)
      .ok ("dtn:".toList ++ cString ssp, it)
  else .error .illegalType

/-- The text of an `ipn` EID in the memory that was requested for it. -/
def ipnText (nodenum servicenum : UInt64) : CStr :=
  let length := 4 + decimalDigits nodenum.toUInt32 + 1 + decimalDigits servicenum.toUInt32 + 1
  ("ipn:".toList ++ Nat.toDigits 10 nodenum.toNat ++ '.' :: Nat.toDigits 10 servicenum.toNat).take
    (length - 1)

/-- `eid_parse_ipn`. -/
def eidParseIpn (it : CborValue) : Except CborError (CStr × CborValue) :=
  if it.isArray && it.lengthKnown then do
    let recursed ← T.enterContainer it
    if recursed.isUnsignedInteger then
      let nodenum := T.getUint64 recursed
      let recursed ← checked (T.advanceFixed recursed)
      if recursed.isUnsignedInteger then
        let servicenum := T.getUint64 recursed
        let recursed ← checked (T.advanceFixed recursed)
        if recursed.atEnd then
          let it ← T.leaveContainer it recursed
          .ok (ipnText nodenum servicenum, it)
        else .error .illegalType
      else .error .illegalType
    else .error .illegalType
  else .error .illegalType

/-- What `bundle7_eid_parse_cbor` does within the array of an EID. -/
def eidParseScheme (it : CborValue) : Except CborError (CStr × CborValue) :=
  if it.isUnsignedInteger then
    let schema := T.getUint64 it
    checked (T.advanceFixed it) >>= fun it =>
      if schema = 1 then eidParseDtn T it
      else if schema = 2 then eidParseIpn T it
      else .error .illegalType
  else .error .illegalType

/-- `bundle7_eid_parse_cbor`, with the copy that `parse_eid` makes of the result. -/
def bundle7EidParseCbor (it : CborValue) : Except CborError (CStr × CborValue) :=
  if it.isArray && it.lengthKnown then
    match T.getArrayLength it with
    | .error _ => .error .illegalType
    | .ok length =>
        if length ≠ 2 then .error .illegalType
        else do
          let recursed ← T.enterContainer it
          let (eid, recursed) ← eidParseScheme T recursed
          let it ← T.leaveContainer it recursed
          .ok (eid, it)
  else .error .illegalType

/-! ## Serializer -/

/-- `serialize_dtn_none`. -/
def serializeDtnNone : List UInt8 := T.createArray 2 ++ T.encodeUint 1 ++ T.encodeUint 0

/-- `serialize_dtn`. -/
def serializeDtn (eid : CStr) : List UInt8 :=
  T.createArray 2 ++ T.encodeUint 1 ++ T.encodeTextString (cBytes (eid.drop 4))

/-- `serialize_ipn`. -/
def serializeIpn (eid : CStr) : Option (List UInt8) :=
  match sscanfIpn eid with
  | none => none
  | some (nodenum, servicenum) =>
      some (T.createArray 2 ++ T.encodeUint 2 ++ (T.createArray 2 ++
        T.encodeUint nodenum.toUInt64 ++ T.encodeUint servicenum.toUInt64))

/-- `bundle7_eid_serialize_cbor`. -/
def bundle7EidSerializeCbor (eid : CStr) : Option (List UInt8) :=
  if eid = "dtn:none".toList then some (serializeDtnNone T)
  else if eid.take 4 = "dtn:".toList then some (serializeDtn T eid)
  else if 4 < eid.length ∧ eid.take 4 = "ipn:".toList then serializeIpn T eid
  else none

/-- `bundle7_eid_serialize` into a buffer of some size, unless it returns an error or 0. -/
def bundle7EidSerialize (eid : CStr) (bufferSize : Nat) : Option (List UInt8) :=
  match bundle7EidSerializeCbor T eid with
  | none => none
  | some bytes => if bufferSize < bytes.length then none else some bytes

end Bundle7
