import DisruptaBLE.Lib.Cbor
import Mathlib.Data.List.TakeWhile

/-!
# Messages of the application agent protocol

`components/aap/aap.c` and `components/aap/aap_serializer.c`.

A message in memory has pointers and lengths that need not belong together; `aap_message_is_valid`
looks at what can be looked at.  `Message.content` is what a message says.
-/

namespace Aap

open Cbor

/-- `enum aap_message_type`.  The parser casts any four bits to it. -/
inductive MessageType where
  | ack
  | nack
  | register
  | sendbundle
  | recvbundle
  | sendconfirm
  | cancelbundle
  | welcome
  | ping
  | invalid
  | other (code : UInt8) (h : 8 < code ∧ code < 0xFF)
  deriving DecidableEq, Repr

namespace MessageType

/-- The number of a type. -/
def code : MessageType → UInt8
  | ack => 0x0
  | nack => 0x1
  | register => 0x2
  | sendbundle => 0x3
  | recvbundle => 0x4
  | sendconfirm => 0x5
  | cancelbundle => 0x6
  | welcome => 0x7
  | ping => 0x8
  | invalid => 0xFF
  | other c _ => c

/-- The type with a number. -/
def ofCode (c : UInt8) : MessageType :=
  if h : 8 < c ∧ c < 0xFF then other c h
  else
    match c.toNat with
    | 0x0 => ack
    | 0x1 => nack
    | 0x2 => register
    | 0x3 => sendbundle
    | 0x4 => recvbundle
    | 0x5 => sendconfirm
    | 0x6 => cancelbundle
    | 0x7 => welcome
    | 0x8 => ping
    | _ => invalid

/-- The messages with an endpoint identifier. -/
def hasEid : MessageType → Bool
  | register | sendbundle | recvbundle | welcome => true
  | _ => false

/-- The messages with a payload. -/
def hasPayload : MessageType → Bool
  | sendbundle | recvbundle => true
  | _ => false

/-- The messages with the identifier of a bundle. -/
def hasBundleId : MessageType → Bool
  | sendconfirm | cancelbundle => true
  | _ => false

end MessageType

/-- `struct aap_message`.  A pointer is `NULL` or points to some bytes. -/
structure Message where
  type : MessageType
  eid : Option (List UInt8)
  eidLength : Nat
  payload : Option (List UInt8)
  payloadLength : Nat
  bundleId : UInt16
  deriving DecidableEq, Repr

/-- `aap_message_clear`. -/
def aapMessageClear : Message := ⟨.invalid, none, 0, none, 0, 0⟩

/-- `strlen`. -/
def strlen (s : List UInt8) : Nat := (s.takeWhile (· != 0)).length

/-- `BUNDLE_INVALID_ID`. -/
def bundleInvalidId : UInt16 := 0

/-- `aap_message_is_valid`. -/
def aapMessageIsValid (msg : Message) : Bool :=
  if msg.type.code < MessageType.ack.code || msg.type.code > MessageType.ping.code then false
  else
    (match msg.eid with
      | some eid => msg.type.hasEid && msg.eidLength ≤ 0xFFFF && strlen eid == msg.eidLength
      | none => !msg.type.hasEid) &&
    (match msg.payload with
      | some _ => msg.type.hasPayload
      | none => !(msg.type.hasPayload && msg.payloadLength != 0)) &&
    !(msg.type.hasBundleId && msg.bundleId == bundleInvalidId)

namespace Message

variable (msg : Message)

/-- The bytes of the endpoint identifier. -/
def eidBytes : List UInt8 := (msg.eid.getD []).take msg.eidLength

/-- The bytes of the payload. -/
def payloadBytes : List UInt8 := (msg.payload.getD []).take msg.payloadLength

/-- The memory behind the pointers is there: the identifier ends with a zero byte, and the payload
has its length, which is one of the platform. -/
structure Stored (sizeMax : Nat) : Prop where
  eid : ∀ e, msg.eid = some e → 0 ∈ e
  payload : ∀ p, msg.payload = some p → msg.payloadLength ≤ p.length
  payloadLength_le : msg.payloadLength ≤ sizeMax

end Message

/-- What a message says: its type, and what messages of this type have. -/
structure Content where
  type : MessageType
  eid : Option (List UInt8)
  payload : Option (List UInt8)
  bundleId : Option UInt16
  deriving DecidableEq, Repr

/-- What a message in memory says. -/
def Message.content (msg : Message) : Content where
  type := msg.type
  eid := if msg.type.hasEid then some msg.eidBytes else none
  payload := if msg.type.hasPayload then some msg.payloadBytes else none
  bundleId := if msg.type.hasBundleId then some msg.bundleId else none

/-! ## Serializing -/

/-- `put_uint64`. -/
def putUint64 (value : Nat) : List UInt8 := toBytes 8 value

/-- `aap_get_serialized_size`. -/
def aapGetSerializedSize (msg : Message) : Nat :=
  1 + (if msg.type.hasEid then 2 + msg.eidLength else 0) +
    (if msg.type.hasPayload then 8 + msg.payloadLength else 0) +
    (if msg.type.hasBundleId then 8 else 0)

/-- What `aap_serialize` writes of the payload. -/
def payloadWire (msg : Message) : List UInt8 :=
  if msg.type.hasPayload then putUint64 msg.payloadLength ++ msg.payloadBytes else []

/-- What `aap_serialize` writes of the endpoint identifier. -/
def eidWire (msg : Message) : List UInt8 :=
  if msg.type.hasEid then toBytes 2 msg.eidLength ++ msg.eidBytes else []

/-- What `aap_serialize` writes of the identifier of a bundle. -/
def bundleIdWire (msg : Message) : List UInt8 :=
  if msg.type.hasBundleId then putUint64 msg.bundleId.toNat else []

/-- `aap_serialize`: all that is written. -/
def aapSerialize (msg : Message) : List UInt8 :=
  (0x10 ||| (msg.type.code &&& 0xF)) :: (eidWire msg ++ payloadWire msg ++ bundleIdWire msg)

/-! ## Valid messages -/

variable {msg : Message} {sizeMax : Nat}

/-- The first byte has the version and the type. -/
theorem ofCode_head {type : MessageType} (h : type.code ≤ 8) :
    (((0x10 ||| (type.code &&& 0xF)) &&& 0xF0) >>> 4 = 1) ∧
      MessageType.ofCode ((0x10 ||| (type.code &&& 0xF)) &&& 0x0F) = type := by
  cases type with
  | other c hc => exact absurd (UInt8.lt_of_lt_of_le hc.1 h) (UInt8.lt_irrefl _)
  | invalid => exact absurd h (by decide)
  | _ => exact ⟨by decide, by decide⟩

/-- What `aap_message_is_valid` looks at. -/
structure Message.Valid (msg : Message) : Prop where
  code_le : msg.type.code ≤ 8
  eid : msg.type.hasEid = true →
    ∃ e, msg.eid = some e ∧ msg.eidLength ≤ 0xFFFF ∧ strlen e = msg.eidLength
  eid_none : msg.type.hasEid = false → msg.eid = none
  payload : msg.type.hasPayload = true → msg.payload = none → msg.payloadLength = 0
  payload_none : msg.type.hasPayload = false → msg.payload = none
  bundleId : msg.type.hasBundleId = true → msg.bundleId ≠ bundleInvalidId

theorem isValid_iff : aapMessageIsValid msg = true ↔ msg.Valid := by
  have hack : ¬ msg.type.code < MessageType.ack.code := UInt8.not_lt_zero
  by_cases hcode : msg.type.code ≤ 8
  · have hping : ¬ msg.type.code > MessageType.ping.code := UInt8.not_lt.mpr hcode
    simp only [aapMessageIsValid, hack, hping, decide_false, Bool.or_self, Bool.false_eq_true,
      if_false, Bool.and_eq_true]
    constructor
    · rintro ⟨⟨heid, hpayload⟩, hid⟩
      refine ⟨hcode, fun hhas => ?_, fun hhas => ?_, fun hhas hnone => ?_, fun hhas => ?_,
        fun hhas => by simpa [hhas] using hid⟩
      · cases he : msg.eid with
        | none => simp [he, hhas] at heid
        | some e => exact ⟨e, rfl, by simpa [he, hhas] using heid⟩
      · cases he : msg.eid with
        | none => rfl
        | some e => simp [he, hhas] at heid
      · simpa [hnone, hhas] using hpayload
      · cases hp : msg.payload with
        | none => rfl
        | some e => simp [hp, hhas] at hpayload
    · intro h
      refine ⟨⟨?_, ?_⟩, ?_⟩
      · cases hhas : msg.type.hasEid with
        | true =>
            obtain ⟨e, he, hlen⟩ := h.eid hhas
            simpa [he] using hlen
        | false => simp [h.eid_none hhas]
      · cases hhas : msg.type.hasPayload with
        | true =>
            cases hp : msg.payload with
            | none => simp [h.payload hhas hp]
            | some e => rfl
        | false => simp [h.payload_none hhas]
      · cases hhas : msg.type.hasBundleId with
        | true => simpa using h.bundleId hhas
        | false => rfl
  · have hping : msg.type.code > MessageType.ping.code := UInt8.not_le.mp hcode
    refine ⟨fun h => ?_, fun h => absurd h.code_le hcode⟩
    simp [aapMessageIsValid, hping] at h

/-- The identifier of a valid message has its length, and no zero byte. -/
theorem eidBytes_of_valid (h : msg.Valid) (hhas : msg.type.hasEid = true) :
    msg.eidBytes.length = msg.eidLength ∧ ∀ b ∈ msg.eidBytes, b ≠ 0 := by
  obtain ⟨e, he, -, hlen⟩ := h.eid hhas
  have hbytes : msg.eidBytes = e.takeWhile (· != 0) := by
    rw [Message.eidBytes, he, ← hlen, strlen, Option.getD_some]
    exact (List.prefix_iff_eq_take.mp (List.takeWhile_prefix _)).symm
  rw [hbytes]
  exact ⟨hlen, fun b hb => by simpa using List.mem_takeWhile_imp hb⟩

/-- The payload of a valid message has its length. -/
theorem length_payloadBytes (h : msg.Valid) (hstored : msg.Stored sizeMax)
    (hhas : msg.type.hasPayload = true) : msg.payloadBytes.length = msg.payloadLength := by
  unfold Message.payloadBytes
  cases hp : msg.payload with
  | none => simp [h.payload hhas hp]
  | some p =>
      rw [Option.getD_some, List.length_take]
      exact Nat.min_eq_left (hstored.payload p hp)

/-- **The size** is that of what is written. -/
theorem length_aapSerialize (h : msg.Valid) (hstored : msg.Stored sizeMax) :
    (aapSerialize msg).length = aapGetSerializedSize msg := by
  have heid : (eidWire msg).length = if msg.type.hasEid then 2 + msg.eidLength else 0 := by
    unfold eidWire
    split
    · next hhas => simp [(eidBytes_of_valid h hhas).1]
    · rfl
  have hpayload : (payloadWire msg).length =
      if msg.type.hasPayload then 8 + msg.payloadLength else 0 := by
    unfold payloadWire
    split
    · next hhas => simp [putUint64, length_payloadBytes h hstored hhas]
    · rfl
  have hid : (bundleIdWire msg).length = if msg.type.hasBundleId then 8 else 0 := by
    unfold bundleIdWire
    split
    · simp [putUint64]
    · rfl
  simp only [aapSerialize, aapGetSerializedSize, List.length_cons, List.length_append, heid,
    hpayload, hid]
  omega

end Aap
