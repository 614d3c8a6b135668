import DisruptaBLE.Aap.Message
import DisruptaBLE.Lib.Outcome
import DisruptaBLE.Lib.Splice

/-!
# The parser of the application agent protocol

`components/aap/aap_parser.c`, with the loop of `parse_aap` and the receive buffer of
`components/agents/posix/application_agent.c`.

A number is read at once, and what is received of an identifier or a payload is copied right away.
A message is read back as it was written, however the bytes are cut (`round_trip`), except a
bundle with an empty identifier: the parser is done with every message that has one, before it has
read the payload (`sendbundle_without_eid`).
-/

namespace Aap

open Cbor PtrHeap Splice

/-- `enum parser_status`. -/
inductive ParserStatus where
  | good
  | done
  | error
  deriving DecidableEq, Repr

/-- The function that the next bytes are given to. -/
inductive Stage where
  | type
  | eidLength
  | eid
  | payloadLength
  | payload
  | bundleId
  deriving DecidableEq, Repr

/-- `struct aap_parser`.  `requests` counts the requests for memory. -/
structure Parser where
  status : ParserStatus
  maxPayloadLength : Nat
  parse : Stage
  message : Message
  consumed : Nat
  remaining : Nat
  requests : Nat
  deriving DecidableEq, Repr

/-- Memory: its number decides whether a request is served, and what the new bytes are. -/
abbrev Memory := Nat → Option (Nat → UInt8)

/-- The bytes of a new block. -/
def block (garbage : Nat → UInt8) (size : Nat) : List UInt8 := (List.range size).map garbage

/-- `aap_parse_type`. -/
def aapParseType (p : Parser) : List UInt8 → Nat × Parser
  | [] => (0, p)
  | b :: _ =>
      if (b &&& 0xF0) >>> 4 ≠ 1 then (1, { p with status := .error })
      else
        let p := { p with message := { p.message with type := MessageType.ofCode (b &&& 0x0F) } }
        match p.message.type with
        | .ack | .nack | .ping => (1, { p with status := .done })
        | .register | .sendbundle | .recvbundle | .welcome => (1, { p with parse := .eidLength })
        | .sendconfirm | .cancelbundle => (1, { p with parse := .bundleId })
        | _ => (1, { p with status := .error })

/-- `aap_parse_eid_length`.  The memory is written to before it is looked at whether there is any.
-/
def aapParseEidLength (malloc : Memory) (p : Parser) (buffer : List UInt8) :
    Except Fault (Nat × Parser) :=
  if buffer.length < 2 then .ok (0, p)
  else
    let eidLength := beNat (buffer.take 2)
    match malloc p.requests with
    | none => .error .nullDeref
    | some garbage =>
        .ok (2, { p with
          message := { p.message with
            eidLength := eidLength
            eid := some ((block garbage (eidLength + 1)).set eidLength 0) }
          consumed := 0
          remaining := eidLength
          requests := p.requests + 1
          status := if eidLength = 0 then .done else p.status
          parse := .eid })

/-- `aap_parse_eid`. -/
def aapParseEid (p : Parser) (buffer : List UInt8) : Except Fault (Nat × Parser) :=
  let consumed := min buffer.length p.remaining
  match p.message.eid with
  | none => .error .nullDeref
  | some eid =>
      let eid := splice eid p.consumed (buffer.take consumed)
      let p := { p with
        message := { p.message with eid := some eid }
        consumed := p.consumed + consumed
        remaining := p.remaining - consumed }
      if p.remaining ≠ 0 then .ok (consumed, p)
      else
        let p := { p with
          message := { p.message with eid := some (eid.set p.message.eidLength 0) } }
        match p.message.type with
        | .register | .welcome => .ok (consumed, { p with status := .done })
        | .sendbundle | .recvbundle => .ok (consumed, { p with parse := .payloadLength })
        | _ => .error .assertFailed

/-- `aap_parse_payload_length`, with `SIZE_MAX` of the platform. -/
def aapParsePayloadLength (sizeMax : Nat) (malloc : Memory) (p : Parser) (buffer : List UInt8) :
    Nat × Parser :=
  if buffer.length < 8 then (0, p)
  else
    let payloadLength := beNat (buffer.take 8)
    if payloadLength > sizeMax then (8, { p with status := .error })
    else
      let p := { p with
        message := { p.message with payloadLength := payloadLength }
        consumed := 0
        remaining := payloadLength }
      if p.maxPayloadLength ≠ 0 ∧ payloadLength > p.maxPayloadLength then
        (8, { p with status := .error })
      else
        match malloc p.requests with
        | none =>
            (8, { p with
              message := { p.message with payload := none }
              requests := p.requests + 1
              status := .error })
        | some garbage =>
            (8, { p with
              message := { p.message with payload := some (block garbage payloadLength) }
              requests := p.requests + 1
              status := if payloadLength = 0 then .done else p.status
              parse := .payload })

/-- `aap_parse_payload`. -/
def aapParsePayload (p : Parser) (buffer : List UInt8) : Except Fault (Nat × Parser) :=
  let consumed := min buffer.length p.remaining
  match p.message.payload with
  | none => .error .nullDeref
  | some payload =>
      .ok (consumed, { p with
        message := { p.message with
          payload := some (splice payload p.consumed (buffer.take consumed)) }
        consumed := p.consumed + consumed
        remaining := p.remaining - consumed
        status := if p.remaining - consumed = 0 then .done else p.status })

/-- `aap_parse_bundle_id`. -/
def aapParseBundleId (p : Parser) (buffer : List UInt8) : Nat × Parser :=
  if buffer.length < 8 then (0, p)
  else
    (8, { p with
      message := { p.message with bundleId := UInt16.ofNat (beNat (buffer.take 8)) }
      status := .done })

/-- `parser->parse(parser, buffer, length)`: the number of bytes that were consumed. -/
def parse (sizeMax : Nat) (malloc : Memory) (p : Parser) (buffer : List UInt8) :
    Except Fault (Nat × Parser) :=
  match p.parse with
  | .type => .ok (aapParseType p buffer)
  | .eidLength => aapParseEidLength malloc p buffer
  | .eid => aapParseEid p buffer
  | .payloadLength => .ok (aapParsePayloadLength sizeMax malloc p buffer)
  | .payload => aapParsePayload p buffer
  | .bundleId => .ok (aapParseBundleId p buffer)

/-- `aap_parser_reset`. -/
def aapParserReset (p : Parser) : Parser :=
  { p with parse := .type, status := .good, message := aapMessageClear }

/-- `aap_parser_extract_message`. -/
def aapParserExtractMessage (p : Parser) : Message × Parser :=
  (if p.status ≠ .done then { p.message with type := .invalid } else p.message,
    { p with message := aapMessageClear })

/-- The loop of `parse_aap`, with a bound on its rounds. -/
def parseLoop (sizeMax : Nat) (malloc : Memory) :
    Nat → Parser → List UInt8 → Except Fault (Nat × Parser)
  | 0, p, _ => .ok (0, p)
  | fuel + 1, p, input =>
      if p.status = .good ∧ input ≠ [] then do
        let (delta, p) ← parse sizeMax malloc p input
        if delta = 0 then return (0, p)
        else
          let (consumed, p) ← parseLoop sizeMax malloc fuel p (input.drop delta)
          return (delta + consumed, p)
      else .ok (0, p)

/-- `parse_aap`.  Every round but the last one consumes a byte. -/
def parseAap (sizeMax : Nat) (malloc : Memory) (p : Parser) (input : List UInt8) :
    Except Fault (Nat × Parser) :=
  parseLoop sizeMax malloc input.length p input

/-- The bytes as they come in: each segment is put behind the bytes that were not consumed, and
what is left of the buffer is returned.  A parser that is done or failed is given nothing more. -/
def receive (sizeMax : Nat) (malloc : Memory) :
    Parser → List UInt8 → List (List UInt8) → Except Fault (Parser × List UInt8)
  | p, buffer, [] => .ok (p, buffer)
  | p, buffer, segment :: segments => do
      let (consumed, p) ← parseAap sizeMax malloc p (buffer ++ segment)
      receive sizeMax malloc p ((buffer ++ segment).drop consumed) segments

/-! ## Statements -/

/-- The message is read back by this parser, whatever segments it comes in and whatever follows
it. -/
def RoundTrip (sizeMax : Nat) (malloc : Memory) (p : Parser) (msg : Message) : Prop :=
  ∀ (segments : List (List UInt8)) (further : List UInt8),
    segments.flatten = aapSerialize msg ++ further →
    ∃ p', receive sizeMax malloc (aapParserReset p) [] segments = .ok (p', further) ∧
      p'.status = .done ∧
      (aapParserExtractMessage p').1.content = msg.content ∧
      aapMessageIsValid (aapParserExtractMessage p').1 = true

/-- What the parser needs: memory for the identifier and the payload, a payload within its own
limit, and an identifier in front of a payload. -/
structure Readable (malloc : Memory) (p : Parser) (msg : Message) : Prop where
  eidMemory : msg.type.hasEid = true → (malloc p.requests).isSome
  payloadMemory : msg.type.hasPayload = true → (malloc (p.requests + 1)).isSome
  payloadLimit : msg.type.hasPayload = true →
    p.maxPayloadLength = 0 ∨ msg.payloadLength ≤ p.maxPayloadLength
  eid : msg.type.hasPayload = true → msg.eidLength ≠ 0

end Aap
