import DisruptaBLE.Bundle6.Parser
import DisruptaBLE.Bundle7.Parser
import DisruptaBLE.Cla.MtcpProto

/-!
# The receive path of ML2CAP

`components/cla/zephyr/cla_ml2cap.c`: the parsers of a link, as the receive task calls them.  The
header of a frame is read first, and then the bundle in it by the parser of the version with which
it begins.

The parser of a frame counts what is parsed of the frame.  What a bulk read takes from the link is
not counted.
-/

namespace Ml2cap

open ClaRx (ParserStatus Parsers)
open Mtcp (FrameParser mtcpParserReset mtcpParserParse)
open Bundle7 (TinyCbor)

/-- `enum cla_payload_type`. -/
inductive PayloadType where
  | unknown
  | bundle6
  | bundle7
  deriving DecidableEq, Repr

/-- What `cur_parser` points to. -/
inductive CurParser where
  | mtcp
  | bundle6
  | bundle7
  deriving DecidableEq, Repr

/-- `struct ml2cap_link` with its `struct rx_task_data`, without the input buffer. -/
structure Link where
  mtcpParser : FrameParser
  payloadType : PayloadType
  curParser : CurParser
  bundle6Parser : Bundle6.Parser
  bundle7Parser : Bundle7.Parser
  /-- the number of headers that were read, which is not a part of the program -/
  headers : Nat

/-- What the parsers of a link depend on: TinyCBOR, the limits of a bundle, and the storage in use
when the parsers are reset after some headers. -/
structure Node where
  tinyCbor : TinyCbor
  documented : tinyCbor.Documented
  limits : Bundle6.Limits
  usage : Nat → UInt32

variable (node : Node)

/-- `bundle6_parser_reset`. -/
def bundle6Reset (usage : UInt32) (parser : Bundle6.Parser) : Bundle6.Parser :=
  if parser.status = .good ∧ parser.currentStage = .version then parser
  else Bundle6.bundle6ParserReset node.limits usage parser

/-- `ml2cap_reset_parsers` with `rx_task_reset_parsers`. -/
def ml2capResetParsers (link : Link) : Link :=
  { link with
    payloadType := .unknown
    bundle6Parser := bundle6Reset node (node.usage link.headers) link.bundle6Parser
    bundle7Parser := Bundle7.bundle7ParserReset link.bundle7Parser
    mtcpParser := mtcpParserReset
    curParser := .mtcp }

/-- `bundle6_parser_read` for a buffer, or for `NULL`. -/
def bundle6Read (link : Link) : Option (List UInt8) → Link × Nat
  | none =>
      ({ link with
          bundle6Parser := Bundle6.bundle6ParserReadByte node.limits link.bundle6Parser 0 }, 0)
  | some buffer =>
      let (parser, rest) := Bundle6.bundle6ParserRead node.limits link.bundle6Parser buffer
      ({ link with bundle6Parser := parser }, buffer.length - rest.length)

/-- `bundle7_parser_read` for a buffer, or for `NULL`. -/
def bundle7Read (link : Link) : Option (List UInt8) → Link × Nat
  | none => ({ link with bundle7Parser := Bundle7.readNull link.bundle7Parser }, 0)
  | some buffer =>
      let (parser, parsed) := Bundle7.bundle7ParserRead node.tinyCbor node.limits.bundleQuota.toNat
        link.bundle7Parser buffer
      ({ link with bundle7Parser := parser }, parsed)

/-- `select_bundle_parser_version`. -/
def selectBundleParserVersion (link : Link) (buffer : Option (List UInt8)) : Link × Nat :=
  match buffer.getD [] with
  | [] => (link, 0)
  | byte :: _ =>
      if byte = 6 then
        bundle6Read node { link with payloadType := .bundle6, curParser := .bundle6 } buffer
      else if byte = 0x9f then
        bundle7Read node { link with payloadType := .bundle7, curParser := .bundle7 } buffer
      else (link, 0)

/-- The switch of `ml2cap_forward_to_specific_parser`. -/
def forwardPayload (link : Link) (buffer : Option (List UInt8)) : Link × Nat :=
  match link.payloadType with
  | .unknown =>
      let (link, result) := selectBundleParserVersion node link buffer
      if result = 0 then (ml2capResetParsers node link, result) else (link, result)
  | .bundle6 => bundle6Read node { link with curParser := .bundle6 } buffer
  | .bundle7 => bundle7Read node { link with curParser := .bundle7 } buffer

/-- What was parsed of a frame is counted. -/
def countParsed (link : Link) (result : Nat) : Link :=
  let link := { link with
    mtcpParser := { link.mtcpParser with nextBytes := link.mtcpParser.nextBytes - result } }
  if link.mtcpParser.nextBytes = 0 then ml2capResetParsers node link else link

/-- `ml2cap_forward_to_specific_parser`. -/
def ml2capForward (link : Link) (buffer : Option (List UInt8)) : Link × Nat :=
  if link.mtcpParser.dataSubparser then
    let (link, result) := forwardPayload node link (buffer.map (·.take link.mtcpParser.nextBytes))
    (countParsed node link result, result)
  else
    let (parser, parsed) := mtcpParserParse node.tinyCbor link.mtcpParser (buffer.getD [])
    ({ link with
        mtcpParser := parser
        headers := if parser.dataSubparser then link.headers + 1 else link.headers }, parsed)

/-- `cur_parser->status`. -/
def curStatus (link : Link) : ParserStatus :=
  match link.curParser with
  | .mtcp => .good
  | .bundle6 => link.bundle6Parser.status
  | .bundle7 => link.bundle7Parser.status

/-- `PARSER_FLAG_BULK_READ` of `cur_parser`. -/
def curBulkRead (link : Link) : Bool :=
  match link.curParser with
  | .mtcp => false
  | .bundle6 => link.bundle6Parser.bulkRead
  | .bundle7 => link.bundle7Parser.bulkRead

/-- `cur_parser->next_bytes`. -/
def curNextBytes (link : Link) : Nat :=
  match link.curParser with
  | .mtcp => link.mtcpParser.nextBytes
  | .bundle6 => link.bundle6Parser.nextBytes
  | .bundle7 => link.bundle7Parser.nextBytes

/-- The bytes of a bulk read are in `next_buffer`, and its flag is taken away. -/
def curFillBulk (link : Link) (bytes : List UInt8) : Link :=
  match link.curParser with
  | .mtcp => link
  | .bundle6 =>
      { link with bundle6Parser := { link.bundle6Parser with
          block := { link.bundle6Parser.block with data := bytes }
          bulkRead := false } }
  | .bundle7 => { link with bundle7Parser := Bundle7.fillBulk link.bundle7Parser bytes }

/-! ## What is consumed -/

theorem bundle7ReadLoop_le (T : TinyCbor) (quota fuel : Nat) (s : Bundle7.Parser) (parsed : Nat)
    (rest : List UInt8) (it : Option Bundle7.CborValue) :
    (Bundle7.readLoop T quota fuel s parsed rest it).2 ≤ parsed + rest.length := by
  induction fuel generalizing s parsed rest it with
  | zero => exact Nat.le_add_right _ _
  | succ fuel ih =>
      unfold Bundle7.readLoop
      split
      · exact Nat.le_add_right _ _
      · split
        · split
          · exact Nat.le_add_right _ _
          · next hfits =>
            refine Nat.le_trans (ih _ _ _ _) ?_
            rw [List.length_drop]
            omega
        · -- the iterator is the last one, or is made again
          split
          all_goals
            split
            · exact Nat.le_add_right _ _
            · split
              · exact Nat.le_add_right _ _
              · split
                · exact Nat.le_add_right _ _
                · dsimp only
                  split
                  · exact Nat.le_add_right _ _
                  · refine Nat.le_trans (ih _ _ _ _) ?_
                    rw [List.length_drop]
                    omega

theorem bundle6Read_le (link : Link) (buffer : Option (List UInt8)) :
    (bundle6Read node link buffer).2 ≤ (buffer.getD []).length := by
  cases buffer with
  | none => exact Nat.le_refl _
  | some buffer => exact Nat.sub_le _ _

theorem bundle7Read_le (link : Link) (buffer : Option (List UInt8)) :
    (bundle7Read node link buffer).2 ≤ (buffer.getD []).length := by
  cases buffer with
  | none => exact Nat.le_refl _
  | some buffer =>
      have h := bundle7ReadLoop_le node.tinyCbor node.limits.bundleQuota.toNat
        (2 * buffer.length + 2) link.bundle7Parser 0 buffer none
      rwa [Nat.zero_add] at h

theorem select_le (link : Link) (buffer : Option (List UInt8)) :
    (selectBundleParserVersion node link buffer).2 ≤ (buffer.getD []).length := by
  unfold selectBundleParserVersion
  split
  · exact Nat.zero_le _
  · split
    · exact bundle6Read_le node _ _
    · split
      · exact bundle7Read_le node _ _
      · exact Nat.zero_le _

theorem forwardPayload_le (link : Link) (buffer : Option (List UInt8)) :
    (forwardPayload node link buffer).2 ≤ (buffer.getD []).length := by
  unfold forwardPayload
  split
  · have h := select_le node link buffer
    dsimp only
    split <;> exact h
  · exact bundle6Read_le node _ _
  · exact bundle7Read_le node _ _

/-- The header of a frame is not longer than the buffer. -/
theorem mtcpParserParse_le (p : FrameParser) (buffer : List UInt8) :
    (mtcpParserParse node.tinyCbor p buffer).2 ≤ buffer.length := by
  rw [node.documented.eq_reference]
  unfold mtcpParserParse
  cases buffer with
  | nil => exact Nat.le_refl _
  | cons byte rest =>
      dsimp only
      split
      · exact Nat.zero_le _
      · exact Nat.succ_le_succ (Nat.zero_le _)
      · exact Nat.sub_le _ _

/-- No more is consumed than the buffer holds. -/
theorem ml2capForward_le (link : Link) (buffer : Option (List UInt8)) :
    (ml2capForward node link buffer).2 ≤ (buffer.getD []).length := by
  unfold ml2capForward
  split
  · have h := forwardPayload_le node link (buffer.map (·.take link.mtcpParser.nextBytes))
    cases buffer with
    | none => exact h
    | some buffer =>
        rw [Option.map_some, Option.getD_some, List.length_take] at h
        exact Nat.le_trans h (Nat.min_le_right _ _)
  · exact mtcpParserParse_le node _ _

/-- Within a frame no more is consumed than is left of it. -/
theorem forward_le_nextBytes {link : Link} (hframe : link.mtcpParser.dataSubparser = true)
    (buffer : Option (List UInt8)) :
    (ml2capForward node link buffer).2 ≤ link.mtcpParser.nextBytes := by
  have h := forwardPayload_le node link (buffer.map (·.take link.mtcpParser.nextBytes))
  rw [ml2capForward, if_pos hframe]
  cases buffer with
  | none => exact Nat.le_trans h (Nat.zero_le _)
  | some buffer =>
      rw [Option.map_some, Option.getD_some, List.length_take] at h
      exact Nat.le_trans h (Nat.min_le_left _ _)

/-- The parsers of a link, as the receive task sees them. -/
def ml2capParsers : Parsers Link where
  status := curStatus
  bulkRead := curBulkRead
  nextBytes := curNextBytes
  forward := fun link buffer => ml2capForward node link (some buffer)
  forwardNull := fun link => (ml2capForward node link none).1
  fillBulk := curFillBulk
  resetParsers := ml2capResetParsers node
  forward_le := fun link buffer => ml2capForward_le node link (some buffer)

end Ml2cap
