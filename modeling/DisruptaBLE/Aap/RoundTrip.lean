import DisruptaBLE.Aap.Parser

/-!
# What the parser reads back

A parser in the middle of a message (`Reading`) has a stage and what is left of the message.  Each
stage takes what it can of the bytes it is given (`parse_spec`), and a stage that is given the
rest of the message takes something.  So the loop gets as far as the bytes go (`parseLoop_spec`),
and with the last segment to the end of the message (`receive_spec`).
-/

namespace Aap

open Cbor PtrHeap Splice Outcome

variable {sizeMax : Nat} {malloc : Memory} {msg : Message} {p₀ p : Parser}
  {left buffer further : List UInt8}

/-! ## Parts of a message -/

/-- The memory of an identifier that has been read. -/
def eidMemory (msg : Message) : List UInt8 := msg.eidBytes ++ [0]

/-- A parser in front of the rest of a message; `p₀` is the parser before the message. -/
inductive Reading (malloc : Memory) (p₀ : Parser) (msg : Message) (p : Parser) : List UInt8 → Prop
  | type (hparse : p.parse = .type) (hrequests : p.requests = p₀.requests)
      (hclear : p.message = aapMessageClear) :
      Reading malloc p₀ msg p (aapSerialize msg)
  | eidLength (hparse : p.parse = .eidLength) (hrequests : p.requests = p₀.requests)
      (hhas : msg.type.hasEid = true)
      (hmessage : p.message = { aapMessageClear with type := msg.type }) :
      Reading malloc p₀ msg p (toBytes 2 msg.eidLength ++ (msg.eidBytes ++ payloadWire msg))
  | eid (hparse : p.parse = .eid) (hrequests : p.requests = p₀.requests + 1)
      (hhas : msg.type.hasEid = true) (hserved : (malloc p₀.requests).isSome)
      {m : List UInt8} (hlen : m.length = msg.eidLength + 1)
      (hmessage : p.message = { aapMessageClear with
        type := msg.type, eid := some m, eidLength := msg.eidLength })
      (hlt : p.consumed < msg.eidLength) (hremaining : p.consumed + p.remaining = msg.eidLength)
      (hread : m.take p.consumed = msg.eidBytes.take p.consumed) :
      Reading malloc p₀ msg p (msg.eidBytes.drop p.consumed ++ payloadWire msg)
  | payloadLength (hparse : p.parse = .payloadLength) (hrequests : p.requests = p₀.requests + 1)
      (hhas : msg.type.hasPayload = true) (hserved : (malloc p₀.requests).isSome)
      (hne : msg.eidLength ≠ 0)
      (hmessage : p.message = { aapMessageClear with
        type := msg.type, eid := some (eidMemory msg), eidLength := msg.eidLength }) :
      Reading malloc p₀ msg p (payloadWire msg)
  | payload (hparse : p.parse = .payload) (hhas : msg.type.hasPayload = true)
      (hreadable : Readable malloc p₀ msg)
      {m : List UInt8} (hlen : m.length = msg.payloadLength)
      (hmessage : p.message = { aapMessageClear with
        type := msg.type, eid := some (eidMemory msg), eidLength := msg.eidLength
        payload := some m, payloadLength := msg.payloadLength })
      (hlt : p.consumed < msg.payloadLength)
      (hremaining : p.consumed + p.remaining = msg.payloadLength)
      (hread : m.take p.consumed = msg.payloadBytes.take p.consumed) :
      Reading malloc p₀ msg p (msg.payloadBytes.drop p.consumed)
  | bundleId (hparse : p.parse = .bundleId) (hhas : msg.type.hasBundleId = true)
      (hmessage : p.message = { aapMessageClear with type := msg.type }) :
      Reading malloc p₀ msg p (putUint64 msg.bundleId.toNat)

/-- A parser that has read the message. -/
structure Finished (msg : Message) (p : Parser) : Prop where
  status : p.status = .done
  content : p.message.content = msg.content
  valid : aapMessageIsValid p.message = true

/-- What a parser has come to with some of the bytes that were left: it goes on, or it has read the
message, or it has failed, and then the message is not readable. -/
inductive Reached (malloc : Memory) (p₀ : Parser) (msg : Message) (left : List UInt8)
    (consumed : Nat)
    (p : Parser) : Prop
  | reading (hstatus : p.status = .good) (hlimit : p.maxPayloadLength = p₀.maxPayloadLength)
      (h : Reading malloc p₀ msg p (left.drop consumed))
  | finished (hreadable : Readable malloc p₀ msg) (hall : consumed = left.length)
      (h : Finished msg p)
  | failed (hnot : ¬ Readable malloc p₀ msg) (hstatus : p.status ≠ .good)
      (h : p.status = .done → consumed < left.length)

/-- What a call of the parser makes of the bytes it is given. -/
structure Progress (malloc : Memory) (p₀ : Parser) (msg : Message) (left buffer : List UInt8)
    (r : Nat × Parser) : Prop where
  le_left : r.1 ≤ left.length
  le_buffer : r.1 ≤ buffer.length
  some : left.length ≤ buffer.length → r.1 ≠ 0
  reached : Reached malloc p₀ msg left r.1 r.2

/-! ## Stages -/

/-- The bytes that are given agree with those that are left. -/
theorem take_agree {tail : List UInt8} {n : Nat} (h : buffer ++ tail = left ++ further)
    (hbuffer : n ≤ buffer.length) (hleft : n ≤ left.length) : buffer.take n = left.take n := by
  calc buffer.take n = (buffer ++ tail).take n := (List.take_append_of_le_length hbuffer).symm
    _ = (left ++ further).take n := by rw [h]
    _ = left.take n := List.take_append_of_le_length hleft

/-- A call without effect, with too few bytes for a number. -/
theorem progress_none (hstatus : p.status = .good)
    (hlimit : p.maxPayloadLength = p₀.maxPayloadLength)
    (h : Reading malloc p₀ msg p left) (hshort : buffer.length < left.length) :
    Progress malloc p₀ msg left buffer (0, p) :=
  ⟨Nat.zero_le _, Nat.zero_le _, fun hle => absurd hshort (Nat.not_lt.mpr hle),
    .reading hstatus hlimit (by simpa using h)⟩

theorem beNat_take_toBytes {tail rest : List UInt8} {k n : Nat} (hn : n < 256 ^ k)
    (h : buffer ++ tail = toBytes k n ++ rest) (hk : k ≤ buffer.length) :
    beNat (buffer.take k) = n := by
  have hlen : (toBytes k n).length = k := length_toBytes k n
  rw [take_agree h hk (Nat.le_of_eq hlen.symm), List.take_of_length_le (Nat.le_of_eq hlen)]
  exact beNat_toBytes hn

theorem hasEid_of_hasPayload {type : MessageType} (h : type.hasPayload = true) :
    type.hasEid = true := by
  cases type <;> first | rfl | cases h

theorem hasBundleId_of_hasEid {type : MessageType} (h : type.hasEid = true) :
    type.hasBundleId = false := by
  cases type <;> first | rfl | cases h

theorem hasPayload_of_not_hasEid {type : MessageType} (h : type.hasEid = false) :
    type.hasPayload = false := by
  cases type <;> first | rfl | cases h

/-- The first byte decides what is read next. -/
theorem aapParseType_head {type : MessageType} (hcode : type.code ≤ 8) (bs : List UInt8) :
    aapParseType p ((0x10 ||| (type.code &&& 0xF)) :: bs) =
      (1, { p with
        message := { p.message with type := type }
        status := if type.hasEid || type.hasBundleId then p.status else .done
        parse := if type.hasEid then .eidLength
          else if type.hasBundleId then .bundleId else p.parse }) := by
  obtain ⟨hversion, htype⟩ := ofCode_head hcode
  simp only [aapParseType, hversion, htype, ne_eq, not_true_eq_false, if_false]
  cases type with
  | other c hc => exact absurd (UInt8.lt_of_lt_of_le hc.1 hcode) (UInt8.lt_irrefl _)
  | invalid => exact absurd hcode (by decide)
  | _ => rfl

/-! ## Messages that have been read -/

theorem strlen_eidMemory (hvalid : msg.Valid) (hhas : msg.type.hasEid = true) :
    strlen (eidMemory msg) = msg.eidLength := by
  obtain ⟨hlen, hne⟩ := eidBytes_of_valid hvalid hhas
  unfold strlen eidMemory
  rw [List.takeWhile_append_of_pos (by simpa using hne)]
  simp [hlen]

theorem take_eidMemory (hvalid : msg.Valid) (hhas : msg.type.hasEid = true) :
    (eidMemory msg).take msg.eidLength = msg.eidBytes := by
  obtain ⟨hlen, -⟩ := eidBytes_of_valid hvalid hhas
  rw [eidMemory, ← hlen, List.take_left]

/-- A message with nothing but its type. -/
theorem finished_type (hvalid : msg.Valid) (heid : msg.type.hasEid = false)
    (hid : msg.type.hasBundleId = false) (hstatus : p.status = .done)
    (hmessage : p.message = { aapMessageClear with type := msg.type }) : Finished msg p := by
  have hpayload := hasPayload_of_not_hasEid heid
  refine ⟨hstatus, ?_, isValid_iff.mpr ?_⟩
  · simp [hmessage, Message.content, heid, hid, hpayload]
  · rw [hmessage]
    constructor <;> simp [heid, hid, hpayload, hvalid.code_le, aapMessageClear]

/-- A message with an endpoint identifier only. -/
theorem finished_eid (hvalid : msg.Valid) (heid : msg.type.hasEid = true)
    (hpayload : msg.type.hasPayload = false) (hstatus : p.status = .done)
    (hmessage : p.message = { aapMessageClear with
      type := msg.type, eid := some (eidMemory msg), eidLength := msg.eidLength }) :
    Finished msg p := by
  have hid := hasBundleId_of_hasEid heid
  obtain ⟨e, -, hle, -⟩ := hvalid.eid heid
  refine ⟨hstatus, ?_, isValid_iff.mpr ?_⟩
  · simp [hmessage, Message.content, heid, hid, hpayload, Message.eidBytes,
      take_eidMemory hvalid heid]
  · rw [hmessage]
    constructor <;>
      simp [heid, hid, hpayload, hvalid.code_le, aapMessageClear, hle, strlen_eidMemory hvalid heid]

/-- A message with a payload. -/
theorem finished_payload (hvalid : msg.Valid) (hstored : msg.Stored sizeMax)
    (hpayload : msg.type.hasPayload = true) (hstatus : p.status = .done)
    (hmessage : p.message = { aapMessageClear with
      type := msg.type, eid := some (eidMemory msg), eidLength := msg.eidLength
      payload := some msg.payloadBytes, payloadLength := msg.payloadLength }) :
    Finished msg p := by
  have heid := hasEid_of_hasPayload hpayload
  have hid := hasBundleId_of_hasEid heid
  have hlen := length_payloadBytes hvalid hstored hpayload
  obtain ⟨e, -, hle, -⟩ := hvalid.eid heid
  refine ⟨hstatus, ?_, isValid_iff.mpr ?_⟩
  · have htake : msg.payloadBytes.take msg.payloadLength = msg.payloadBytes :=
      List.take_of_length_le (Nat.le_of_eq hlen)
    have hread : p.message.payloadBytes = msg.payloadBytes := by
      rw [hmessage]
      exact htake
    have hname : p.message.eidBytes = msg.eidBytes := by
      rw [hmessage]
      exact take_eidMemory hvalid heid
    simp [Message.content, hread, hname]
    simp [hmessage, hid]
  · rw [hmessage]
    constructor <;>
      simp [heid, hid, hpayload, hvalid.code_le, hle, strlen_eidMemory hvalid heid]

/-- A message with the identifier of a bundle. -/
theorem finished_bundleId (hvalid : msg.Valid) (hid : msg.type.hasBundleId = true)
    (hstatus : p.status = .done)
    (hmessage : p.message = { aapMessageClear with type := msg.type, bundleId := msg.bundleId }) :
    Finished msg p := by
  have heid : msg.type.hasEid = false := by
    cases h : msg.type.hasEid with
    | false => rfl
    | true =>
        rw [hasBundleId_of_hasEid h] at hid
        cases hid
  have hpayload := hasPayload_of_not_hasEid heid
  refine ⟨hstatus, ?_, isValid_iff.mpr ?_⟩
  · simp [hmessage, Message.content, heid, hid, hpayload]
  · rw [hmessage]
    constructor <;> simp [heid, hid, hpayload, hvalid.code_le, aapMessageClear, hvalid.bundleId hid]

/-- The type of the message is read. -/
theorem parseType_spec (hvalid : msg.Valid) (hstatus : p.status = .good)
    (hlimit : p.maxPayloadLength = p₀.maxPayloadLength) (hparse : p.parse = .type)
    (hrequests : p.requests = p₀.requests) (hclear : p.message = aapMessageClear)
    {tail : List UInt8} (hbuf : buffer ++ tail = aapSerialize msg ++ further) :
    Progress malloc p₀ msg (aapSerialize msg) buffer (aapParseType p buffer) := by
  cases buffer with
  | nil =>
      apply progress_none hstatus hlimit (.type hparse hrequests hclear)
      simp [aapSerialize]
  | cons b bs =>
      rw [aapSerialize, List.cons_append, List.cons_append] at hbuf
      obtain ⟨rfl, -⟩ := List.cons.inj hbuf
      rw [aapParseType_head hvalid.code_le]
      refine ⟨by simp [aapSerialize], by simp, fun _ => one_ne_zero, ?_⟩
      cases heid : msg.type.hasEid with
      | true =>
          have hid := hasBundleId_of_hasEid heid
          refine .reading hstatus hlimit ?_
          have hleft : (aapSerialize msg).drop 1 =
              toBytes 2 msg.eidLength ++ (msg.eidBytes ++ payloadWire msg) := by
            simp [aapSerialize, eidWire, bundleIdWire, heid, hid]
          rw [hleft]
          exact .eidLength rfl hrequests heid (by simp [hclear])
      | false =>
          have hpayload := hasPayload_of_not_hasEid heid
          cases hid : msg.type.hasBundleId with
          | true =>
              refine .reading hstatus hlimit ?_
              have hleft : (aapSerialize msg).drop 1 = putUint64 msg.bundleId.toNat := by
                simp [aapSerialize, eidWire, payloadWire, bundleIdWire, heid, hid, hpayload]
              rw [hleft]
              exact .bundleId rfl hid (by simp [hclear])
          | false =>
              have hreadable : Readable malloc p₀ msg := by
                constructor <;> simp [heid, hpayload]
              refine .finished hreadable ?_ (finished_type hvalid heid hid ?_ ?_)
              · simp [aapSerialize, eidWire, payloadWire, bundleIdWire, heid, hid, hpayload]
              · simp
              · rw [hclear]

/-- The length of the identifier is read, and there is memory for it. -/
theorem parseEidLength_spec (hvalid : msg.Valid) (hstatus : p.status = .good)
    (hlimit : p.maxPayloadLength = p₀.maxPayloadLength) (hparse : p.parse = .eidLength)
    (hrequests : p.requests = p₀.requests) (hhas : msg.type.hasEid = true)
    (hmessage : p.message = { aapMessageClear with type := msg.type })
    (hleft : left = toBytes 2 msg.eidLength ++ (msg.eidBytes ++ payloadWire msg))
    {tail : List UInt8} (hbuf : buffer ++ tail = left ++ further) :
    Ends (fun _ => ¬ Readable malloc p₀ msg) (aapParseEidLength malloc p buffer)
      (Progress malloc p₀ msg left buffer) := by
  subst hleft
  unfold aapParseEidLength
  split
  · next hshort =>
    apply progress_none hstatus hlimit (.eidLength hparse hrequests hhas hmessage)
    simp
    omega
  · next hlong =>
    obtain ⟨e, -, hle, -⟩ := hvalid.eid hhas
    obtain ⟨hlen, -⟩ := eidBytes_of_valid hvalid hhas
    rw [List.append_assoc] at hbuf
    have hread : beNat (buffer.take 2) = msg.eidLength :=
      beNat_take_toBytes (Nat.lt_of_le_of_lt hle (by decide)) hbuf (Nat.not_lt.mp hlong)
    rw [hread]
    cases hmem : malloc p.requests with
    | none =>
        -- the terminator is written to no memory
        intro hreadable
        have hsome := hreadable.eidMemory hhas
        rw [← hrequests, hmem] at hsome
        cases hsome
    | some garbage =>
        have hserved : (malloc p₀.requests).isSome = true := by
          rw [← hrequests, hmem]
          rfl
        refine ⟨by simp, Nat.not_lt.mp hlong, fun _ => two_ne_zero, ?_⟩
        by_cases hzero : msg.eidLength = 0
        · have hbytes : msg.eidBytes = [] := List.eq_nil_of_length_eq_zero (hlen.trans hzero)
          cases hpayload : msg.type.hasPayload with
          | true =>
              -- the payload has not been read
              refine .failed (fun hreadable => hreadable.eid hpayload hzero) ?_ fun _ => ?_
              · simp [hzero]
              · simp [payloadWire, hpayload, putUint64]
          | false =>
              have hreadable : Readable malloc p₀ msg := by
                constructor <;> simp [hpayload, hserved]
              refine .finished hreadable ?_ (finished_eid hvalid hhas hpayload ?_ ?_)
              · simp [hbytes, payloadWire, hpayload]
              · simp [hzero]
              · simp [hmessage, hzero, eidMemory, hbytes, block]
        · refine .reading ?_ hlimit ?_
          · simp [hzero, hstatus]
          · rw [List.drop_left' (length_toBytes 2 _)]
            have hmemory : ((block garbage (msg.eidLength + 1)).set msg.eidLength 0).length =
                msg.eidLength + 1 := by simp [block]
            refine .eid rfl (congrArg (· + 1) hrequests) hhas hserved hmemory ?_
              (Nat.pos_of_ne_zero hzero) (Nat.zero_add _) (by simp)
            simp [hmessage]

/-- The memory of an identifier with its last byte set. -/
theorem set_eidMemory {m : List UInt8} (hlen : m.length = msg.eidLength + 1)
    (hbytes : msg.eidBytes.length = msg.eidLength)
    (hread : m.take msg.eidLength = msg.eidBytes.take msg.eidLength) :
    m.set msg.eidLength 0 = eidMemory msg := by
  rw [List.take_of_length_le (Nat.le_of_eq hbytes)] at hread
  rw [List.set_eq_take_append_cons_drop, if_pos (by omega), hread,
    List.drop_of_length_le (Nat.le_of_eq hlen), eidMemory]

/-- The end of the identifier decides what is read next. -/
theorem aapParseEid_end {m : List UInt8} {n : Nat} (hhas : p.message.type.hasEid = true)
    (heid : p.message.eid = some m) (hn : min buffer.length p.remaining = n)
    (hend : p.remaining - n = 0) :
    aapParseEid p buffer = .ok (n, { p with
      message := { p.message with
        eid := some ((splice m p.consumed (buffer.take n)).set p.message.eidLength 0) }
      consumed := p.consumed + n
      remaining := p.remaining - n
      status := if p.message.type.hasPayload then p.status else .done
      parse := if p.message.type.hasPayload then .payloadLength else p.parse }) := by
  unfold aapParseEid
  simp only [heid, hn, hend, ne_eq, not_true_eq_false, if_false]
  cases htype : p.message.type <;> rw [htype] at hhas <;> first | rfl | cases hhas

/-- Some of the identifier is read. -/
theorem parseEid_spec (hvalid : msg.Valid) (hstatus : p.status = .good)
    (hlimit : p.maxPayloadLength = p₀.maxPayloadLength) (hparse : p.parse = .eid)
    (hrequests : p.requests = p₀.requests + 1) (hhas : msg.type.hasEid = true)
    (hserved : (malloc p₀.requests).isSome = true)
    {m : List UInt8} (hlen : m.length = msg.eidLength + 1)
    (hmessage : p.message = { aapMessageClear with
      type := msg.type, eid := some m, eidLength := msg.eidLength })
    (hlt : p.consumed < msg.eidLength) (hremaining : p.consumed + p.remaining = msg.eidLength)
    (hread : m.take p.consumed = msg.eidBytes.take p.consumed)
    (hleft : left = msg.eidBytes.drop p.consumed ++ payloadWire msg)
    {tail : List UInt8} (hbuf : buffer ++ tail = left ++ further) :
    Ends (fun _ => ¬ Readable malloc p₀ msg) (aapParseEid p buffer)
      (Progress malloc p₀ msg left buffer) := by
  subst hleft
  obtain ⟨hbytes, -⟩ := eidBytes_of_valid hvalid hhas
  obtain ⟨n, hn⟩ : ∃ n, min buffer.length p.remaining = n := ⟨_, rfl⟩
  have hnbuf : n ≤ buffer.length := hn ▸ Nat.min_le_left _ _
  have hnrem : n ≤ p.remaining := hn ▸ Nat.min_le_right _ _
  have hdrop : (msg.eidBytes.drop p.consumed).length = p.remaining := by
    rw [List.length_drop]
    omega
  rw [List.append_assoc] at hbuf
  have hpiece : buffer.take n = (msg.eidBytes.drop p.consumed).take n :=
    take_agree hbuf hnbuf (by omega)
  have hpieceLen : (buffer.take n).length = n := List.length_take_of_le hnbuf
  have hread' : (splice m p.consumed (buffer.take n)).take (p.consumed + n) =
      msg.eidBytes.take (p.consumed + n) := by
    have hcopied := take_splice hread (by omega) (by rw [hpieceLen]; exact hpiece)
    rwa [hpieceLen] at hcopied
  have hlen' : (splice m p.consumed (buffer.take n)).length = msg.eidLength + 1 := by
    rw [length_splice (by omega), hlen]
  have hleft' : (msg.eidBytes.drop p.consumed ++ payloadWire msg).drop n =
      msg.eidBytes.drop (p.consumed + n) ++ payloadWire msg := by
    rw [List.drop_append_of_le_length (by omega), List.drop_drop]
  have heid : p.message.eid = some m := by rw [hmessage]
  have hsome : (msg.eidBytes.drop p.consumed ++ payloadWire msg).length ≤ buffer.length →
      n ≠ 0 := by
    intro hle
    rw [List.length_append] at hle
    omega
  have hle : n ≤ (msg.eidBytes.drop p.consumed ++ payloadWire msg).length := by
    rw [List.length_append]
    omega
  by_cases hend : p.remaining - n = 0
  · have hall : p.consumed + n = msg.eidLength := by omega
    rw [hall] at hread' hleft'
    rw [aapParseEid_end (by rw [hmessage]; exact hhas) heid hn hend]
    refine ⟨hle, hnbuf, hsome, ?_⟩
    have hset := set_eidMemory hlen' hbytes hread'
    have hnone : msg.eidBytes.drop msg.eidLength = [] :=
      List.drop_of_length_le (Nat.le_of_eq hbytes)
    rw [hnone, List.nil_append] at hleft'
    have htype : p.message.type = msg.type := by rw [hmessage]
    have hnew : ({ p.message with
        eid := some ((splice m p.consumed (buffer.take n)).set p.message.eidLength 0) } : Message) =
          { aapMessageClear with
            type := msg.type, eid := some (eidMemory msg), eidLength := msg.eidLength } := by
      rw [hmessage]
      simp only
      rw [hset]
    cases hpayload : msg.type.hasPayload with
    | true =>
        refine .reading ?_ hlimit ?_
        · simp [htype, hpayload, hstatus]
        · dsimp only
          rw [hleft']
          exact .payloadLength (by simp [htype, hpayload]) hrequests hpayload hserved
            (by omega) hnew
    | false =>
        have hreadable : Readable malloc p₀ msg := by
          constructor <;> simp [hpayload, hserved]
        refine .finished hreadable ?_ (finished_eid hvalid hhas hpayload ?_ hnew)
        · simp [payloadWire, hpayload]
          omega
        · simp [htype, hpayload]
  · unfold aapParseEid
    simp only [heid, hn, hend, ne_eq, not_false_eq_true, if_true]
    refine ⟨hle, hnbuf, hsome, .reading hstatus hlimit ?_⟩
    rw [hleft']
    refine .eid hparse hrequests hhas hserved hlen' ?_ (by simp only; omega) (by simp only; omega)
      hread'
    rw [hmessage]

/-- The length of the payload is read, and there is memory for it. -/
theorem parsePayloadLength_spec (hvalid : msg.Valid) (hstored : msg.Stored sizeMax)
    (hsize : sizeMax < 2 ^ 64) (hstatus : p.status = .good)
    (hlimit : p.maxPayloadLength = p₀.maxPayloadLength) (hparse : p.parse = .payloadLength)
    (hrequests : p.requests = p₀.requests + 1) (hhas : msg.type.hasPayload = true)
    (hserved : (malloc p₀.requests).isSome = true) (hne : msg.eidLength ≠ 0)
    (hmessage : p.message = { aapMessageClear with
      type := msg.type, eid := some (eidMemory msg), eidLength := msg.eidLength })
    {tail : List UInt8} (hbuf : buffer ++ tail = payloadWire msg ++ further) :
    Progress malloc p₀ msg (payloadWire msg) buffer
      (aapParsePayloadLength sizeMax malloc p buffer) := by
  have hlen := length_payloadBytes hvalid hstored hhas
  have hwire : payloadWire msg = toBytes 8 msg.payloadLength ++ msg.payloadBytes := by
    simp [payloadWire, hhas, putUint64]
  have hsizeMax := hstored.payloadLength_le
  unfold aapParsePayloadLength
  split
  · next hshort =>
    apply progress_none hstatus hlimit
      (.payloadLength hparse hrequests hhas hserved hne hmessage)
    simp [hwire]
    omega
  · next hlong =>
    rw [hwire, List.append_assoc] at hbuf
    have hread : beNat (buffer.take 8) = msg.payloadLength :=
      beNat_take_toBytes (Nat.lt_of_le_of_lt hsizeMax hsize) hbuf (Nat.not_lt.mp hlong)
    simp only [hread, if_neg (Nat.not_lt.mpr hsizeMax)]
    have hle : 8 ≤ (payloadWire msg).length := by simp [hwire]
    split
    · next hmax =>
      refine ⟨hle, Nat.not_lt.mp hlong, fun _ => by simp, .failed (fun hreadable => ?_) ?_ ?_⟩
      · rw [hlimit] at hmax
        rcases hreadable.payloadLimit hhas with hzero | hfits
        · exact hmax.1 hzero
        · exact absurd hmax.2 (Nat.not_lt.mpr hfits)
      · simp
      · simp
    · next hmax =>
      cases hmem : malloc p.requests with
      | none =>
          refine ⟨hle, Nat.not_lt.mp hlong, fun _ => by simp, .failed (fun hreadable => ?_) ?_ ?_⟩
          · have hsome := hreadable.payloadMemory hhas
            rw [← hrequests, hmem] at hsome
            cases hsome
          · simp
          · simp
      | some garbage =>
          have hreadable : Readable malloc p₀ msg := by
            refine ⟨fun _ => hserved, fun _ => ?_, fun _ => ?_, fun _ => hne⟩
            · rw [← hrequests, hmem]
              rfl
            · rw [hlimit] at hmax
              omega
          refine ⟨hle, Nat.not_lt.mp hlong, fun _ => by simp, ?_⟩
          have hdrop : (payloadWire msg).drop 8 = msg.payloadBytes := by
            rw [hwire]
            exact List.drop_left' (length_toBytes 8 _)
          by_cases hzero : msg.payloadLength = 0
          · have hbytes : msg.payloadBytes = [] :=
              List.eq_nil_of_length_eq_zero (hlen.trans hzero)
            refine .finished hreadable ?_ (finished_payload hvalid hstored hhas ?_ ?_)
            · simp [hwire, hbytes]
            · simp [hzero]
            · simp [hmessage, hzero, hbytes, block]
          · refine .reading ?_ hlimit ?_
            · simp [hzero, hstatus]
            · rw [hdrop]
              have hmemory : (block garbage msg.payloadLength).length = msg.payloadLength := by
                simp [block]
              refine .payload rfl hhas hreadable hmemory ?_ (Nat.pos_of_ne_zero hzero)
                (Nat.zero_add _) (by simp)
              simp [hmessage]

/-- Some of the payload is read. -/
theorem parsePayload_spec (hvalid : msg.Valid) (hstored : msg.Stored sizeMax)
    (hstatus : p.status = .good) (hlimit : p.maxPayloadLength = p₀.maxPayloadLength)
    (hparse : p.parse = .payload) (hhas : msg.type.hasPayload = true)
    (hreadable : Readable malloc p₀ msg)
    {m : List UInt8} (hlen : m.length = msg.payloadLength)
    (hmessage : p.message = { aapMessageClear with
      type := msg.type, eid := some (eidMemory msg), eidLength := msg.eidLength
      payload := some m, payloadLength := msg.payloadLength })
    (hlt : p.consumed < msg.payloadLength)
    (hremaining : p.consumed + p.remaining = msg.payloadLength)
    (hread : m.take p.consumed = msg.payloadBytes.take p.consumed)
    (hleft : left = msg.payloadBytes.drop p.consumed)
    {tail : List UInt8} (hbuf : buffer ++ tail = left ++ further) :
    Ends (fun _ => ¬ Readable malloc p₀ msg) (aapParsePayload p buffer)
      (Progress malloc p₀ msg left buffer) := by
  subst hleft
  have hbytes := length_payloadBytes hvalid hstored hhas
  obtain ⟨n, hn⟩ : ∃ n, min buffer.length p.remaining = n := ⟨_, rfl⟩
  have hnbuf : n ≤ buffer.length := hn ▸ Nat.min_le_left _ _
  have hnrem : n ≤ p.remaining := hn ▸ Nat.min_le_right _ _
  have hdrop : (msg.payloadBytes.drop p.consumed).length = p.remaining := by
    rw [List.length_drop]
    omega
  have hpiece : buffer.take n = (msg.payloadBytes.drop p.consumed).take n :=
    take_agree hbuf hnbuf (by omega)
  have hpieceLen : (buffer.take n).length = n := List.length_take_of_le hnbuf
  have hread' : (splice m p.consumed (buffer.take n)).take (p.consumed + n) =
      msg.payloadBytes.take (p.consumed + n) := by
    have hcopied := take_splice hread (by omega) (by rw [hpieceLen]; exact hpiece)
    rwa [hpieceLen] at hcopied
  have hlen' : (splice m p.consumed (buffer.take n)).length = msg.payloadLength := by
    rw [length_splice (by omega), hlen]
  have hpayload : p.message.payload = some m := by rw [hmessage]
  unfold aapParsePayload
  simp only [hpayload, hn]
  refine ⟨by omega, hnbuf, fun _ => by omega, ?_⟩
  by_cases hend : p.remaining - n = 0
  · have hall : p.consumed + n = msg.payloadLength := by omega
    rw [hall, List.take_of_length_le (Nat.le_of_eq hlen'),
      List.take_of_length_le (Nat.le_of_eq hbytes)] at hread'
    refine .finished hreadable (by omega) (finished_payload hvalid hstored hhas ?_ ?_)
    · simp [hend]
    · rw [hmessage]
      simp only
      rw [hread']
  · refine .reading ?_ hlimit ?_
    · simp [hend, hstatus]
    · rw [List.drop_drop]
      refine .payload hparse hhas hreadable hlen' ?_ (by simp only; omega) (by simp only; omega)
        hread'
      rw [hmessage]

/-- The identifier of the bundle is read. -/
theorem parseBundleId_spec (hvalid : msg.Valid) (hstatus : p.status = .good)
    (hlimit : p.maxPayloadLength = p₀.maxPayloadLength) (hparse : p.parse = .bundleId)
    (hhas : msg.type.hasBundleId = true)
    (hmessage : p.message = { aapMessageClear with type := msg.type })
    {tail : List UInt8} (hbuf : buffer ++ tail = putUint64 msg.bundleId.toNat ++ further) :
    Progress malloc p₀ msg (putUint64 msg.bundleId.toNat) buffer (aapParseBundleId p buffer) := by
  have hlen : (putUint64 msg.bundleId.toNat).length = 8 := length_toBytes 8 _
  unfold aapParseBundleId
  split
  · next hshort =>
    exact progress_none hstatus hlimit (.bundleId hparse hhas hmessage) (by omega)
  · next hlong =>
    have hid : msg.bundleId.toNat < 256 ^ 8 := Nat.lt_trans msg.bundleId.toNat_lt (by decide)
    have hread : beNat (buffer.take 8) = msg.bundleId.toNat :=
      beNat_take_toBytes hid hbuf (Nat.not_lt.mp hlong)
    have heid : msg.type.hasEid = false := by
      cases h : msg.type.hasEid with
      | false => rfl
      | true =>
          rw [hasBundleId_of_hasEid h] at hhas
          cases hhas
    have hpayload := hasPayload_of_not_hasEid heid
    have hreadable : Readable malloc p₀ msg := by
      constructor <;> simp [heid, hpayload]
    refine ⟨Nat.le_of_eq hlen.symm, Nat.not_lt.mp hlong, fun _ => by simp,
      .finished hreadable hlen.symm (finished_bundleId hvalid hhas rfl ?_)⟩
    simp [hread, hmessage]

/-! ## Runs -/

/-- **One call** takes what it can of the bytes that are left. -/
theorem parse_spec (hvalid : msg.Valid) (hstored : msg.Stored sizeMax) (hsize : sizeMax < 2 ^ 64)
    (hstatus : p.status = .good) (hlimit : p.maxPayloadLength = p₀.maxPayloadLength)
    (h : Reading malloc p₀ msg p left) {tail : List UInt8}
    (hbuf : buffer ++ tail = left ++ further) :
    Ends (fun _ => ¬ Readable malloc p₀ msg) (parse sizeMax malloc p buffer)
      (Progress malloc p₀ msg left buffer) := by
  cases h with
  | type hparse hrequests hclear =>
      simp only [parse, hparse]
      exact parseType_spec hvalid hstatus hlimit hparse hrequests hclear hbuf
  | eidLength hparse hrequests hhas hmessage =>
      simp only [parse, hparse]
      exact parseEidLength_spec hvalid hstatus hlimit hparse hrequests hhas hmessage rfl hbuf
  | eid hparse hrequests hhas hserved hlen hmessage hlt hremaining hread =>
      simp only [parse, hparse]
      exact parseEid_spec hvalid hstatus hlimit hparse hrequests hhas hserved hlen hmessage hlt
        hremaining hread rfl hbuf
  | payloadLength hparse hrequests hhas hserved hne hmessage =>
      simp only [parse, hparse]
      exact parsePayloadLength_spec hvalid hstored hsize hstatus hlimit hparse hrequests hhas
        hserved
        hne hmessage hbuf
  | payload hparse hhas hreadable hlen hmessage hlt hremaining hread =>
      simp only [parse, hparse]
      exact parsePayload_spec hvalid hstored hstatus hlimit hparse hhas hreadable hlen hmessage hlt
        hremaining hread rfl hbuf
  | bundleId hparse hhas hmessage =>
      simp only [parse, hparse]
      exact parseBundleId_spec hvalid hstatus hlimit hparse hhas hmessage hbuf

/-- Something is left of a message that is being read. -/
theorem Reading.left_pos (hvalid : msg.Valid) (hstored : msg.Stored sizeMax)
    (h : Reading malloc p₀ msg p left) : 0 < left.length := by
  cases h with
  | type => simp [aapSerialize]
  | eidLength => simp
  | eid _ _ hhas _ _ _ hlt =>
      have hlen := (eidBytes_of_valid hvalid hhas).1
      simp
      omega
  | payloadLength _ _ hhas => simp [payloadWire, hhas, putUint64]
  | payload _ hhas _ _ _ hlt =>
      have hlen := length_payloadBytes hvalid hstored hhas
      simp
      omega
  | bundleId => simp [putUint64]

/-- What is reached with the bytes behind the first ones. -/
theorem Reached.shift {n k : Nat} (hn : n ≤ left.length)
    (h : Reached malloc p₀ msg (left.drop n) k p) : Reached malloc p₀ msg left (n + k) p := by
  cases h with
  | reading hstatus hlimit h =>
      rw [List.drop_drop] at h
      exact .reading hstatus hlimit h
  | finished hreadable hall h =>
      rw [List.length_drop] at hall
      exact .finished hreadable (by omega) h
  | failed hnot hstatus h =>
      refine .failed hnot hstatus fun hdone => ?_
      have hlt := h hdone
      rw [List.length_drop] at hlt
      omega

theorem parseLoop_of_status {fuel : Nat} (h : p.status ≠ .good) :
    parseLoop sizeMax malloc fuel p buffer = .ok (0, p) := by
  cases fuel with
  | zero => rfl
  | succ fuel => simp [parseLoop, h]

/-- What the loop makes of the bytes it is given: it stops in the middle of the message only when
the rest of it has not come in. -/
structure Taken (malloc : Memory) (p₀ : Parser) (msg : Message) (left buffer : List UInt8)
    (r : Nat × Parser) : Prop where
  le_left : r.1 ≤ left.length
  le_buffer : r.1 ≤ buffer.length
  more : r.2.status = .good → buffer.length < left.length
  reached : Reached malloc p₀ msg left r.1 r.2

/-- **The loop** gets as far as the bytes go. -/
theorem parseLoop_spec (hvalid : msg.Valid) (hstored : msg.Stored sizeMax)
    (hsize : sizeMax < 2 ^ 64) {fuel : Nat} {tail : List UInt8} (hfuel : buffer.length ≤ fuel)
    (hstatus : p.status = .good) (hlimit : p.maxPayloadLength = p₀.maxPayloadLength)
    (h : Reading malloc p₀ msg p left) (hbuf : buffer ++ tail = left ++ further) :
    Ends (fun _ => ¬ Readable malloc p₀ msg) (parseLoop sizeMax malloc fuel p buffer)
      (Taken malloc p₀ msg left buffer) := by
  induction fuel generalizing p left buffer with
  | zero =>
      have hnil : buffer = [] := List.eq_nil_of_length_eq_zero (by omega)
      subst hnil
      exact ⟨Nat.zero_le _, Nat.zero_le _, fun _ => h.left_pos hvalid hstored,
        .reading hstatus hlimit h⟩
  | succ fuel ih =>
      by_cases hnil : buffer = []
      · subst hnil
        simp only [parseLoop, ne_eq, not_true_eq_false, and_false, if_false]
        exact ⟨Nat.zero_le _, Nat.zero_le _, fun _ => h.left_pos hvalid hstored,
          .reading hstatus hlimit h⟩
      · unfold parseLoop
        rw [if_pos ⟨hstatus, hnil⟩]
        apply (parse_spec hvalid hstored hsize hstatus hlimit h hbuf).bind
        rintro ⟨delta, p'⟩ ⟨hleft, hbuffer, hsome, hreached⟩
        dsimp only at hleft hbuffer hsome hreached ⊢
        split
        · next hzero =>
          subst hzero
          exact ⟨Nat.zero_le _, Nat.zero_le _, fun _ => by
            by_contra hlt
            exact hsome (Nat.not_lt.mp hlt) rfl, hreached⟩
        · next hdelta =>
          have hstop (hne : p'.status ≠ .good) :
              Ends (fun _ => ¬ Readable malloc p₀ msg)
                (parseLoop sizeMax malloc fuel p' (buffer.drop delta) >>= fun r =>
                  pure (delta + r.1, r.2))
                (Taken malloc p₀ msg left buffer) := by
            rw [parseLoop_of_status hne]
            exact ⟨hleft, hbuffer, fun hgood => absurd hgood hne, hreached⟩
          cases hreached with
          | finished hreadable hall hfin =>
              exact hstop (by rw [hfin.status]; decide)
          | failed hnot hne _ => exact hstop hne
          | reading hstatus' hlimit' h' =>
              have hbuf' : buffer.drop delta ++ tail = left.drop delta ++ further := by
                rw [← List.drop_append_of_le_length hbuffer, hbuf,
                  List.drop_append_of_le_length hleft]
              have hfuel' : (buffer.drop delta).length ≤ fuel := by
                rw [List.length_drop]
                omega
              apply (ih hfuel' hstatus' hlimit' h' hbuf').bind
              rintro ⟨k, p''⟩ ⟨hkleft, hkbuffer, hmore, hreached'⟩
              dsimp only at hkleft hkbuffer hmore hreached'
              rw [List.length_drop] at hkleft hkbuffer
              refine ⟨by simp only; omega, by simp only; omega, fun hgood => ?_,
                hreached'.shift hleft⟩
              have hlt := hmore hgood
              rw [List.length_drop, List.length_drop] at hlt
              omega

/-- A parser that has stopped is given nothing more. -/
theorem receive_of_status (h : p.status ≠ .good) (segments : List (List UInt8)) :
    receive sizeMax malloc p buffer segments = .ok (p, buffer ++ segments.flatten) := by
  induction segments generalizing buffer with
  | nil => simp [receive]
  | cons segment segments ih =>
      simp only [receive, parseAap, parseLoop_of_status h]
      simp [ih]

/-- **The whole message** is read with the last of its segments, or it is not readable. -/
theorem receive_spec (hvalid : msg.Valid) (hstored : msg.Stored sizeMax) (hsize : sizeMax < 2 ^ 64)
    (segments : List (List UInt8)) (hstatus : p.status = .good)
    (hlimit : p.maxPayloadLength = p₀.maxPayloadLength) (h : Reading malloc p₀ msg p left)
    (hshort : buffer.length < left.length) (hbuf : buffer ++ segments.flatten = left ++ further) :
    Ends (fun _ => ¬ Readable malloc p₀ msg) (receive sizeMax malloc p buffer segments) fun r =>
      (Readable malloc p₀ msg ∧ r.2 = further ∧ Finished msg r.1) ∨
        (¬ Readable malloc p₀ msg ∧ ¬ (r.2 = further ∧ r.1.status = .done)) := by
  induction segments generalizing p left buffer with
  | nil =>
      have hlen := congrArg List.length hbuf
      simp only [List.flatten_nil, List.append_nil, List.length_append] at hlen
      omega
  | cons segment segments ih =>
      rw [List.flatten_cons, ← List.append_assoc] at hbuf
      simp only [receive]
      apply (parseLoop_spec hvalid hstored hsize (Nat.le_refl _) hstatus hlimit h hbuf).bind
      rintro ⟨n, p'⟩ ⟨hleft, hbuffer, hmore, hreached⟩
      dsimp only at hleft hbuffer hmore hreached ⊢
      have hrest : (buffer ++ segment).drop n ++ segments.flatten = left.drop n ++ further := by
        rw [← List.drop_append_of_le_length hbuffer, hbuf, List.drop_append_of_le_length hleft]
      cases hreached with
      | reading hstatus' hlimit' h' =>
          apply ih hstatus' hlimit' h' _ hrest
          have hlt := hmore hstatus'
          rw [List.length_drop, List.length_drop]
          omega
      | finished hreadable hall hfin =>
          have hne : p'.status ≠ .good := by
            rw [hfin.status]
            decide
          rw [receive_of_status hne, hrest, hall, List.drop_length, List.nil_append]
          exact .inl ⟨hreadable, rfl, hfin⟩
      | failed hnot hne hdone =>
          rw [receive_of_status hne, hrest]
          refine .inr ⟨hnot, ?_⟩
          rintro ⟨hall, hstop⟩
          have hlt := hdone hstop
          have hlen := congrArg List.length hall
          simp only [List.length_append, List.length_drop] at hlen
          omega

/-! ## Round trip -/

/-- **A message is read back exactly when** there is memory for its identifier and its payload,
the payload is within the limit of the parser, and a payload has a destination or a source in
front of it that is not empty. -/
theorem round_trip (hsize : sizeMax < 2 ^ 64) (hvalid : aapMessageIsValid msg = true)
    (hstored : msg.Stored sizeMax) :
    ((aapSerialize msg).length = aapGetSerializedSize msg ∧ RoundTrip sizeMax malloc p msg) ↔
      Readable malloc p msg := by
  have hvalid' := isValid_iff.mp hvalid
  have hstart : Reading malloc p msg (aapParserReset p) (aapSerialize msg) := .type rfl rfl rfl
  have hspec (segments : List (List UInt8)) (further : List UInt8)
      (hbuf : segments.flatten = aapSerialize msg ++ further) :=
    @receive_spec sizeMax malloc msg p (aapParserReset p) _ [] further hvalid' hstored hsize
      segments
      rfl rfl hstart (by simp [aapSerialize]) hbuf
  constructor
  · rintro ⟨-, hround⟩
    by_contra hnot
    obtain ⟨p', hrun, hdone, -⟩ := hround [aapSerialize msg] [] (by simp)
    have hends := hspec [aapSerialize msg] [] (by simp)
    rw [hrun] at hends
    rcases hends with ⟨hreadable, -⟩ | ⟨-, hfailed⟩
    · exact hnot hreadable
    · exact hfailed ⟨rfl, hdone⟩
  · intro hreadable
    refine ⟨length_aapSerialize hvalid' hstored, fun segments further hbuf => ?_⟩
    have hends := hspec segments further hbuf
    cases hrun : receive sizeMax malloc (aapParserReset p) [] segments with
    | error f =>
        rw [hrun] at hends
        exact absurd hreadable hends
    | ok r =>
        obtain ⟨p', rest⟩ := r
        rw [hrun] at hends
        rcases hends with ⟨-, rfl, hfin⟩ | ⟨hnot, -⟩
        · have hdone : p'.status = .done := hfin.status
          have hextract : (aapParserExtractMessage p').1 = p'.message := by
            simp [aapParserExtractMessage, hdone]
          refine ⟨p', rfl, hdone, ?_⟩
          rw [hextract]
          exact ⟨hfin.content, hfin.valid⟩
        · exact absurd hreadable hnot

/-- `SIZE_MAX` of a platform with 64 bits. -/
def sizeMax64 : Nat := 2 ^ 64 - 1

/-- A platform that serves every request with zero bytes. -/
def served : Memory := fun _ => some fun _ => 0

/-- A parser as `aap_parser_init` leaves it. -/
def aapParserInit : Parser :=
  aapParserReset ⟨.good, 0, .type, aapMessageClear, 0, 0, 0⟩

/-- A bundle with one byte, to an application or from one. -/
def bundleMessage (type : MessageType) (eid : List UInt8) : Message :=
  ⟨type, some (eid ++ [0]), eid.length, some [7], 1, 0⟩

theorem round_trip_sendbundle :
    (aapSerialize (bundleMessage .sendbundle [65, 66])).length =
        aapGetSerializedSize (bundleMessage .sendbundle [65, 66]) ∧
      RoundTrip sizeMax64 served aapParserInit (bundleMessage .sendbundle [65, 66]) :=
  (round_trip (by decide) (by decide)
    ⟨by simp [bundleMessage], by simp [bundleMessage], by decide⟩).mpr
    ⟨fun _ => rfl, fun _ => rfl, fun _ => .inl rfl, fun _ => by decide⟩

/-- A bundle with an empty identifier is valid, and the parser is done with it before its payload:
nine bytes are left. -/
theorem sendbundle_without_eid :
    aapMessageIsValid (bundleMessage .sendbundle []) = true ∧
      (bundleMessage .sendbundle []).Stored sizeMax64 ∧
      (∃ p, receive sizeMax64 served aapParserInit []
          [aapSerialize (bundleMessage .sendbundle [])] = .ok (p, [0, 0, 0, 0, 0, 0, 0, 1, 7]) ∧
        p.status = .done) ∧
      ¬ RoundTrip sizeMax64 served aapParserInit (bundleMessage .sendbundle []) := by
  have hrun : receive sizeMax64 served aapParserInit []
      [aapSerialize (bundleMessage .sendbundle [])] =
      .ok ({ aapParserInit with
        status := .done, parse := .eid, requests := 1
        message := { aapMessageClear with type := .sendbundle, eid := some [0] } },
        [0, 0, 0, 0, 0, 0, 0, 1, 7]) := by decide
  refine ⟨by decide, ⟨by simp [bundleMessage], by simp [bundleMessage], by decide⟩,
    ⟨_, hrun, rfl⟩, fun h => ?_⟩
  obtain ⟨p, hround, -⟩ := h [aapSerialize (bundleMessage .sendbundle [])] [] (by simp)
  have hsame : aapParserReset aapParserInit = aapParserInit := rfl
  rw [hsame, hrun] at hround
  exact absurd (Prod.mk.inj (Except.ok.inj hround)).2 (by decide)

end Aap
