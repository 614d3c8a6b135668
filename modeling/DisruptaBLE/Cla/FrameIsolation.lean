import DisruptaBLE.Cla.Ml2capRx

/-!
# The frames of an ML2CAP link

A link receives frames.  The parsers of the link should stay within the frame whose header they have
read, and read the next header behind it (`Isolated`).

This fails in two ways.  A bulk read takes as many bytes as the bundle says, whatever is left of
the frame, and is not counted.  And when the bundle in a frame ends, fails or has an unknown
version, the parsers are reset where they stand, and the rest of the frame is read as headers.  In
the runs without such steps (`Regular`), the parsers stay within the frames (`frame_isolation`).
-/

namespace Ml2cap

open ClaRx
open Mtcp (FrameParser mtcpParserReset mtcpParserParse)
open Cbor (readHead readHead_append readHead_size)

/-! ## Frames -/

/-- A frame: the head of a byte string, and its bytes. -/
structure Frame where
  header : List UInt8
  content : List UInt8
  head : readHead header = .head ⟨.bytes, some content.length, header.length⟩

/-- The bytes of a frame. -/
def Frame.bytes (f : Frame) : List UInt8 := f.header ++ f.content

/-- The bytes of some frames. -/
def stream (frames : List Frame) : List UInt8 := frames.flatMap Frame.bytes

@[simp] theorem stream_nil : stream [] = [] := rfl

@[simp] theorem stream_append (frames frames' : List Frame) :
    stream (frames ++ frames') = stream frames ++ stream frames' := List.flatMap_append

@[simp] theorem stream_cons (f : Frame) (frames : List Frame) :
    stream (f :: frames) = f.header ++ f.content ++ stream frames := List.flatMap_cons

/-- What is left of the frame whose header was read last. -/
def remaining (frames : List Frame) (s : RxState Link) : Nat :=
  (stream (frames.take s.parsers.headers)).length - s.taken.length

variable (node : Node)

/-- The parsers are still in the frame, and have not stopped. -/
def GoesOn (link : Link) : Prop :=
  link.mtcpParser.dataSubparser = true ∧ curStatus link = .good

/-- The parsers behind a bulk read. -/
def afterBulk (link : Link) (bytes : List UInt8) : Link :=
  (ml2capForward node (curFillBulk link bytes) none).1

/-- The conditions on a pass of the receive task. -/
structure Regular (frames : List Frame) (s : RxState Link) : Prop where
  /-- no bulk read is longer than what is left of the frame -/
  bulkRead : s.pc = .loop → curBulkRead s.parsers = true →
    curNextBytes s.parsers ≤ remaining frames s
  /-- a frame with a bulk read is not parsed together with bytes behind it -/
  counted : ∀ pos, s.pc = .parsing pos → s.parsers.mtcpParser.dataSubparser = true →
    s.parsers.mtcpParser.nextBytes = remaining frames s ∨ s.fin - pos ≤ remaining frames s
  /-- the bundle goes on to the end of the frame -/
  goesOn : ∀ pos, s.pc = .parsing pos → pos < s.fin → s.parsers.mtcpParser.dataSubparser = true →
    (ml2capForward node s.parsers (some (s.from pos))).2 < remaining frames s →
    GoesOn (ml2capForward node s.parsers (some (s.from pos))).1
  /-- also behind a bulk read from the input buffer -/
  goesOnBuffered : s.pc = .loop → curBulkRead s.parsers = true → curNextBytes s.parsers ≤ s.fin →
    curNextBytes s.parsers < remaining frames s →
    GoesOn (afterBulk node s.parsers (s.start.take (curNextBytes s.parsers)))
  /-- also behind a bulk read from the link -/
  goesOnRead : ∀ filled, s.pc = .reading filled 0 → 0 < remaining frames s →
    GoesOn (afterBulk node s.parsers filled)
  /-- the buffer is not discarded -/
  room : s.pc = .returned 0 → s.fin ≠ rxBufferSize

/-- A link before its first frame. -/
def freshLink (link : Link) : Link := ml2capResetParsers node { link with headers := 0 }

/-- The parsers stand in the frames, with some bytes left of the current one. -/
inductive At (frames : List Frame) (link : Link) : List UInt8 → Nat → Prop
  | header {before after : List Frame} : link.mtcpParser.dataSubparser = false →
      link.curParser = .mtcp → frames = before ++ after → link.headers = before.length →
      At frames link (stream before) 0
  | content {before after : List Frame} {f : Frame} {consumed rest : List UInt8} :
      link.mtcpParser.dataSubparser = true → frames = before ++ f :: after →
      link.headers = before.length + 1 → f.content = consumed ++ rest →
      rest.length ≤ link.mtcpParser.nextBytes →
      At frames link (stream before ++ f.header ++ consumed) rest.length

variable {node} {frames : List Frame} {link : Link} {taken : List UInt8} {left : Nat}
  {s : RxState Link}

theorem At.remaining_eq (h : At frames s.parsers s.taken left) : remaining frames s = left := by
  unfold remaining
  generalize s.taken = taken at h
  cases h with
  | header hmode _ hframes hcount =>
      rw [hframes, hcount, List.take_left, Nat.sub_self]
  | @content before after f consumed rest hmode hframes hcount hcontent _ =>
      have htake : frames.take s.parsers.headers = before ++ [f] := by
        rw [hframes, hcount, ← List.singleton_append, ← List.append_assoc]
        exact List.take_left' (by simp)
      rw [htake, stream_append, stream_cons, hcontent]
      simp only [stream_nil, List.length_append, List.length_nil]
      omega

/-- The parsers are reset behind a frame. -/
theorem At.reset (h : At frames link taken 0) {link' : Link}
    (hmode : link'.mtcpParser.dataSubparser = false) (hcur : link'.curParser = .mtcp)
    (hcount : link'.headers = link.headers) : At frames link' taken 0 := by
  generalize hleft : 0 = left at h
  cases h with
  | header _ _ hframes hheaders =>
      exact .header hmode hcur hframes (hcount.trans hheaders)
  | @content before after f consumed rest _ hframes hheaders hcontent _ =>
      have hrest : rest = [] := List.eq_nil_of_length_eq_zero hleft.symm
      rw [hrest, List.append_nil] at hcontent
      have htaken : stream before ++ f.header ++ consumed = stream (before ++ [f]) := by
        rw [stream_append, stream_cons, hcontent, stream_nil, List.append_nil, List.append_assoc]
      rw [htaken, hrest]
      have hframes' : frames = (before ++ [f]) ++ after := by
        rw [hframes, List.append_assoc, List.singleton_append]
      refine .header hmode hcur hframes' ?_
      rw [hcount, hheaders, List.length_append, List.length_singleton]

/-! ## What a call of the parsers does -/

variable (node)

theorem bundle6Read_link (link : Link) (buffer : Option (List UInt8)) :
    (bundle6Read node link buffer).1.mtcpParser = link.mtcpParser ∧
      (bundle6Read node link buffer).1.headers = link.headers := by
  cases buffer <;> exact ⟨rfl, rfl⟩

theorem bundle7Read_link (link : Link) (buffer : Option (List UInt8)) :
    (bundle7Read node link buffer).1.mtcpParser = link.mtcpParser ∧
      (bundle7Read node link buffer).1.headers = link.headers := by
  cases buffer <;> exact ⟨rfl, rfl⟩

theorem select_link (link : Link) (buffer : Option (List UInt8)) :
    (selectBundleParserVersion node link buffer).1.mtcpParser = link.mtcpParser ∧
      (selectBundleParserVersion node link buffer).1.headers = link.headers := by
  unfold selectBundleParserVersion
  split
  · exact ⟨rfl, rfl⟩
  · split
    · exact bundle6Read_link node _ buffer
    · split
      · exact bundle7Read_link node _ buffer
      · exact ⟨rfl, rfl⟩

/-- The parser of the frame is left as it is, or reset. -/
theorem forwardPayload_link (link : Link) (buffer : Option (List UInt8)) :
    ((forwardPayload node link buffer).1.mtcpParser = link.mtcpParser ∨
        (forwardPayload node link buffer).1.mtcpParser = mtcpParserReset) ∧
      (forwardPayload node link buffer).1.headers = link.headers := by
  unfold forwardPayload
  split
  · have hselect := select_link node link buffer
    dsimp only
    split
    · exact ⟨.inr rfl, hselect.2⟩
    · exact ⟨.inl hselect.1, hselect.2⟩
  · have hread := bundle6Read_link node { link with curParser := .bundle6 } buffer
    exact ⟨.inl hread.1, hread.2⟩
  · have hread := bundle7Read_link node { link with curParser := .bundle7 } buffer
    exact ⟨.inl hread.1, hread.2⟩

/-- **A call within a frame** counts what it consumed, or resets the parsers. -/
theorem forward_content {link : Link} (hmode : link.mtcpParser.dataSubparser = true)
    (buffer : Option (List UInt8)) {link' : Link} {result : Nat}
    (h : ml2capForward node link buffer = (link', result)) :
    link'.headers = link.headers ∧
      (link'.mtcpParser.dataSubparser = true ∧
          link'.mtcpParser.nextBytes = link.mtcpParser.nextBytes - result ∨
        link'.mtcpParser.dataSubparser = false ∧ link'.curParser = .mtcp) := by
  have hpayload := forwardPayload_link node link (buffer.map (·.take link.mtcpParser.nextBytes))
  rw [ml2capForward, if_pos hmode] at h
  generalize
    forwardPayload node link (buffer.map (·.take link.mtcpParser.nextBytes)) = r at h hpayload
  obtain ⟨read, parsed⟩ := r
  obtain ⟨rfl, rfl⟩ := Prod.mk.inj h
  unfold countParsed
  dsimp only
  split
  · exact ⟨hpayload.2, .inr ⟨rfl, rfl⟩⟩
  · next hleft =>
    refine ⟨hpayload.2, .inl ?_⟩
    obtain hsame | hreset := hpayload.1
    · dsimp only at hsame ⊢
      rw [hsame]
      exact ⟨hmode, rfl⟩
    · dsimp only at hreset
      rw [hreset] at hleft
      exact absurd (Nat.zero_sub _) hleft

/-- Less than a header is not enough. -/
theorem readHead_take {header : List UInt8} {h : Cbor.Head} (hhead : readHead header = .head h)
    (hsize : h.size = header.length) {k : Nat} (hk : k < header.length) :
    readHead (header.take k) = .short := by
  by_contra hlong
  have happend := readHead_append hlong (header.drop k)
  rw [List.take_append_drop, hhead] at happend
  have hle := (readHead_size happend.symm).2
  rw [List.length_take] at hle
  omega

/-- A part of a header is left in the buffer. -/
theorem parse_partOfHeader (p : FrameParser) (f : Frame) {k : Nat} (hk : k < f.header.length) :
    mtcpParserParse node.tinyCbor p (f.header.take k) = (p, 0) := by
  have hshort := readHead_take f.head rfl hk
  rw [node.documented.eq_reference]
  unfold mtcpParserParse
  simp [Bundle7.reference, Bundle7.preparseValue, hshort]

/-- **A header** gives the length of the frame. -/
theorem parse_header (p : FrameParser) (f : Frame) (r : List UInt8) :
    mtcpParserParse node.tinyCbor p (f.header ++ r) =
      (⟨true, f.content.length⟩, f.header.length) := by
  have hhead : readHead (f.header ++ r) =
      .head ⟨.bytes, some f.content.length, f.header.length⟩ := by
    rw [readHead_append (by rw [f.head]; simp), f.head]
  rw [node.documented.eq_reference]
  unfold mtcpParserParse
  simp [Bundle7.reference, Bundle7.preparseValue, hhead, Bundle7.CborValue.isByteString,
    Bundle7.knownLength, Bundle7.headOf, Bundle7.preparseNext]

/-! ## Passes -/

variable {node}

theorem At.left_le (h : At frames link taken left) (hmode : link.mtcpParser.dataSubparser = true) :
    left ≤ link.mtcpParser.nextBytes := by
  cases h with
  | header hheader =>
      rw [hheader] at hmode
      cases hmode
  | content _ _ _ _ hle => exact hle

/-- **Some bytes of a frame** are taken, and the parsers go on, or are reset at its end. -/
theorem At.advance (h : At frames link taken left) (hmode : link.mtcpParser.dataSubparser = true)
    {bytes more : List UInt8} (hstream : taken ++ (bytes ++ more) = stream frames)
    (hle : bytes.length ≤ left) (link' : Link) (hcount : link'.headers = link.headers)
    (hnext : link'.mtcpParser.dataSubparser = true ∧
        left - bytes.length ≤ link'.mtcpParser.nextBytes ∨
      link'.mtcpParser.dataSubparser = false ∧ link'.curParser = .mtcp ∧ left - bytes.length = 0) :
    At frames link' (taken ++ bytes) (left - bytes.length) := by
  have hgoes {link' : Link} (hcount : link'.headers = link.headers)
      (hmode' : link'.mtcpParser.dataSubparser = true)
      (hleft : left - bytes.length ≤ link'.mtcpParser.nextBytes) :
      At frames link' (taken ++ bytes) (left - bytes.length) := by
    cases h with
    | header hheader =>
        rw [hheader] at hmode
        cases hmode
    | @content before after f consumed rest _ hframes hheaders hcontent _ =>
        -- the bytes are the next ones of the frame
        have hbytes : bytes ++ more = rest ++ stream after := by
          rw [hframes, stream_append, stream_cons, hcontent] at hstream
          simp only [List.append_assoc] at hstream
          exact List.append_cancel_left (List.append_cancel_left (List.append_cancel_left hstream))
        have htake : rest = bytes ++ rest.drop bytes.length := by
          have hfirst := congrArg (List.take bytes.length) hbytes
          rw [List.take_left, List.take_append_of_le_length hle] at hfirst
          exact (List.take_append_drop bytes.length rest).symm.trans (by rw [← hfirst])
        have hlength : rest.length - bytes.length = (rest.drop bytes.length).length := by
          rw [List.length_drop]
        rw [hlength, List.append_assoc]
        refine .content hmode' hframes (hcount.trans hheaders) ?_ (hlength ▸ hleft)
        rw [hcontent, List.append_assoc, ← htake]
  obtain ⟨hmode', hleft⟩ | ⟨hmode', hcur, hzero⟩ := hnext
  · exact hgoes hcount hmode' hleft
  · have hat := @hgoes link rfl hmode (by rw [hzero]; exact Nat.zero_le _)
    rw [hzero] at hat ⊢
    exact hat.reset hmode' hcur hcount

/-- What holds in every state of a run. -/
structure InFrames (frames : List Frame) (s : RxState Link) : Prop where
  conserved : Conserved (stream frames) s
  full : s.full = false
  position : At frames s.parsers s.taken (remaining frames s)
  reading : ∀ filled toRead, s.pc = .reading filled toRead →
    s.parsers.mtcpParser.dataSubparser = true ∧ toRead ≤ remaining frames s

theorem InFrames.of_at (hconserved : Conserved (stream frames) s) (hfull : s.full = false)
    (hat : At frames s.parsers s.taken left)
    (hreading : ∀ filled toRead, s.pc = .reading filled toRead →
      s.parsers.mtcpParser.dataSubparser = true ∧ toRead ≤ left) : InFrames frames s := by
  refine ⟨hconserved, hfull, ?_, fun filled toRead hpc => ?_⟩
  · rw [hat.remaining_eq]
    exact hat
  · rw [hat.remaining_eq]
    exact hreading filled toRead hpc

/-- A call within a frame. -/
theorem forward_content_at (h : At frames link taken left)
    (hmode : link.mtcpParser.dataSubparser = true) {buffer more : List UInt8}
    (hstream : taken ++ (buffer ++ more) = stream frames) {link' : Link} {parsed : Nat}
    (hforward : ml2capForward node link (some buffer) = (link', parsed)) (hle : parsed ≤ left)
    (hgoesOn : parsed < left → GoesOn link') :
    At frames link' (taken ++ buffer.take parsed) (left - parsed) ∧
      (curStatus link' ≠ .good → left - parsed = 0) := by
  have hparsed : parsed ≤ buffer.length := by
    have hle := ml2capForward_le node link (some buffer)
    rw [hforward] at hle
    exact hle
  obtain ⟨hcount, hnext⟩ := forward_content node hmode (some buffer) hforward
  have hleft := h.left_le hmode
  have hlength : (buffer.take parsed).length = parsed := List.length_take_of_le hparsed
  have hsplit : taken ++ (buffer.take parsed ++ (buffer.drop parsed ++ more)) = stream frames := by
    rw [← List.append_assoc (buffer.take parsed), List.take_append_drop, hstream]
  have hadvance := h.advance hmode hsplit (by rw [hlength]; exact hle) link' hcount
  rw [hlength] at hadvance
  refine ⟨hadvance ?_, fun hstop => ?_⟩
  · obtain ⟨hmode', hcounter⟩ | ⟨hmode', hcur⟩ := hnext
    · exact .inl ⟨hmode', by omega⟩
    · refine .inr ⟨hmode', hcur, ?_⟩
      by_contra hne
      have hgoes := (hgoesOn (by omega)).1
      rw [hmode'] at hgoes
      cases hgoes
  · by_contra hne
    exact hstop (hgoesOn (by omega)).2

/-- **A call before a frame** reads its header, if the buffer holds it. -/
theorem forward_header_at (h : At frames link taken left)
    (hmode : link.mtcpParser.dataSubparser = false) {buffer more : List UInt8} (hne : buffer ≠ [])
    (hstream : taken ++ (buffer ++ more) = stream frames) {link' : Link} {parsed : Nat}
    (hforward : ml2capForward node link (some buffer) = (link', parsed)) :
    ∃ left', At frames link' (taken ++ buffer.take parsed) left' ∧ link'.curParser = .mtcp := by
  cases h with
  | content hcontent =>
      rw [hcontent] at hmode
      cases hmode
  | @header before after _ hcur hframes hcount =>
      have hbuffer : buffer ++ more = stream after := by
        rw [hframes, stream_append] at hstream
        exact List.append_cancel_left hstream
      cases after with
      | nil => exact absurd (List.append_eq_nil_iff.mp hbuffer).1 hne
      | cons f after =>
          rw [stream_cons, List.append_assoc] at hbuffer
          rw [ml2capForward, if_neg (by rw [hmode]; decide)] at hforward
          by_cases hshort : buffer.length < f.header.length
          · -- the header is not complete
            have hpart : buffer = f.header.take buffer.length := by
              have hfirst := congrArg (List.take buffer.length) hbuffer
              rwa [List.take_left, List.take_append_of_le_length (Nat.le_of_lt hshort)] at hfirst
            have hparse := parse_partOfHeader node link.mtcpParser f hshort
            rw [← hpart] at hparse
            rw [Option.getD_some, hparse] at hforward
            obtain ⟨rfl, rfl⟩ := Prod.mk.inj hforward
            rw [List.take_zero, List.append_nil]
            refine ⟨0, .header hmode hcur hframes ?_, hcur⟩
            dsimp only
            rw [hmode]
            exact hcount
          · obtain ⟨r, rfl⟩ : ∃ r, buffer = f.header ++ r := by
              refine ⟨buffer.drop f.header.length, ?_⟩
              have hfirst := congrArg (List.take f.header.length) hbuffer
              rw [List.take_left, List.take_append_of_le_length (by omega)] at hfirst
              exact (List.take_append_drop f.header.length buffer).symm.trans (by rw [hfirst])
            rw [Option.getD_some, parse_header node link.mtcpParser f r] at hforward
            obtain ⟨rfl, rfl⟩ := Prod.mk.inj hforward
            rw [List.take_left]
            have hat : At frames { link with
                mtcpParser := ⟨true, f.content.length⟩
                headers := link.headers + 1 } (stream before ++ f.header ++ []) f.content.length :=
              .content rfl hframes (by dsimp only; rw [hcount]) rfl (Nat.le_refl _)
            rw [List.append_nil] at hat
            exact ⟨_, hat, hcur⟩

/-- A pass of the parsing loop. -/
theorem InFrames.chunkPass (h : InFrames frames s) (hregular : Regular node frames s) {pos : Nat}
    (hpc : s.pc = .parsing pos) : InFrames frames (chunkPass (ml2capParsers node) s pos) := by
  have hconserved := h.conserved.chunkPass (L := ml2capParsers node) hpc
  unfold ClaRx.chunkPass at hconserved ⊢
  by_cases hpos : pos < s.fin
  · rw [if_pos hpos] at hconserved ⊢
    have hstream := h.conserved.bytes h.full
    simp only [RxState.unparsed, hpc, List.append_assoc] at hstream
    have hmemory := h.conserved.memory
    have hbound := h.conserved.bound
    have hlength : (s.from pos).length = s.fin - pos := by
      rw [RxState.from, List.length_drop, List.length_take_of_le (by omega)]
    have hne : s.from pos ≠ [] := List.ne_nil_of_length_pos (by omega)
    generalize hforward : ml2capForward node s.parsers (some (s.from pos)) = r
    obtain ⟨link', parsed⟩ := r
    have hforward' : (ml2capParsers node).forward s.parsers (s.from pos) = (link', parsed) :=
      hforward
    rw [hforward'] at hconserved ⊢
    have hreset : (ml2capResetParsers node link').mtcpParser.dataSubparser = false := rfl
    -- where the call leaves the parsers, and that they stop only at the end of a frame
    obtain ⟨left', hat, hstop⟩ : ∃ left',
        At frames link' (s.taken ++ (s.from pos).take parsed) left' ∧
        (curStatus link' ≠ .good → left' = 0) := by
      cases hmode : s.parsers.mtcpParser.dataSubparser with
      | false =>
          obtain ⟨left', hat, hcur⟩ := forward_header_at h.position hmode hne hstream hforward
          refine ⟨left', hat, fun hstop => absurd ?_ hstop⟩
          rw [curStatus, hcur]
      | true =>
          have hgoesOn := hregular.goesOn pos hpc hpos hmode
          rw [hforward] at hgoesOn
          have hle : parsed ≤ remaining frames s := by
            have hcounter := forward_le_nextBytes node hmode (some (s.from pos))
            have hbuffer := ml2capForward_le node s.parsers (some (s.from pos))
            rw [hforward] at hcounter hbuffer
            rw [Option.getD_some, hlength] at hbuffer
            obtain heq | hfew := hregular.counted pos hpc hmode
            · rw [← heq]
              exact hcounter
            · exact Nat.le_trans hbuffer hfew
          exact ⟨_, forward_content_at h.position hmode hstream hforward hle hgoesOn⟩
    dsimp only at hconserved ⊢
    split at hconserved
    · next hstatus =>
      rw [if_pos hstatus]
      rw [hstop hstatus] at hat
      exact .of_at hconserved h.full (hat.reset hreset rfl rfl) (by intro _ _ h; cases h)
    · next hstatus =>
      rw [if_neg hstatus]
      split at hconserved
      · next hbulk =>
        rw [if_pos hbulk]
        exact .of_at hconserved h.full hat (by intro _ _ h; cases h)
      · next hbulk =>
        rw [if_neg hbulk]
        split at hconserved
        · next hzero =>
          rw [if_pos hzero]
          exact .of_at hconserved h.full hat (by intro _ _ h; cases h)
        · next hzero =>
          rw [if_neg hzero]
          exact .of_at hconserved h.full hat (by intro _ _ h; cases h)
  · rw [if_neg hpos] at hconserved ⊢
    exact .of_at hconserved h.full h.position (by intro _ _ h; cases h)

theorem curFillBulk_link (link : Link) (bytes : List UInt8) :
    (curFillBulk link bytes).mtcpParser = link.mtcpParser ∧
      (curFillBulk link bytes).headers = link.headers := by
  unfold curFillBulk
  split <;> exact ⟨rfl, rfl⟩

/-- The end of a bulk read. -/
theorem bulkDone_at (h : At frames link taken left) (hmode : link.mtcpParser.dataSubparser = true)
    (bytes : List UInt8) {more : List UInt8} (hstream : taken ++ more = stream frames)
    (hgoesOn : 0 < left → GoesOn (afterBulk node link bytes)) :
    At frames (bulkDone (ml2capParsers node) link bytes) taken left := by
  obtain ⟨hmtcp, hheaders⟩ := curFillBulk_link link bytes
  have hmode' : (curFillBulk link bytes).mtcpParser.dataSubparser = true := by
    rw [hmtcp]
    exact hmode
  generalize hforward : ml2capForward node (curFillBulk link bytes) none = r
  obtain ⟨link', result⟩ := r
  have hzero : result = 0 := by
    have hle := ml2capForward_le node (curFillBulk link bytes) none
    rw [hforward] at hle
    exact Nat.le_zero.mp hle
  subst hzero
  have hafter : afterBulk node link bytes = link' := by
    rw [afterBulk, hforward]
  rw [hafter] at hgoesOn
  obtain ⟨hcount, hnext⟩ := forward_content node hmode' none hforward
  rw [hheaders] at hcount
  rw [hmtcp] at hnext
  have hleft := h.left_le hmode
  have hat : At frames link' taken left := by
    have hsame : taken ++ ([] ++ more) = stream frames := hstream
    have hadvance := h.advance hmode hsame (Nat.zero_le _) link' hcount
    rw [List.append_nil, List.length_nil, Nat.sub_zero] at hadvance
    apply hadvance
    obtain ⟨hgoes, hcounter⟩ | ⟨hheader, hcur⟩ := hnext
    · exact .inl ⟨hgoes, by omega⟩
    · refine .inr ⟨hheader, hcur, ?_⟩
      by_contra hne
      have hgoes := (hgoesOn (by omega)).1
      rw [hheader] at hgoes
      cases hgoes
  have hdone : bulkDone (ml2capParsers node) link bytes =
      if curStatus link' = .good then link' else ml2capResetParsers node link' := by
    rw [← hafter]
    rfl
  rw [hdone]
  split
  · exact hat
  · next hstatus =>
    have hend : left = 0 := by
      by_contra hne
      exact hstatus (hgoesOn (by omega)).2
    rw [hend] at hat ⊢
    exact hat.reset rfl rfl rfl

/-- A bulk read begins. -/
theorem InFrames.bulkStart (h : InFrames frames s) (hregular : Regular node frames s)
    (hpc : s.pc = .loop) (hbulk : curBulkRead s.parsers = true) :
    InFrames frames (bulkStart (ml2capParsers node) s) := by
  have hconserved := h.conserved.bulkStart (L := ml2capParsers node) hpc
  have hstream := h.conserved.bytes h.full
  have hmemory := h.conserved.memory
  have hbound := h.conserved.bound
  have hfits := hregular.bulkRead hpc hbulk
  -- before a frame there is no bulk read
  have hmode : s.parsers.mtcpParser.dataSubparser = true := by
    cases hmode : s.parsers.mtcpParser.dataSubparser with
    | true => rfl
    | false =>
        have hposition := h.position
        generalize remaining frames s = left at hposition
        generalize s.taken = taken at hposition
        cases hposition with
        | content hcontent =>
            rw [hcontent] at hmode
            cases hmode
        | header _ hcur =>
            rw [curBulkRead, hcur] at hbulk
            cases hbulk
  simp only [RxState.unparsed, hpc] at hstream
  rw [RxState.from, List.drop_zero, List.append_assoc] at hstream
  have hnext : (ml2capParsers node).nextBytes s.parsers = curNextBytes s.parsers := rfl
  unfold ClaRx.bulkStart at hconserved ⊢
  rw [hnext] at hconserved ⊢
  dsimp only at hconserved ⊢
  by_cases hbuffered : curNextBytes s.parsers ≤ s.fin
  · rw [if_pos hbuffered] at hconserved ⊢
    have hlength : (s.start.take (curNextBytes s.parsers)).length = curNextBytes s.parsers :=
      List.length_take_of_le (by omega)
    have hsplit : s.start.take s.fin = s.start.take (curNextBytes s.parsers) ++
        (s.start.take s.fin).drop (curNextBytes s.parsers) := by
      have htake := List.take_append_drop (curNextBytes s.parsers) (s.start.take s.fin)
      rw [List.take_take, Nat.min_eq_left hbuffered] at htake
      exact htake.symm
    rw [hsplit, List.append_assoc] at hstream
    have hat := h.position.advance hmode hstream (by rw [hlength]; exact hfits) s.parsers rfl
      (.inl ⟨hmode, Nat.le_trans (Nat.sub_le _ _) (h.position.left_le hmode)⟩)
    rw [hlength] at hat
    rw [← List.append_assoc] at hstream
    have hdone := bulkDone_at hat hmode (s.start.take (curNextBytes s.parsers)) hstream
      (fun hleft => hregular.goesOnBuffered hpc hbulk hbuffered (by omega))
    exact .of_at hconserved h.full hdone (by intro _ _ h; cases h)
  · rw [if_neg hbuffered] at hconserved ⊢
    have hlength : (s.start.take s.fin).length = s.fin := List.length_take_of_le (by omega)
    have hat := h.position.advance hmode hstream (by rw [hlength]; omega) s.parsers rfl
      (.inl ⟨hmode, Nat.le_trans (Nat.sub_le _ _) (h.position.left_le hmode)⟩)
    rw [hlength] at hat
    refine .of_at hconserved h.full hat ?_
    rintro filled toRead hreading
    obtain ⟨rfl, rfl⟩ := Pc.reading.inj hreading
    exact ⟨hmode, by omega⟩

/-- A pass of a bulk read. -/
theorem InFrames.bulkPass (h : InFrames frames s) (hregular : Regular node frames s)
    {filled : List UInt8} {toRead : Nat} (hpc : s.pc = .reading filled toRead) (count : Nat) :
    InFrames frames (bulkPass (ml2capParsers node) s filled toRead (some count)) := by
  have hconserved : Conserved (stream frames)
      (ClaRx.bulkPass (ml2capParsers node) s filled toRead (some count)) := h.conserved.bulkPass hpc
  have hstream := h.conserved.bytes h.full
  obtain ⟨hmode, hfits⟩ := h.reading filled toRead hpc
  simp only [RxState.unparsed, hpc, List.append_nil] at hstream
  unfold ClaRx.bulkPass at hconserved ⊢
  by_cases hzero : toRead = 0
  · subst hzero
    rw [if_pos rfl] at hconserved ⊢
    have hdone := bulkDone_at h.position hmode filled hstream
      (hregular.goesOnRead filled hpc)
    exact .of_at hconserved h.full hdone (by intro _ _ h; cases h)
  · rw [if_neg hzero] at hconserved ⊢
    have hread := claRead_append s.link count toRead
    have hlength := length_claRead_le s.link count toRead
    rw [← hread] at hstream
    have hat := h.position.advance hmode hstream (by omega) s.parsers rfl
      (.inl ⟨hmode, Nat.le_trans (Nat.sub_le _ _) (h.position.left_le hmode)⟩)
    refine .of_at hconserved h.full hat ?_
    rintro filled' toRead' hreading
    obtain ⟨rfl, rfl⟩ := Pc.reading.inj hreading
    exact ⟨hmode, by omega⟩

/-- **A regular pass** keeps the parsers in the frames. -/
theorem InFrames.step (h : InFrames frames s) (hregular : Regular node frames s) (count : Nat) :
    InFrames frames (step (ml2capParsers node) s (some count)) := by
  unfold ClaRx.step
  cases hpc : s.pc with
  | loop =>
      dsimp only
      split
      · next hbulk => exact h.bulkStart hregular hpc hbulk
      · exact .of_at (h.conserved.chunkStart hpc count) h.full h.position (fun _ _ h => nomatch h)
  | parsing pos => exact h.chunkPass hregular hpc
  | reading filled toRead => exact h.bulkPass hregular hpc count
  | returned parsed =>
      have hconserved := h.conserved.shiftBuffer (L := ml2capParsers node) hpc
      dsimp only
      unfold shiftBuffer at hconserved ⊢
      by_cases hall : parsed = s.fin
      · rw [if_pos hall] at hconserved ⊢
        exact .of_at hconserved h.full h.position (fun _ _ h => nomatch h)
      · rw [if_neg hall] at hconserved ⊢
        by_cases hsome : parsed ≠ 0
        · rw [if_pos hsome] at hconserved ⊢
          exact .of_at hconserved h.full h.position (fun _ _ h => nomatch h)
        · rw [if_neg hsome] at hconserved ⊢
          rw [not_not.mp hsome] at hpc
          rw [if_neg (hregular.room hpc)] at hconserved ⊢
          exact .of_at hconserved h.full h.position (fun _ _ h => nomatch h)

/-- A node with TinyCBOR as it is documented. -/
def smallNode : Node where
  tinyCbor := Bundle7.reference
  documented := Bundle7.reference_documented
  limits := ⟨4096, 256⟩
  usage := fun _ => 0

/-- The memory of a link. -/
def unusedLink : Link where
  mtcpParser := mtcpParserReset
  payloadType := .unknown
  curParser := .mtcp
  bundle6Parser := Bundle6.unusedParser
  bundle7Parser := Bundle7.bundle7ParserInit
  headers := 0

end Ml2cap
