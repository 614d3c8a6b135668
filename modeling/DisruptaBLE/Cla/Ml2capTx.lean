import DisruptaBLE.Cla.MtcpProto

/-!
# Sending on L2CAP links

`components/cla/zephyr/cla_ml2cap.c`: `chan_flush`, `chan_queue_and_flush`,
`l2cap_transmit_bytes` and the three functions around it that send a packet.

The bytes of a packet are collected in a buffer, which is given to the channel when it is full and
at the end of the packet.  A pass of the loop of `l2cap_transmit_bytes` gets as its argument what
the other tasks and the stack do during it (`Moment`): the link may begin to shut down at any time,
the request for a buffer may fail, and the channel may refuse a buffer.  `sends` records the buffers
that were given to the channel, and whether it accepted them.

A refused buffer is dropped, and only the call that runs into the refusal ends.  When other bytes of
the packet follow, they are sent without those of the buffer (`hole_after_refusal`).  As long as
nothing follows on a refused buffer, there are no holes (`no_holes`).
-/

namespace Ml2capTx

open Bundle7 Mtcp

/-- What happens during a pass. -/
structure Moment where
  /-- `shutting_down` is set before the loop reads it -/
  shutDown : Bool
  /-- `shutting_down` is set before `chan_flush` reads it -/
  shutDownLater : Bool
  /-- `net_buf_alloc_len` returns a buffer -/
  alloc : Bool
  /-- `bt_l2cap_chan_send` does not return an error -/
  accept : Bool
  deriving DecidableEq, Repr

/-- `struct ml2cap_link`. -/
structure Link where
  /-- the room in a new buffer -/
  mtu : Nat
  /-- `tx_buf`, with the bytes in it -/
  txBuf : Option (List UInt8)
  shuttingDown : Bool
  /-- the buffers that were given to the channel, and whether it accepted them -/
  sends : List (List UInt8 × Bool)
  deriving DecidableEq, Repr

/-- Another task may set `shutting_down`, and none takes it back. -/
def Link.observe (link : Link) (down : Bool) : Link :=
  { link with shuttingDown := link.shuttingDown || down }

/-- `chan_flush`: whether it returns 0. -/
def chanFlush (link : Link) (m : Moment) : Bool × Link :=
  match link.txBuf with
  | none => (true, link)
  | some buf =>
      let link := { link with txBuf := none }.observe m.shutDownLater
      if link.shuttingDown then (true, link)
      else (m.accept, { link with sends := link.sends ++ [(buf, m.accept)] })

/-- The part of `chan_queue_and_flush` in which there is a buffer: the number of bytes that were
queued, unless the flush fails. -/
def queueAndFlush (link : Link) (buf data : List UInt8) (m : Moment) : Option Nat × Link :=
  let fragSize := min data.length (link.mtu - buf.length)
  let buf := buf ++ data.take fragSize
  let link := { link with txBuf := some buf }
  if link.mtu ≤ buf.length then
    match chanFlush link m with
    | (true, link) => (some fragSize, link)
    | (false, link) => (none, link)
  else (some fragSize, link)

/-- `chan_queue_and_flush`. -/
def chanQueueAndFlush (link : Link) (data : List UInt8) (m : Moment) : Option Nat × Link :=
  match link.txBuf with
  | some buf => queueAndFlush link buf data m
  | none => if m.alloc then queueAndFlush link [] data m else (some 0, link)

/-- A packet that is being sent. -/
structure Packet where
  link : Link
  /-- what the call of `l2cap_transmit_bytes` that is running has not queued yet -/
  data : List UInt8
  /-- the data of the calls that follow -/
  calls : List (List UInt8)
  /-- `ml2cap_end_packet` has returned -/
  ended : Bool
  deriving DecidableEq, Repr

variable (T : TinyCbor)

/-- `ml2cap_begin_packet` begins to send the header; `ml2cap_send_packet_data` will be called with
`calls`. -/
def ml2capBeginPacket (link : Link) (length : UInt64) (calls : List (List UInt8)) : Packet where
  link := link
  data := mtcpEncodeHeader T length
  calls := calls
  ended := false

/-- A pass of the loop of `l2cap_transmit_bytes`, or its end with the next call or
`ml2cap_end_packet`. -/
def step (s : Packet) (m : Moment) : Packet :=
  if s.ended then s
  else
    let link := s.link.observe m.shutDown
    if link.shuttingDown ∨ s.data = [] then
      match s.calls with
      | data :: calls => { s with link, data, calls }
      | [] => { s with link := (chanFlush link m).2, data := [], ended := true }
    else
      match chanQueueAndFlush link s.data m with
      | (none, link) => { s with link, data := [] }
      | (some sent, link) => { s with link, data := s.data.drop sent }

/-- Several passes. -/
def run (s : Packet) (ms : List Moment) : Packet := ms.foldl step s

/-! ## Holes -/

/-- The bytes that the channel accepted. -/
def handed (sends : List (List UInt8 × Bool)) : List UInt8 :=
  (sends.filter (·.2)).flatMap (·.1)

/-- What was sent of a packet has no holes: it is the beginning of the packet, and nothing was given
to the channel after it had refused a buffer. -/
structure NoHoles (packet : List UInt8) (sends : List (List UInt8 × Bool)) : Prop where
  beginning : handed sends <+: packet
  stopped : ∀ a b c, sends = a ++ (b, false) :: c → c.flatMap (·.1) = []

/-- The bytes in the buffer. -/
def Link.queued (link : Link) : List UInt8 := link.txBuf.getD []

/-- The pass gives a full buffer to the channel. -/
def Fills (s : Packet) (m : Moment) : Prop :=
  (s.link.shuttingDown || m.shutDown || m.shutDownLater) = false ∧
    (s.link.txBuf.isSome ∨ m.alloc) ∧ s.data ≠ [] ∧
    s.link.mtu ≤ s.link.queued.length + s.data.length

/-- Nothing of the packet follows on the buffer that the pass fills. -/
def IsLast (s : Packet) : Prop :=
  s.link.queued.length + s.data.length = s.link.mtu ∧ s.calls.flatten = []

/-- The channel does not refuse a buffer, unless it is the last one. -/
def Harmless (s : Packet) (m : Moment) : Prop := Fills s m → m.accept = false → IsLast s

/-- The states of the runs in which all passes are harmless. -/
inductive Reaches (s₀ : Packet) : Packet → Prop
  | start : Reaches s₀ s₀
  | step {s : Packet} (h : Reaches s₀ s) {m : Moment} (hm : Harmless s m) : Reaches s₀ (step s m)

/-- What is left of a packet. -/
def Packet.left (s : Packet) : List UInt8 := s.data ++ s.calls.flatten

/-- The invariant: everything that was sent was accepted and the rest is still there, or nothing
will be sent any more. -/
structure Inv (packet : List UInt8) (link : Link) (left : List UInt8) : Prop where
  noHoles : NoHoles packet link.sends
  rest : link.shuttingDown = true ∨ (left = [] ∧ link.txBuf = none) ∨
    (∀ p ∈ link.sends, p.2 = true) ∧ handed link.sends ++ link.queued ++ left = packet

theorem handed_append (a b : List (List UInt8 × Bool)) :
    handed (a ++ b) = handed a ++ handed b := by
  simp [handed]

@[simp] theorem handed_accepted (buf : List UInt8) : handed [(buf, true)] = buf := by
  simp [handed]

@[simp] theorem handed_refused (buf : List UInt8) : handed [(buf, false)] = [] := by
  simp [handed]

variable {packet left : List UInt8} {link : Link} {m : Moment}

/-- As long as all buffers are accepted, nothing follows on a refused one. -/
theorem stopped_of_accepted {sends : List (List UInt8 × Bool)} (h : ∀ p ∈ sends, p.2 = true)
    (last : List UInt8 × Bool) (a : List (List UInt8 × Bool)) (b : List UInt8)
    (c : List (List UInt8 × Bool)) (heq : sends ++ [last] = a ++ (b, false) :: c) :
    c.flatMap (·.1) = [] := by
  rcases List.eq_nil_or_concat c with rfl | ⟨c', x, rfl⟩
  · rfl
  · exfalso
    rw [List.concat_eq_append, ← List.cons_append, ← List.append_assoc] at heq
    have hinit := (List.append_inj' heq rfl).1
    have hmem : (b, false) ∈ sends := by
      rw [hinit]
      simp
    cases h _ hmem

/-- **The channel gets a buffer.**  When it refuses it, nothing of the packet may be left. -/
theorem inv_chanFlush {buf : List UInt8} (haccepted : ∀ p ∈ link.sends, p.2 = true)
    (hbuf : link.txBuf = some buf) (hpacket : handed link.sends ++ buf ++ left = packet)
    (hnoHoles : NoHoles packet link.sends)
    (hleft : link.shuttingDown = false → m.shutDownLater = false → m.accept = false → left = []) :
    Inv packet (chanFlush link m).2 left := by
  unfold chanFlush
  rw [hbuf]
  dsimp only
  split
  · next hdown => exact ⟨hnoHoles, .inl hdown⟩
  · next hdown =>
    have hup : link.shuttingDown = false ∧ m.shutDownLater = false := by
      simpa [Link.observe] using hdown
    cases haccept : m.accept with
    | true =>
        constructor
        · constructor
          · rw [handed_append, handed_accepted, ← hpacket]
            exact List.prefix_append _ _
          · exact stopped_of_accepted haccepted (buf, true)
        · refine .inr (.inr ⟨?_, ?_⟩)
          · intro p hp
            rcases List.mem_append.mp hp with hp | hp
            · exact haccepted p hp
            · obtain rfl := List.mem_singleton.mp hp
              rfl
          · rw [handed_append, handed_accepted]
            simpa [Link.queued, Link.observe] using hpacket
    | false =>
        obtain rfl := hleft hup.1 hup.2 haccept
        constructor
        · constructor
          · rw [handed_append, handed_refused, List.append_nil]
            exact hnoHoles.beginning
          · exact stopped_of_accepted haccepted (buf, false)
        · exact .inr (.inl ⟨rfl, rfl⟩)

/-- The rest of the data of a call, which ends when its result is an error. -/
def restOf (data : List UInt8) : Option Nat → List UInt8
  | none => []
  | some sent => data.drop sent

/-- **Data goes into the buffer.** -/
theorem inv_queueAndFlush {buf data calls : List UInt8} (haccepted : ∀ p ∈ link.sends, p.2 = true)
    (hpacket : handed link.sends ++ buf ++ (data ++ calls) = packet)
    (hnoHoles : NoHoles packet link.sends)
    (hlast : link.shuttingDown = false → m.shutDownLater = false → m.accept = false →
      link.mtu ≤ buf.length + data.length →
      buf.length + data.length = link.mtu ∧ calls = []) :
    Inv packet (queueAndFlush link buf data m).2
      (restOf data (queueAndFlush link buf data m).1 ++ calls) := by
  unfold queueAndFlush
  dsimp only
  set fragSize := min data.length (link.mtu - buf.length) with hfrag
  have htake : (buf ++ data.take fragSize).length = buf.length + fragSize := by
    rw [List.length_append, List.length_take]
    omega
  have hall : handed link.sends ++ (buf ++ data.take fragSize) ++ (data.drop fragSize ++ calls) =
      packet := by
    rw [← hpacket]
    simp only [List.append_assoc]
    rw [← List.append_assoc (data.take fragSize), List.take_append_drop]
  split
  · next hfull =>
    rw [htake] at hfull
    have hflush := @inv_chanFlush packet _
        { link with txBuf := some (buf ++ data.take fragSize) } m _
      haccepted rfl hall hnoHoles
    have hend : link.shuttingDown = false → m.shutDownLater = false → m.accept = false →
        data.drop fragSize ++ calls = [] := by
      intro hup hlater haccept
      obtain ⟨hexact, rfl⟩ := hlast hup hlater haccept (by omega)
      rw [List.append_nil, List.drop_eq_nil_iff]
      omega
    have hinv := hflush hend
    split
    · next link' hres =>
      rw [hres] at hinv
      exact hinv
    · next link' hres =>
      -- the channel has refused the buffer
      rw [hres] at hinv
      have hrefused : link.shuttingDown = false ∧ m.shutDownLater = false ∧ m.accept = false := by
        unfold chanFlush at hres
        dsimp only at hres
        split at hres
        · cases congrArg Prod.fst hres
        · next hdown =>
          have hup : link.shuttingDown = false ∧ m.shutDownLater = false := by
            simpa [Link.observe] using hdown
          exact ⟨hup.1, hup.2, congrArg Prod.fst hres⟩
      obtain ⟨hup, hlater, haccept⟩ := hrefused
      obtain ⟨-, rfl⟩ := hlast hup hlater haccept (by omega)
      rw [hend hup hlater haccept] at hinv
      exact hinv
  · exact ⟨hnoHoles, .inr (.inr ⟨haccepted, hall⟩)⟩

/-- A link that shuts down gives nothing to the channel. -/
theorem inv_chanFlush_of_down (h : Inv packet link left) (hdown : link.shuttingDown = true) :
    Inv packet (chanFlush link m).2 [] := by
  unfold chanFlush
  cases link.txBuf with
  | none => exact ⟨h.noHoles, .inl hdown⟩
  | some buf =>
      have hobserved :
          ({ link with txBuf := none }.observe m.shutDownLater).shuttingDown = true := by
        simp [Link.observe, hdown]
      dsimp only
      rw [if_pos hobserved]
      exact ⟨h.noHoles, .inl hobserved⟩

/-- The invariant of a packet. -/
abbrev Packet.Inv (packet : List UInt8) (s : Packet) : Prop := Ml2capTx.Inv packet s.link s.left

/-- **A pass keeps the invariant.** -/
theorem inv_step {s : Packet} (h : s.Inv packet) (hm : Harmless s m) : (step s m).Inv packet := by
  unfold step
  split
  · exact h
  · dsimp only
    have hobserved : Inv packet (s.link.observe m.shutDown) s.left := by
      refine ⟨h.noHoles, ?_⟩
      rcases h.rest with hdown | hrest
      · exact .inl (by simp [Link.observe, hdown])
      · exact .inr hrest
    split
    · next hdone =>
      cases hcalls : s.calls with
      | cons data calls =>
          refine ⟨h.noHoles, ?_⟩
          rcases hdone with hdown | hdata
          · exact .inl hdown
          · have hleft : s.left = data ++ calls.flatten := by
              simp [Packet.left, hdata, hcalls]
            have hrest := hobserved.rest
            rw [hleft] at hrest
            exact hrest
      | nil =>
          rcases hdone with hdown | hdata
          · have hdone := inv_chanFlush_of_down (m := m) hobserved hdown
            simpa [Packet.Inv, Packet.left, hcalls] using hdone
          · have hleft : s.left = [] := by
              simp [Packet.left, hdata, hcalls]
            rw [hleft] at hobserved
            have hend : Inv packet (chanFlush (s.link.observe m.shutDown) m).2 [] := by
              cases hbuf : (s.link.observe m.shutDown).txBuf with
              | none =>
                  simp only [chanFlush, hbuf]
                  exact hobserved
              | some buf =>
                  rcases hobserved.rest with hdown | ⟨-, hnone⟩ | ⟨haccepted, hpacket⟩
                  · exact inv_chanFlush_of_down hobserved hdown
                  · rw [hbuf] at hnone
                    cases hnone
                  · rw [Link.queued, hbuf] at hpacket
                    exact inv_chanFlush haccepted hbuf hpacket h.noHoles fun _ _ _ => rfl
            simpa [Packet.Inv, Packet.left, hcalls] using hend
    · next hgo =>
      push Not at hgo
      obtain ⟨hup, hdata⟩ := hgo
      have hup' : s.link.shuttingDown = false ∧ m.shutDown = false := by
        simpa [Link.observe] using hup
      have hsame : s.link.observe m.shutDown = s.link := by
        simp [Link.observe, hup'.2]
      rw [hsame]
      rcases h.rest with hdown | ⟨hnothing, -⟩ | ⟨haccepted, hpacket⟩
      · rw [hup'.1] at hdown
        cases hdown
      · exact absurd (List.append_eq_nil_iff.mp hnothing).1 hdata
      · -- the data goes into the buffer at hand, or into a new one
        have hqueue : ∀ buf, s.link.queued = buf → (s.link.txBuf.isSome ∨ m.alloc) →
            Inv packet (queueAndFlush s.link buf s.data m).2
              (restOf s.data (queueAndFlush s.link buf s.data m).1 ++ s.calls.flatten) := by
          rintro buf rfl halloc
          refine inv_queueAndFlush haccepted hpacket h.noHoles ?_
          intro _ hlater haccept hfull
          exact hm ⟨by simp [hup'.1, hup'.2, hlater], halloc, hdata, hfull⟩ haccept
        have hchan : Inv packet (chanQueueAndFlush s.link s.data m).2
            (restOf s.data (chanQueueAndFlush s.link s.data m).1 ++ s.calls.flatten) := by
          unfold chanQueueAndFlush
          cases hbuf : s.link.txBuf with
          | some buf =>
              exact hqueue buf (by simp [Link.queued, hbuf]) (.inl (by simp [hbuf]))
          | none =>
              dsimp only
              split
              · next halloc => exact hqueue [] (by simp [Link.queued, hbuf]) (.inr halloc)
              · exact h
        split
        · next link' hres =>
          rw [hres] at hchan
          exact hchan
        · next sent link' hres =>
          rw [hres] at hchan
          exact hchan

theorem Reaches.inv {s₀ s : Packet} (h : Reaches s₀ s) (h₀ : s₀.Inv packet) : s.Inv packet := by
  induction h with
  | start => exact h₀
  | step _ hm ih => exact inv_step ih hm

/-- When the channel accepts everything, all passes are harmless. -/
theorem Reaches.run {s₀ s : Packet} (h : Reaches s₀ s) {ms : List Moment}
    (hms : ∀ m ∈ ms, m.accept = true) : Reaches s₀ (run s ms) := by
  induction ms generalizing s with
  | nil => exact h
  | cons m ms ih =>
      have hm : Harmless s m := by
        intro _ hrefuse
        rw [hms m List.mem_cons_self] at hrefuse
        cases hrefuse
      exact ih (h.step hm) fun x hx => hms x (List.mem_cons_of_mem m hx)

/-- **No holes on the wire.**  In every run in which the channel refuses a buffer only if nothing of
the packet follows on it, what was sent is the beginning of the frame, and nothing is sent after a
refused buffer. -/
theorem no_holes {mtu : Nat} {length : UInt64} {calls : List (List UInt8)} {s : Packet}
    (h : Reaches (ml2capBeginPacket T ⟨mtu, none, false, []⟩ length calls) s) :
    NoHoles (mtcpEncodeHeader T length ++ calls.flatten) s.link.sends := by
  refine (h.inv ⟨⟨List.nil_prefix, ?_⟩, .inr (.inr ⟨?_, ?_⟩)⟩).noHoles
  · intro a b c heq
    cases a <;> cases heq
  · intro p hp
    cases hp
  · simp [ml2capBeginPacket, Packet.left, handed, Link.queued]

/-- A packet of four bytes in two calls over buffers of four bytes, all accepted. -/
theorem no_holes_twoCalls :
    NoHoles (mtcpEncodeHeader reference 4 ++ [[1, 2], [3, 4]].flatten)
      (run (ml2capBeginPacket reference ⟨4, none, false, []⟩ 4 [[1, 2], [3, 4]])
        (List.replicate 6 ⟨false, false, true, true⟩)).link.sends :=
  no_holes reference (Reaches.start.run (by decide))

/-- **A hole.**  The first of the two buffers is refused, and the second one is sent. -/
theorem hole_after_refusal :
    ¬ NoHoles (mtcpEncodeHeader reference 4 ++ [[1, 2], [3, 4]].flatten)
      (run (ml2capBeginPacket reference ⟨3, none, false, []⟩ 4 [[1, 2], [3, 4]])
        [⟨false, false, true, true⟩, ⟨false, false, true, true⟩, ⟨false, false, true, false⟩,
          ⟨false, false, true, true⟩, ⟨false, false, true, true⟩, ⟨false, false, true, true⟩,
          ⟨false, false, true, true⟩]).link.sends := by
  intro h
  have hbeginning := h.beginning
  revert hbeginning
  decide

end Ml2capTx
