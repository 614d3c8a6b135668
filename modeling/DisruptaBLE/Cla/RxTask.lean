import DisruptaBLE.Lib.Splice

/-!
# The receive task of a link

`components/cla/cla_contact_rx_task.c`: `chunk_read`, `bulk_read` and the loop of
`cla_contact_rx_task` around them.  The parsers of the link are a parameter (`Parsers`), of which
the task only knows what it reads in their `struct parser`.

The program counter `Pc` stands at the heads of the three loops, and behind the call whose result
is the position `parsed`.  `step` is one pass of the loop at which the program counter stands.
Its argument is the result of the call of `cla_read` in that pass, if there is one: the number of
bytes that came in, or an error.

The bytes that left the input buffer, either because a parser has consumed them or because they
were placed in the buffer of a bulk read, are recorded in `taken`.  Nothing is lost between the
link and that record (`byte_conservation`).
-/

namespace ClaRx

open Splice

universe u

variable {P : Type u}

/-- `CLA_RX_BUFFER_SIZE`. -/
def rxBufferSize : Nat := 64

/-- `enum parser_status`. -/
inductive ParserStatus where
  | good
  | done
  | error
  deriving DecidableEq, Repr

/-- The parsers of a link, as the receive task sees them. -/
structure Parsers (P : Type u) where
  /-- `cur_parser->status` -/
  status : P → ParserStatus
  /-- `PARSER_FLAG_BULK_READ` in `cur_parser->flags` -/
  bulkRead : P → Bool
  /-- `cur_parser->next_bytes` -/
  nextBytes : P → Nat
  /-- `cla_rx_task_forward_to_specific_parser`, which returns the number of bytes consumed -/
  forward : P → List UInt8 → P × Nat
  /-- the same with `NULL` -/
  forwardNull : P → P
  /-- the bytes are in `next_buffer`, and the flag is taken away -/
  fillBulk : P → List UInt8 → P
  /-- `cla_rx_task_reset_parsers` -/
  resetParsers : P → P
  forward_le : ∀ p bytes, (forward p bytes).2 ≤ bytes.length

/-- Where the task stands. -/
inductive Pc where
  /-- `while (link->active)` -/
  | loop
  /-- `while (stream < rx_data->input_buffer.end)` of `chunk_read` -/
  | parsing (stream : Nat)
  /-- `while (to_read)` of `bulk_read`, with the bytes that are in the bulk buffer -/
  | reading (filled : List UInt8) (toRead : Nat)
  /-- behind `parsed = ..` -/
  | returned (parsed : Nat)
  deriving DecidableEq, Repr

/-- The task, its input buffer and its link. -/
structure RxState (P : Type u) where
  parsers : P
  /-- `input_buffer.start` -/
  start : List UInt8
  /-- `input_buffer.end - input_buffer.start` -/
  fin : Nat
  pc : Pc
  /-- the bytes of the link that are not read yet -/
  link : List UInt8
  /-- the bytes that were consumed or placed in a bulk buffer -/
  taken : List UInt8
  /-- the input buffer was full, and its content was discarded -/
  full : Bool

/-- The bytes in the input buffer from a position on. -/
def RxState.from (s : RxState P) (pos : Nat) : List UInt8 := (s.start.take s.fin).drop pos

/-- `cla_read` for at most `max` bytes, of which it returns `count`. -/
def claRead (link : List UInt8) (count max : Nat) : List UInt8 × List UInt8 :=
  (link.take (min count max), link.drop (min count max))

variable (L : Parsers P)

/-- The end of `bulk_read`: the parsers are told, and reset when they failed. -/
def bulkDone (p : P) (bytes : List UInt8) : P :=
  let p := L.forwardNull (L.fillBulk p bytes)
  if L.status p = .good then p else L.resetParsers p

/-- The beginning of `bulk_read`. -/
def bulkStart (s : RxState P) : RxState P :=
  let next := L.nextBytes s.parsers
  if next ≤ s.fin then
    let bytes := s.start.take next
    { s with
      parsers := bulkDone L s.parsers bytes
      pc := .returned next
      taken := s.taken ++ bytes }
  else
    let bytes := s.start.take s.fin
    { s with pc := .reading bytes (next - s.fin), taken := s.taken ++ bytes }

/-- A pass of the loop of `bulk_read`. -/
def bulkPass (s : RxState P) (filled : List UInt8) (toRead : Nat) (result : Option Nat) :
    RxState P :=
  if toRead = 0 then
    { s with parsers := bulkDone L s.parsers filled, pc := .returned s.fin }
  else
    match result with
    | none => { s with parsers := L.resetParsers s.parsers, pc := .returned s.fin }
    | some count =>
        let (bytes, link) := claRead s.link count toRead
        { s with
          pc := .reading (filled ++ bytes) (toRead - bytes.length)
          link := link
          taken := s.taken ++ bytes }

/-- The beginning of `chunk_read`. -/
def chunkStart (s : RxState P) (result : Option Nat) : RxState P :=
  match result with
  | none => { s with parsers := L.resetParsers s.parsers, pc := .returned s.fin }
  | some count =>
      let (bytes, link) := claRead s.link count (rxBufferSize - s.fin)
      { s with
        start := splice s.start s.fin bytes
        fin := s.fin + bytes.length
        pc := .parsing 0
        link := link }

/-- A pass of the loop of `chunk_read`. -/
def chunkPass (s : RxState P) (stream : Nat) : RxState P :=
  if stream < s.fin then
    let (p, parsed) := L.forward s.parsers (s.from stream)
    let s := { s with taken := s.taken ++ (s.from stream).take parsed }
    let stream := stream + parsed
    if L.status p ≠ .good then
      { s with parsers := L.resetParsers p, pc := .parsing stream }
    else if L.bulkRead p then { s with parsers := p, pc := .returned stream }
    else if parsed = 0 then { s with parsers := p, pc := .returned stream }
    else { s with parsers := p, pc := .parsing stream }
  else { s with pc := .returned stream }

/-- The rest of a pass of `cla_contact_rx_task`. -/
def shiftBuffer (s : RxState P) (parsed : Nat) : RxState P :=
  if parsed = s.fin then { s with fin := 0, pc := .loop }
  else if parsed ≠ 0 then
    { s with start := splice s.start 0 (s.from parsed), fin := s.fin - parsed, pc := .loop }
  else if s.fin = rxBufferSize then
    { s with parsers := L.resetParsers s.parsers, fin := 0, pc := .loop, full := true }
  else { s with pc := .loop }

/-- One pass of the loop at which the task stands. -/
def step (s : RxState P) (result : Option Nat) : RxState P :=
  match s.pc with
  | .loop => if L.bulkRead s.parsers then bulkStart L s else chunkStart L s result
  | .parsing stream => chunkPass L s stream
  | .reading filled toRead => bulkPass L s filled toRead result
  | .returned parsed => shiftBuffer L s parsed

/-- The task at its start, with any bytes in the memory of the input buffer. -/
def init (p : P) (memory link : List UInt8) : RxState P where
  parsers := p
  start := memory
  fin := 0
  pc := .loop
  link := link
  taken := []
  full := false

/-- The states of the runs in which `cla_read` succeeds. -/
inductive Reachable (p : P) (link : List UInt8) : RxState P → Prop
  | init {memory : List UInt8} (h : memory.length = rxBufferSize) :
      Reachable p link (init p memory link)
  | step {s : RxState P} (h : Reachable p link s) (count : Nat) :
      Reachable p link (step L s (some count))

/-- Several passes, in which `cla_read` returns these numbers of bytes. -/
def run (s : RxState P) (counts : List Nat) : RxState P :=
  counts.foldl (fun s count => step L s (some count)) s

/-! ## Conservation -/

/-- What the task still has to look at. -/
def RxState.unparsed (s : RxState P) : List UInt8 :=
  match s.pc with
  | .loop => s.from 0
  | .parsing pos => s.from pos
  | .reading _ _ => []
  | .returned pos => s.from pos

/-- The position of the program counter lies in the buffer. -/
def Pc.Within (fin : Nat) : Pc → Prop
  | .loop => True
  | .parsing pos => pos ≤ fin
  | .reading _ _ => True
  | .returned pos => pos ≤ fin

/-- What holds in every state, as long as the buffer was not discarded. -/
structure Conserved (str : List UInt8) (s : RxState P) : Prop where
  memory : s.start.length = rxBufferSize
  bound : s.fin ≤ rxBufferSize
  within : s.pc.Within s.fin
  bytes : s.full = false → s.taken ++ s.unparsed ++ s.link = str

variable {L} {s : RxState P} {str : List UInt8}

theorem claRead_append (link : List UInt8) (count max : Nat) :
    (claRead link count max).1 ++ (claRead link count max).2 = link :=
  List.take_append_drop _ _

theorem length_claRead_le (link : List UInt8) (count max : Nat) :
    (claRead link count max).1.length ≤ max := by
  simp only [claRead, List.length_take]
  omega

theorem RxState.take_append_from (s : RxState P) {pos : Nat} (h : pos ≤ s.fin) :
    s.start.take pos ++ s.from pos = s.from 0 := by
  have htake : (s.start.take s.fin).take pos = s.start.take pos := by
    rw [List.take_take, Nat.min_eq_left h]
  rw [RxState.from, RxState.from, List.drop_zero, ← htake, List.take_append_drop]

/-- A pass that begins a bulk read. -/
theorem Conserved.bulkStart (h : Conserved str s) (hpc : s.pc = .loop) :
    Conserved str (bulkStart L s) := by
  have hbytes := h.bytes
  simp only [RxState.unparsed, hpc] at hbytes
  unfold ClaRx.bulkStart
  dsimp only
  split
  · next hnext =>
    refine ⟨h.memory, h.bound, hnext, fun hfull => ?_⟩
    have hall := s.take_append_from hnext
    rw [← hbytes hfull, ← hall]
    simp [RxState.unparsed, RxState.from]
  · refine ⟨h.memory, h.bound, trivial, fun hfull => ?_⟩
    rw [← hbytes hfull]
    simp [RxState.unparsed, RxState.from]

/-- A pass of a bulk read. -/
theorem Conserved.bulkPass (h : Conserved str s) {filled : List UInt8} {toRead count : Nat}
    (hpc : s.pc = .reading filled toRead) :
    Conserved str (bulkPass L s filled toRead (some count)) := by
  have hbytes := h.bytes
  simp only [RxState.unparsed, hpc] at hbytes
  unfold ClaRx.bulkPass
  split
  · refine ⟨h.memory, h.bound, Nat.le_refl _, fun hfull => ?_⟩
    -- nothing of the input buffer is left
    have hnone : s.from s.fin = [] := by
      simp only [RxState.from, List.drop_eq_nil_iff, List.length_take]
      omega
    rw [← hbytes hfull, ← hnone]
    rfl
  · refine ⟨h.memory, h.bound, trivial, fun hfull => ?_⟩
    have hread := claRead_append s.link count toRead
    calc s.taken ++ (claRead s.link count toRead).1 ++ [] ++ (claRead s.link count toRead).2
        = s.taken ++ [] ++ s.link := by simp [hread]
      _ = str := hbytes hfull

/-- A pass that reads a chunk. -/
theorem Conserved.chunkStart (h : Conserved str s) (hpc : s.pc = .loop) (count : Nat) :
    Conserved str (chunkStart L s (some count)) := by
  have hbytes := h.bytes
  have hbound := h.bound
  have hmemory := h.memory
  have hlen := length_claRead_le s.link count (rxBufferSize - s.fin)
  simp only [RxState.unparsed, hpc] at hbytes
  unfold ClaRx.chunkStart
  dsimp only
  have hread := claRead_append s.link count (rxBufferSize - s.fin)
  generalize (claRead s.link count (rxBufferSize - s.fin)).1 = bytes at *
  generalize (claRead s.link count (rxBufferSize - s.fin)).2 = link at *
  refine ⟨?_, by dsimp only; omega, Nat.zero_le _, fun hfull => ?_⟩
  · exact (length_splice (by omega)).trans hmemory
  · have hend : (s.start.take s.fin ++ bytes).length = s.fin + bytes.length := by
      rw [List.length_append, List.length_take_of_le (by omega)]
    have hcontent : (splice s.start s.fin bytes).take (s.fin + bytes.length) =
        s.start.take s.fin ++ bytes := by
      rw [splice, ← hend, List.take_left]
    simp only [RxState.unparsed, RxState.from, List.drop_zero] at hbytes ⊢
    rw [hcontent, ← hbytes hfull, ← hread]
    simp

/-- A pass of the parsing loop. -/
theorem Conserved.chunkPass (h : Conserved str s) {stream : Nat} (hpc : s.pc = .parsing stream) :
    Conserved str (chunkPass L s stream) := by
  have hbytes := h.bytes
  have hwithin := h.within
  simp only [RxState.unparsed, hpc] at hbytes
  rw [hpc] at hwithin
  unfold ClaRx.chunkPass
  split
  · next hlt =>
    dsimp only
    have hle := L.forward_le s.parsers (s.from stream)
    generalize (L.forward s.parsers (s.from stream)).2 = parsed at *
    generalize (L.forward s.parsers (s.from stream)).1 = p at *
    have hpos : stream + parsed ≤ s.fin := by
      have hlen : (s.from stream).length ≤ s.fin - stream := by
        simp only [RxState.from, List.length_drop, List.length_take]
        omega
      omega
    have hsplit : (s.from stream).take parsed ++ s.from (stream + parsed) = s.from stream := by
      rw [RxState.from, RxState.from, ← List.drop_drop, List.take_append_drop]
    -- what is left is the same in all four branches
    have hconserved : s.full = false →
        s.taken ++ (s.from stream).take parsed ++ s.from (stream + parsed) ++ s.link = str := by
      intro hfull
      rw [List.append_assoc s.taken, hsplit]
      exact hbytes hfull
    split
    · exact ⟨h.memory, h.bound, hpos, hconserved⟩
    · split
      · exact ⟨h.memory, h.bound, hpos, hconserved⟩
      · split
        · exact ⟨h.memory, h.bound, hpos, hconserved⟩
        · exact ⟨h.memory, h.bound, hpos, hconserved⟩
  · exact ⟨h.memory, h.bound, hwithin, hbytes⟩

/-- The bytes that are left are moved to the front. -/
theorem Conserved.shiftBuffer (h : Conserved str s) {parsed : Nat} (hpc : s.pc = .returned parsed) :
    Conserved str (shiftBuffer L s parsed) := by
  have hbytes := h.bytes
  have hwithin := h.within
  have hbound := h.bound
  have hmemory := h.memory
  simp only [RxState.unparsed, hpc] at hbytes
  rw [hpc] at hwithin
  have hle : parsed ≤ s.fin := hwithin
  have hlen : (s.from parsed).length = s.fin - parsed := by
    rw [RxState.from, List.length_drop, List.length_take_of_le (by omega)]
  unfold ClaRx.shiftBuffer
  split
  · next hall =>
    refine ⟨h.memory, Nat.zero_le _, trivial, fun hfull => ?_⟩
    have hnone : s.from parsed = [] := by
      rw [← List.length_eq_zero_iff, hlen, hall, Nat.sub_self]
    rw [← hbytes hfull, hnone]
    simp [RxState.unparsed, RxState.from]
  · split
    · refine ⟨?_, by dsimp only; omega, trivial, fun hfull => ?_⟩
      · rw [← h.memory]
        exact length_splice (by omega)
      · have hcontent : (splice s.start 0 (s.from parsed)).take (s.fin - parsed) =
            s.from parsed := by
          rw [splice, List.take_zero, List.nil_append, ← hlen, List.take_left]
        rw [← hbytes hfull]
        simp only [RxState.unparsed]
        rw [RxState.from, hcontent, List.drop_zero]
    · next hzero =>
      obtain rfl := not_not.mp hzero
      split
      · exact ⟨h.memory, Nat.zero_le _, trivial, fun hfull => by cases hfull⟩
      · exact ⟨h.memory, h.bound, trivial, hbytes⟩

/-- One pass of any loop. -/
theorem Conserved.step (h : Conserved str s) (count : Nat) :
    Conserved str (step L s (some count)) := by
  unfold ClaRx.step
  cases hpc : s.pc with
  | loop =>
      dsimp only
      split
      · exact h.bulkStart hpc
      · exact h.chunkStart hpc count
  | parsing stream => exact h.chunkPass hpc
  | reading filled toRead => exact h.bulkPass hpc
  | returned parsed => exact h.shiftBuffer hpc

/-- The invariant of every run. -/
theorem Reachable.conserved {p : P} (h : Reachable L p str s) : Conserved str s := by
  induction h with
  | @init memory hmemory =>
      refine ⟨hmemory, Nat.zero_le _, trivial, fun _ => ?_⟩
      simp [ClaRx.init, RxState.unparsed, RxState.from]
  | step _ count ih => exact ih.step count

theorem Reachable.run {p : P} (h : Reachable L p str s) (counts : List Nat) :
    Reachable L p str (run L s counts) := by
  induction counts generalizing s with
  | nil => exact h
  | cons count counts ih => exact ih (h.step count)

/-- **No byte is lost, duplicated or reordered.**  As long as the buffer-full reset is not taken,
the bytes that were taken, then those in the input buffer that are not parsed, then those that are
not read yet, are the bytes of the link; and the buffer holds what is in it. -/
theorem byte_conservation (L : Parsers P) {p : P} {str : List UInt8} {s : RxState P}
    (hrun : Reachable L p str s) (hfull : s.full = false) :
    s.taken ++ s.unparsed ++ s.link = str ∧ s.fin ≤ rxBufferSize :=
  ⟨hrun.conserved.bytes hfull, hrun.conserved.bound⟩

/-- Parsers of one byte that holds the length of a bulk read. -/
def lengthPrefixed : Parsers (Option Nat) where
  status := fun _ => .good
  bulkRead := Option.isSome
  nextBytes := fun p => p.getD 0
  forward := fun p bytes =>
    match bytes with
    | [] => (p, 0)
    | n :: _ => (some n.toNat, 1)
  forwardNull := id
  fillBulk := fun _ _ => none
  resetParsers := fun _ => none
  forward_le := by
    intro p bytes
    cases bytes with
    | nil => exact Nat.le_refl _
    | cons n bytes => exact Nat.succ_le_succ (Nat.zero_le _)

/-- A bulk read of three bytes, of which one is in the input buffer already. -/
theorem byte_conservation_lengthPrefixed :
    let s := run lengthPrefixed (init none (List.replicate rxBufferSize 0) [3, 10, 11, 12, 13])
      [2, 0, 0, 0, 1, 1]
    s.taken ++ s.unparsed ++ s.link = [3, 10, 11, 12, 13] ∧ s.fin ≤ rxBufferSize :=
  byte_conservation lengthPrefixed
    ((Reachable.init List.length_replicate).run [2, 0, 0, 0, 1, 1]) (by decide)

end ClaRx
