import Mathlib.Logic.Relation
import DisruptaBLE.Bundle6.ParserEnds
import DisruptaBLE.Bundle7.ParserEnds
import DisruptaBLE.Cla.FrameIsolation

/-!
# The receive loop ends

The parsing loop of `chunk_read` ends for all parsers that are ready after a reset
(`ReadyAfterReset`): a pass takes a byte, leaves the loop, or resets the parsers, and then the next
pass takes a byte or leaves the loop (`PassAdvances`).

The parsers of an ML2CAP link are ready at the header of a frame.  The calls of the parsers of the
two versions end as well, since the parser of version 6 waits for a bulk read only at the data of
a block, and only as the current parser (`Waits`).
-/

namespace ClaRx

open EndingLoop

universe u

variable {P : Type u} (L : Parsers P)

/-! ## The parsing loop -/

/-- A pass of the parsing loop of `chunk_read`, which ends with the state that has left it. -/
def parsingPass (s : RxState P) : RxState P ⊕ RxState P :=
  match s.pc with
  | .parsing stream => .inr (chunkPass L s stream)
  | _ => .inl s

/-- The states of the parsing loop. -/
def Passes : RxState P → RxState P → Prop :=
  Relation.ReflTransGen fun s s' => parsingPass L s = .inr s'

/-- From a position on, a byte was taken, or the loop was left. -/
def Proceeds (stream fin : Nat) : Pc → Prop
  | .parsing stream' => stream < stream' ∧ stream' ≤ fin
  | .returned parsed => stream ≤ parsed ∧ parsed ≤ fin
  | _ => False

/-- A pass takes a byte or leaves the loop, or it resets the parsers, and the next pass takes a byte
or leaves the loop. -/
def PassAdvances (s : RxState P) (stream : Nat) : Prop :=
  Proceeds stream s.fin (chunkPass L s stream).pc ∨
    ((chunkPass L s stream).pc = .parsing stream ∧
      (∃ p, (chunkPass L s stream).parsers = L.resetParsers p) ∧
      Proceeds stream s.fin (chunkPass L (chunkPass L s stream) stream).pc)

/-- Parsers that are ready do not fail in the next call, and a reset makes them ready. -/
structure ReadyAfterReset (Ready : P → Prop) : Prop where
  reset : ∀ p, Ready (L.resetParsers p)
  good : ∀ p bytes, Ready p → L.status (L.forward p bytes).1 = .good

variable {L} {s : RxState P} {stream : Nat}

theorem chunkPass_fin (L : Parsers P) (s : RxState P) (stream : Nat) :
    (chunkPass L s stream).fin = s.fin := by
  unfold chunkPass
  split
  · dsimp only
    split
    · rfl
    · split
      · rfl
      · split <;> rfl
  · rfl

/-- What a pass does behind the call of the parsers. -/
theorem chunkPass_cases (L : Parsers P) (hlt : stream < s.fin) :
    ∃ p parsed, L.forward s.parsers (s.from stream) = (p, parsed) ∧ stream + parsed ≤ s.fin ∧
      ((L.status p ≠ .good ∧ (chunkPass L s stream).pc = .parsing (stream + parsed) ∧
          (chunkPass L s stream).parsers = L.resetParsers p) ∨
        (L.status p = .good ∧ (chunkPass L s stream).parsers = p ∧
          ((chunkPass L s stream).pc = .returned (stream + parsed) ∨
            (0 < parsed ∧ (chunkPass L s stream).pc = .parsing (stream + parsed))))) := by
  have hle := L.forward_le s.parsers (s.from stream)
  rcases hforward : L.forward s.parsers (s.from stream) with ⟨p, parsed⟩
  rw [hforward] at hle
  have hlen : (s.from stream).length ≤ s.fin - stream := by
    simp only [RxState.from, List.length_drop, List.length_take]
    omega
  refine ⟨p, parsed, rfl, by dsimp only at hle; omega, ?_⟩
  unfold chunkPass
  rw [if_pos hlt, hforward]
  dsimp only
  split
  · next hbad => exact Or.inl ⟨hbad, rfl, rfl⟩
  · next hgood =>
    refine Or.inr ⟨not_not.mp hgood, ?_⟩
    split
    · exact ⟨rfl, Or.inl rfl⟩
    · split
      · exact ⟨rfl, Or.inl rfl⟩
      · next hparsed => exact ⟨rfl, Or.inr ⟨Nat.pos_of_ne_zero hparsed, rfl⟩⟩

variable {Ready : P → Prop}

/-- Parsers that are ready proceed. -/
theorem ReadyAfterReset.proceeds (h : ReadyAfterReset L Ready) (hready : Ready s.parsers)
    (hlt : stream < s.fin) : Proceeds stream s.fin (chunkPass L s stream).pc := by
  obtain ⟨p, parsed, hforward, hle, hcases⟩ := chunkPass_cases L hlt
  have hgood := h.good s.parsers (s.from stream) hready
  rw [hforward] at hgood
  rcases hcases with ⟨hbad, _⟩ | ⟨_, _, hpc | ⟨hpos, hpc⟩⟩
  · exact absurd hgood hbad
  · rw [hpc]
    exact ⟨Nat.le_add_right _ _, hle⟩
  · rw [hpc]
    exact ⟨by omega, hle⟩

/-- **A pass** advances. -/
theorem ReadyAfterReset.passAdvances (h : ReadyAfterReset L Ready) (hlt : stream < s.fin) :
    PassAdvances L s stream := by
  obtain ⟨p, parsed, _, hle, ⟨_, hpc, hparsers⟩ | ⟨_, _, hpc | ⟨hpos, hpc⟩⟩⟩ :=
    chunkPass_cases L hlt
  · cases parsed with
    | zero =>
        refine Or.inr ⟨hpc, ⟨p, hparsers⟩, ?_⟩
        have hnext := @ReadyAfterReset.proceeds _ L (chunkPass L s stream) stream Ready h
          (by rw [hparsers]; exact h.reset p) (by rw [chunkPass_fin]; exact hlt)
        rwa [chunkPass_fin] at hnext
    | succ parsed =>
        refine Or.inl ?_
        rw [hpc]
        exact ⟨by omega, hle⟩
  · refine Or.inl ?_
    rw [hpc]
    exact ⟨Nat.le_add_right _ _, hle⟩
  · refine Or.inl ?_
    rw [hpc]
    exact ⟨by omega, hle⟩

/-- The loop ends within some passes, with a position in the input buffer. -/
def LoopEnds (L : Parsers P) (s : RxState P) (stream passes : Nat) : Prop :=
  ∃ n s' parsed, n ≤ passes ∧ Ends (parsingPass L) s n s' ∧ s'.pc = .returned parsed ∧
    stream ≤ parsed ∧ parsed ≤ s.fin

theorem parsingPass_chunkPass (hpc : s.pc = .parsing stream) :
    parsingPass L s = .inr (chunkPass L s stream) := by
  rw [parsingPass, hpc]

/-- A pass more, and a position further in front. -/
theorem LoopEnds.next {stream' passes : Nat} (hpc : s.pc = .parsing stream)
    (hle : stream ≤ stream') (h : LoopEnds L (chunkPass L s stream) stream' passes) :
    LoopEnds L s stream (passes + 1) := by
  obtain ⟨n, s', parsed, hn, hends, hreturned, hfrom, hto⟩ := h
  rw [chunkPass_fin] at hto
  exact ⟨n + 1, s', parsed, by omega, .next (parsingPass_chunkPass hpc) hends, hreturned,
    by omega, hto⟩

/-- Behind a pass that proceeds, the loop ends if it ends from all positions behind. -/
theorem LoopEnds.of_proceeds (hlt : stream < s.fin)
    (ih : ∀ stream', stream < stream' → stream' ≤ s.fin → s.pc = .parsing stream' →
      LoopEnds L s stream' (2 * (s.fin - stream') + 2)) (h : Proceeds stream s.fin s.pc) :
    LoopEnds L s stream (2 * (s.fin - stream)) := by
  cases hpc : s.pc with
  | parsing stream' =>
      rw [hpc] at h
      obtain ⟨hahead, hwithin⟩ := h
      obtain ⟨n, s', parsed, hn, hends, hreturned, hfrom, hto⟩ := ih stream' hahead hwithin hpc
      exact ⟨n, s', parsed, by omega, hends, hreturned, by omega, hto⟩
  | returned parsed =>
      rw [hpc] at h
      exact ⟨1, s, parsed, by omega, .last (by rw [parsingPass, hpc]), hpc, h.1, h.2⟩
  | loop => rw [hpc] at h; exact h.elim
  | reading filled toRead => rw [hpc] at h; exact h.elim

/-- **The parsing loop ends** within two passes for each byte and two more.  The bytes that are left
go down; a reset without a byte is followed by a pass that takes one or leaves. -/
theorem ReadyAfterReset.loopEnds (h : ReadyAfterReset L Ready) (hpc : s.pc = .parsing stream)
    (hle : stream ≤ s.fin) : LoopEnds L s stream (2 * (s.fin - stream) + 2) := by
  induction hk : s.fin - stream using Nat.strong_induction_on generalizing s stream with
  | _ k ih =>
      by_cases hlt : stream < s.fin
      · -- the loop ends from the positions that a pass can reach
        have hbehind : ∀ u : RxState P, u.fin = s.fin → ∀ stream', stream < stream' →
            stream' ≤ u.fin → u.pc = .parsing stream' →
            LoopEnds L u stream' (2 * (u.fin - stream') + 2) := by
          intro u hfin stream' hfrom hto hupc
          exact ih (u.fin - stream') (by omega) hupc hto rfl
        have hfin := chunkPass_fin L s stream
        rcases h.passAdvances hlt with hproceeds | ⟨hstay, _, hproceeds⟩
        · rw [← hfin] at hproceeds
          have hrest := LoopEnds.of_proceeds (by omega) (hbehind _ hfin) hproceeds
          obtain ⟨n, s', parsed, hn, hends⟩ := hrest.next hpc (Nat.le_refl _)
          exact ⟨n, s', parsed, by omega, hends⟩
        · have hfin' := (chunkPass_fin L (chunkPass L s stream) stream).trans hfin
          rw [← hfin'] at hproceeds
          have hrest := LoopEnds.of_proceeds (by omega) (hbehind _ hfin') hproceeds
          obtain ⟨n, s', parsed, hn, hends⟩ :=
            (hrest.next hstay (Nat.le_refl _)).next hpc (Nat.le_refl _)
          exact ⟨n, s', parsed, by omega, hends⟩
      · have hpass : (chunkPass L s stream).pc = .returned stream := by
          rw [chunkPass, if_neg hlt]
        exact ⟨2, _, stream, by omega,
          .next (parsingPass_chunkPass hpc) (.last (by rw [parsingPass, hpass])), hpass,
          Nat.le_refl _, hle⟩

/-- The loop stays in the input buffer. -/
theorem Passes.within {s' : RxState P} (h : Passes L s s')
    (hin : ∀ stream, s.pc = .parsing stream → stream ≤ s.fin) :
    s'.fin = s.fin ∧ ∀ stream, s'.pc = .parsing stream → stream ≤ s.fin := by
  induction h with
  | refl => exact ⟨rfl, hin⟩
  | @tail b c _ hpass ih =>
      obtain ⟨hfin, hpos⟩ := ih
      unfold parsingPass at hpass
      split at hpass
      · next stream hpc =>
        obtain rfl := Sum.inr.inj hpass
        refine ⟨(chunkPass_fin L b stream).trans hfin, ?_⟩
        intro stream' hpc'
        by_cases hlt : stream < b.fin
        · obtain ⟨p, parsed, _, hto, ⟨_, hnext, _⟩ | ⟨_, _, hnext | ⟨_, hnext⟩⟩⟩ :=
            chunkPass_cases L hlt
          · rw [hnext] at hpc'
            obtain rfl := Pc.parsing.inj hpc'
            omega
          · rw [hnext] at hpc'
            cases hpc'
          · rw [hnext] at hpc'
            obtain rfl := Pc.parsing.inj hpc'
            omega
        · rw [chunkPass, if_neg hlt] at hpc'
          cases hpc'
      · cases hpass

end ClaRx

namespace Ml2cap

open ClaRx
open EndingLoop
open Bundle6 (AwaitsData bundle6ParserReset bundle6ParserRead bundle6ParserRead_ends
  bundle6ParserRead_awaitsData readByte_awaitsData)
open Bundle7 (bundle7ParserInit bundle7ParserRead bundle7ParserRead_ends)

variable (node : Node)

/-! ## The parsers of a link -/

/-- The parsers stand at the header of a frame. -/
def AtHeader (link : Link) : Prop :=
  link.mtcpParser.dataSubparser = false ∧ link.curParser = .mtcp

/-- The parser of a header is good, whatever it reads. -/
theorem readyAfterReset : ReadyAfterReset (ml2capParsers node) AtHeader where
  reset := fun _ => ⟨rfl, rfl⟩
  good := by
    intro link bytes hheader
    obtain ⟨hmode, hcur⟩ := hheader
    change curStatus (ml2capForward node link (some bytes)).1 = .good
    rw [ml2capForward, if_neg (by rw [hmode]; exact Bool.false_ne_true)]
    simp only [curStatus, hcur]

/-- A link with its parsers initialized and reset, in any memory. -/
def initLink (memory : Link) : Link :=
  freshLink node
    { memory with
      bundle6Parser := bundle6ParserReset node.limits (node.usage 0) memory.bundle6Parser
      bundle7Parser := bundle7ParserInit }

/-- The states of the runs of the receive task, in which `cla_read` may also fail. -/
inductive Reached (memory : Link) (str : List UInt8) : RxState Link → Prop
  | init {buffer : List UInt8} (h : buffer.length = rxBufferSize) :
      Reached memory str (init (initLink node memory) buffer str)
  | step {s : RxState Link} (h : Reached memory str s) (result : Option Nat) :
      Reached memory str (step (ml2capParsers node) s result)

/-- The calls of the parsers of both versions end, with the results that they have in the model. -/
structure CallsEnd (link : Link) : Prop where
  bundle6 : ∀ buffer, ∃ n, Ends (Bundle6.readPass node.limits) (link.bundle6Parser, buffer) n
    (bundle6ParserRead node.limits link.bundle6Parser buffer)
  bundle7 : ∀ buffer, ∃ n,
    Ends (Bundle7.readPass node.tinyCbor node.limits.bundleQuota.toNat)
      (link.bundle7Parser, 0, buffer, none) n
      (bundle7ParserRead node.tinyCbor node.limits.bundleQuota.toNat link.bundle7Parser buffer)

/-- The parser of version 6 waits for a bulk read only at the data of a block, and as the current
parser. -/
def Waits (link : Link) : Prop :=
  link.bundle6Parser.bulkRead = true →
    link.bundle6Parser.currentStage = .blockData ∧ link.curParser = .bundle6 ∧
      link.payloadType = .bundle6

variable {node} {link : Link} {s : RxState Link}

theorem Waits.awaitsData (h : Waits link) : AwaitsData link.bundle6Parser :=
  fun hbulk => (h hbulk).1

theorem Waits.callsEnd (h : Waits link) : CallsEnd node link where
  bundle6 := fun buffer => bundle6ParserRead_ends node.limits h.awaitsData buffer
  bundle7 := fun buffer => bundle7ParserRead_ends node.documented _ _ buffer

theorem waits_of_false (h : link.bundle6Parser.bulkRead = false) : Waits link := by
  intro hbulk
  rw [h] at hbulk
  cases hbulk

/-- A parser that waits at the data of a block is reset. -/
theorem bundle6Reset_bulkRead {parser : Bundle6.Parser} (h : AwaitsData parser) (usage : UInt32) :
    (bundle6Reset node usage parser).bulkRead = false := by
  unfold bundle6Reset
  split
  · next hversion =>
    by_contra hbulk
    have hstage := h (Bool.eq_true_of_not_eq_false hbulk)
    rw [hversion.2] at hstage
    cases hstage
  · rfl

theorem Waits.reset (h : Waits link) : Waits (ml2capResetParsers node link) :=
  waits_of_false (bundle6Reset_bulkRead h.awaitsData _)

/-- A call of the parser of version 6, as the current one. -/
theorem Waits.bundle6Read (h : Waits link) (hcur : link.curParser = .bundle6)
    (hpayload : link.payloadType = .bundle6) (buffer : List UInt8) :
    Waits (bundle6Read node link (some buffer)).1 :=
  fun hbulk =>
    ⟨bundle6ParserRead_awaitsData node.limits h.awaitsData buffer hbulk, hcur, hpayload⟩

theorem Waits.not_bulkRead (h : Waits link) (hpayload : link.payloadType ≠ .bundle6) :
    link.bundle6Parser.bulkRead = false := by
  by_contra hbulk
  exact hpayload (h (Bool.eq_true_of_not_eq_false hbulk)).2.2

theorem Waits.not_current (h : Waits link) (hcur : link.curParser ≠ .bundle6) :
    link.bundle6Parser.bulkRead = false := by
  by_contra hbulk
  exact hcur (h (Bool.eq_true_of_not_eq_false hbulk)).2.1

theorem Waits.forwardPayload (h : Waits link) (buffer : List UInt8) :
    Waits (forwardPayload node link (some buffer)).1 := by
  unfold Ml2cap.forwardPayload
  split
  · next hpayload =>
    have hfalse := h.not_bulkRead (by rw [hpayload]; exact fun h => nomatch h)
    have hselect : Waits (selectBundleParserVersion node link (some buffer)).1 := by
      unfold selectBundleParserVersion
      split
      · exact h
      · split
        · exact @Waits.bundle6Read node { link with payloadType := .bundle6, curParser := .bundle6 }
            (waits_of_false hfalse) rfl rfl buffer
        · split
          · exact waits_of_false hfalse
          · exact h
    dsimp only
    split
    · exact hselect.reset
    · exact hselect
  · next hpayload =>
    exact @Waits.bundle6Read node { link with curParser := .bundle6 }
      (fun hbulk => ⟨(h hbulk).1, rfl, hpayload⟩) rfl hpayload buffer
  · next hpayload =>
    exact waits_of_false (h.not_bulkRead (by rw [hpayload]; exact fun h => nomatch h))

theorem Waits.countParsed (h : Waits link) (result : Nat) :
    Waits (countParsed node link result) := by
  unfold Ml2cap.countParsed
  dsimp only
  split
  · exact Waits.reset h
  · exact h

/-- **A call** of the parsers of the link. -/
theorem Waits.forward (h : Waits link) (buffer : List UInt8) :
    Waits (ml2capForward node link (some buffer)).1 := by
  unfold ml2capForward
  split
  · exact (h.forwardPayload _).countParsed _
  · exact h

/-- Behind a bulk read the parser of version 6 does not wait. -/
theorem Waits.fillBulk (h : Waits link) (bytes : List UInt8) :
    (curFillBulk link bytes).bundle6Parser.bulkRead = false := by
  unfold curFillBulk
  split
  · next hcur => exact h.not_current (by rw [hcur]; exact fun h => nomatch h)
  · rfl
  · next hcur => exact h.not_current (by rw [hcur]; exact fun h => nomatch h)

/-- The call with `NULL` of parsers that do not wait. -/
theorem waits_forwardNull (h : link.bundle6Parser.bulkRead = false) :
    Waits (ml2capForward node link none).1 := by
  have hwaits := waits_of_false h
  unfold ml2capForward
  split
  · refine Waits.countParsed ?_ _
    unfold Ml2cap.forwardPayload
    split
    · exact Waits.reset hwaits
    · next hpayload =>
      exact fun hbulk => ⟨readByte_awaitsData h 0 hbulk, rfl, hpayload⟩
    · exact waits_of_false h
  · exact hwaits

theorem Waits.bulkDone (h : Waits link) (bytes : List UInt8) :
    Waits (bulkDone (ml2capParsers node) link bytes) := by
  have hnull : Waits (ml2capForward node (curFillBulk link bytes) none).1 :=
    waits_forwardNull (h.fillBulk bytes)
  unfold ClaRx.bulkDone
  dsimp only
  split
  · exact hnull
  · exact hnull.reset

theorem Waits.chunkPass (h : Waits s.parsers) (stream : Nat) :
    Waits (chunkPass (ml2capParsers node) s stream).parsers := by
  have hforward := @Waits.forward node _ h (s.from stream)
  unfold ClaRx.chunkPass
  split
  · dsimp only
    split
    · exact hforward.reset
    · split
      · exact hforward
      · split <;> exact hforward
  · exact h

/-- **A pass of the receive task** keeps where the parser of version 6 waits. -/
theorem Waits.step (h : Waits s.parsers) (result : Option Nat) :
    Waits (step (ml2capParsers node) s result).parsers := by
  unfold ClaRx.step
  split
  · split
    · unfold bulkStart
      dsimp only
      split
      · exact h.bulkDone _
      · exact h
    · unfold chunkStart
      split
      · exact h.reset
      · exact h
  · exact h.chunkPass _
  · unfold bulkPass
    split
    · exact h.bulkDone _
    · split
      · exact h.reset
      · exact h
  · unfold shiftBuffer
    split
    · exact h
    · split
      · exact h
      · split
        · exact h.reset
        · exact h

theorem Reached.waits {memory : Link} {str : List UInt8} (h : Reached node memory str s) :
    Waits s.parsers := by
  induction h with
  | init _ => exact Waits.reset (waits_of_false rfl)
  | step _ result ih => exact ih.step result

theorem Waits.passes {s' : RxState Link} (h : Waits s.parsers)
    (hpasses : Passes (ml2capParsers node) s s') : Waits s'.parsers := by
  induction hpasses with
  | refl => exact h
  | @tail b c _ hpass ih =>
      unfold parsingPass at hpass
      split at hpass
      · obtain rfl := Sum.inr.inj hpass
        exact ih.chunkPass _
      · cases hpass

/-- **The receive loop cannot spin.**  From any position in any input buffer, with the parsers of any
state of a run: the calls of the parsers end, each pass takes a byte, leaves the loop, or resets the
parsers, so that the next one does, and the loop ends with a position in the buffer. -/
theorem chunk_read_ends {memory : Link} {str : List UInt8} (h : Reached node memory str s)
    {t : RxState Link} {stream : Nat} (hparsers : t.parsers = s.parsers)
    (hpc : t.pc = .parsing stream) (hstream : stream ≤ t.fin) :
    (∀ u pos, Passes (ml2capParsers node) t u → u.pc = .parsing pos →
      pos ≤ t.fin ∧ CallsEnd node u.parsers ∧
        (pos < t.fin → PassAdvances (ml2capParsers node) u pos)) ∧
    ∃ n u parsed, n ≤ 2 * (t.fin - stream) + 2 ∧ Ends (parsingPass (ml2capParsers node)) t n u ∧
      u.pc = .returned parsed ∧ stream ≤ parsed ∧ parsed ≤ t.fin := by
  have hwaits : Waits t.parsers := by
    rw [hparsers]
    exact h.waits
  constructor
  · intro u pos hpasses hupc
    obtain ⟨hfin, hpos⟩ := hpasses.within (fun stream' hpc' => by
      rw [hpc] at hpc'
      obtain rfl := Pc.parsing.inj hpc'
      exact hstream)
    refine ⟨hpos pos hupc, (hwaits.passes hpasses).callsEnd, ?_⟩
    intro hlt
    exact (readyAfterReset node).passAdvances (by rw [hfin]; exact hlt)
  · exact (readyAfterReset node).loopEnds hpc hstream

/-- Two frames without content in the input buffer of a new link. -/
def emptyFrames : RxState Link :=
  { init (initLink smallNode unusedLink) (List.replicate rxBufferSize 0) [] with
    start := [0x40, 0x40]
    fin := 2
    pc := .parsing 0 }

theorem chunk_read_ends_emptyFrames :
    ∃ n u parsed, n ≤ 6 ∧ Ends (parsingPass (ml2capParsers smallNode)) emptyFrames n u ∧
      u.pc = .returned parsed ∧ 0 ≤ parsed ∧ parsed ≤ 2 :=
  have hlength : (List.replicate rxBufferSize (0 : UInt8)).length = rxBufferSize :=
    List.length_replicate
  (chunk_read_ends (@Reached.init smallNode unusedLink [] _ hlength) (t := emptyFrames) rfl rfl
    (Nat.zero_le _)).2

end Ml2cap
