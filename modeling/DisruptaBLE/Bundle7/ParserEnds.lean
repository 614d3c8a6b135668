import DisruptaBLE.Bundle7.EidMemory
import DisruptaBLE.Lib.EndingLoop

/-!
# The parser of version 7 ends

The loop of `bundle7_parser_read` ends by itself.  A stage that succeeds has moved the iterator over
a byte at least, because TinyCBOR has moved it (`Consumes`).  The exceptions are the pass of a bulk
read, which may be one of no bytes, and the end of a block, which looks at no byte: behind both
stands a pass that takes one.
-/

namespace Bundle7

open BundleProcessor
open PtrHeap (bind_eq_ok)
open EndingLoop

/-! ## What TinyCBOR consumes -/

/-- A function that succeeds leaves the iterator behind a byte at least. -/
def Consumes (it : CborValue) (r : Except CborError CborValue) : Prop :=
  ∀ it', r = .ok it' → it'.rest.length < it.rest.length

variable {it it' recursed : CborValue} {l : List UInt8}

theorem Consumes.error (it : CborValue) (e : CborError) : Consumes it (.error e) :=
  fun _ h => nomatch h

theorem preparseValue_rest (remaining : Option Nat) (l : List UInt8) :
    (preparseValue remaining l).2.rest = l := by
  unfold preparseValue
  split <;> rfl

theorem preparseItem_rest_le (remaining : Option Nat) (l : List UInt8) :
    (preparseItem remaining l).2.rest.length ≤ l.length := by
  unfold preparseItem
  split
  · simp
  · rw [preparseValue_rest]

theorem preparseNext_rest_le (it : CborValue) (l : List UInt8) :
    (preparseNext it l).2.rest.length ≤ l.length := by
  unfold preparseNext
  split
  · exact preparseItem_rest_le none l
  · split
    · exact preparseItem_rest_le _ l
    · split
      · exact Nat.le_refl _
      · exact preparseItem_rest_le _ l

theorem checked_eq_ok {r : Option CborError × CborValue} (h : checked r = .ok it) : r.2 = it := by
  unfold checked at h
  split at h
  · exact Except.ok.inj h
  · cases h

/-- Behind a head that is complete. -/
theorem advanceFixed_lt {h : Cbor.Head} (hhead : headOf it = .ok h) :
    (reference.advanceFixed it).2.rest.length < it.rest.length := by
  obtain ⟨hpos, hle⟩ := headOf_size hhead
  have hrest := preparseNext_rest_le it (it.rest.drop h.size)
  rw [List.length_drop] at hrest
  simp only [reference, hhead]
  omega

theorem advanceFixed_le (it : CborValue) :
    (reference.advanceFixed it).2.rest.length ≤ it.rest.length := by
  cases hhead : headOf it with
  | error e => simp only [reference, hhead, Nat.le_refl]
  | ok h => exact Nat.le_of_lt (advanceFixed_lt hhead)

theorem advanceFixed_consumes (it : CborValue) :
    Consumes it (checked (reference.advanceFixed it)) := by
  intro it' h
  cases hhead : headOf it with
  | error e =>
      simp only [reference, hhead, checked] at h
      cases h
  | ok head =>
      rw [← checked_eq_ok h]
      exact advanceFixed_lt hhead

theorem enterContainer_consumes (it : CborValue) : Consumes it (reference.enterContainer it) := by
  intro it' h
  cases hhead : headOf it with
  | error e =>
      simp only [reference, hhead] at h
      cases h
  | ok head =>
      obtain ⟨hpos, hle⟩ := headOf_size hhead
      have hdrop : (it.rest.drop head.size).length < it.rest.length := by
        rw [List.length_drop]
        omega
      simp only [reference, hhead] at h
      split at h
      · have hrest := preparseItem_rest_le none (it.rest.drop head.size)
        rw [checked_eq_ok h] at hrest
        omega
      · split at h
        · cases h
        · next n _ _ =>
          split at h
          · obtain rfl := Except.ok.inj h
            exact hdrop
          · have hrest := preparseItem_rest_le (some n) (it.rest.drop head.size)
            rw [checked_eq_ok h] at hrest
            omega

theorem leaveContainer_le (h : reference.leaveContainer it recursed = .ok it') :
    it'.rest.length ≤ recursed.rest.length := by
  have hrest := preparseNext_rest_le it recursed.rest
  rwa [checked_eq_ok h] at hrest

theorem readChunks_le {kind : Cbor.Kind} {fuel : Nat} {bytes rest : List UInt8}
    (h : readChunks kind fuel l = .ok (bytes, rest)) : rest.length ≤ l.length := by
  induction fuel generalizing l bytes rest with
  | zero => cases h
  | succ fuel ih =>
      rw [readChunks] at h
      split at h
      · cases h
      · cases h
      · obtain ⟨_, rfl⟩ := Prod.mk.inj (Except.ok.inj h)
        simp
      · split at h
        · cases h
        · split at h
          · cases h
          · split at h
            · cases h
            · split at h
              · cases h
              · next hrest =>
                obtain ⟨_, rfl⟩ := Prod.mk.inj (Except.ok.inj h)
                have hle := ih hrest
                rw [List.length_drop] at hle
                omega

theorem readString_lt {bytes rest : List UInt8} (h : readString it = .ok (bytes, rest)) :
    rest.length < it.rest.length := by
  unfold readString at h
  split at h
  · cases h
  · next head hhead =>
    obtain ⟨hpos, hle⟩ := headOf_size hhead
    split at h
    · have hrest := readChunks_le h
      rw [List.length_drop] at hrest
      omega
    · split at h
      · cases h
      · obtain ⟨_, rfl⟩ := Prod.mk.inj (Except.ok.inj h)
        rw [List.length_drop]
        omega

theorem copyString_lt {size : Nat} {bytes : List UInt8}
    (h : reference.copyString it size = .ok (bytes, it')) :
    it'.rest.length < it.rest.length := by
  simp only [reference] at h
  split at h
  · cases h
  · next text rest hread =>
    have hlt := readString_lt hread
    split at h
    · cases h
    · next next hnext =>
      split at h
      · cases h
      · obtain ⟨_, rfl⟩ := Prod.mk.inj (Except.ok.inj h)
        have hle := preparseNext_rest_le it rest
        rw [checked_eq_ok hnext] at hle
        omega

/-! ## What a stage consumes -/

theorem eidParseDtn_le {eid : CStr} (h : eidParseDtn reference it = .ok (eid, it')) :
    it'.rest.length ≤ it.rest.length := by
  unfold eidParseDtn at h
  split at h
  · split at h
    · cases h
    · obtain ⟨_, rfl⟩ := Prod.mk.inj (Except.ok.inj h)
      exact advanceFixed_le it
  · split at h
    · obtain ⟨length, _, h⟩ := bind_eq_ok.mp h
      split at h
      · cases h
      · obtain ⟨⟨ssp, next⟩, hcopy, h⟩ := bind_eq_ok.mp h
        obtain ⟨_, rfl⟩ := Prod.mk.inj (Except.ok.inj h)
        exact Nat.le_of_lt (copyString_lt hcopy)
    · cases h

theorem eidParseIpn_le {eid : CStr} (h : eidParseIpn reference it = .ok (eid, it')) :
    it'.rest.length ≤ it.rest.length := by
  unfold eidParseIpn at h
  split at h
  · obtain ⟨first, hfirst, h⟩ := bind_eq_ok.mp h
    split at h
    · obtain ⟨second, hsecond, h⟩ := bind_eq_ok.mp h
      split at h
      · obtain ⟨last, hlast, h⟩ := bind_eq_ok.mp h
        split at h
        · obtain ⟨next, hleave, h⟩ := bind_eq_ok.mp h
          obtain ⟨_, rfl⟩ := Prod.mk.inj (Except.ok.inj h)
          calc next.rest.length ≤ last.rest.length := leaveContainer_le hleave
            _ ≤ second.rest.length := Nat.le_of_lt (advanceFixed_consumes _ _ hlast)
            _ ≤ first.rest.length := Nat.le_of_lt (advanceFixed_consumes _ _ hsecond)
            _ ≤ it.rest.length := Nat.le_of_lt (enterContainer_consumes _ _ hfirst)
        · cases h
      · cases h
    · cases h
  · cases h

theorem eidParseScheme_le {eid : CStr} (h : eidParseScheme reference it = .ok (eid, it')) :
    it'.rest.length ≤ it.rest.length := by
  unfold eidParseScheme at h
  split at h
  · obtain ⟨next, hnext, h⟩ := bind_eq_ok.mp h
    have hlt := advanceFixed_consumes _ _ hnext
    split at h
    · have hle := eidParseDtn_le h
      omega
    · split at h
      · have hle := eidParseIpn_le h
        omega
      · cases h
  · cases h

/-- An endpoint identifier. -/
theorem bundle7EidParseCbor_lt {eid : CStr}
    (h : bundle7EidParseCbor reference it = .ok (eid, it')) :
    it'.rest.length < it.rest.length := by
  unfold bundle7EidParseCbor at h
  split at h
  · split at h
    · cases h
    · split at h
      · cases h
      · obtain ⟨recursed, henter, h⟩ := bind_eq_ok.mp h
        obtain ⟨⟨eid', last⟩, hscheme, h⟩ := bind_eq_ok.mp h
        obtain ⟨next, hleave, h⟩ := bind_eq_ok.mp h
        obtain ⟨_, rfl⟩ := Prod.mk.inj (Except.ok.inj h)
        calc next.rest.length ≤ last.rest.length := leaveContainer_le hleave
          _ ≤ recursed.rest.length := eidParseScheme_le hscheme
          _ < it.rest.length := enterContainer_consumes _ _ henter
  · cases h

/-- A timestamp. -/
theorem bundle7TimestampParse_consumes (it : CborValue) (x : Draft) :
    Consumes it (bundle7TimestampParse reference it x).1 := by
  intro it' h
  unfold bundle7TimestampParse at h
  split at h
  · split at h
    · cases h
    · next first hfirst =>
      have henter := enterContainer_consumes _ _ hfirst
      split at h
      · dsimp only at h
        split at h
        · cases h
        · next second hsecond =>
          have hadvance := advanceFixed_consumes _ _ hsecond
          unfold timestampSequence at h
          split at h
          · dsimp only at h
            split at h
            · cases h
            · next last hlast =>
              have hlt := advanceFixed_consumes _ _ hlast
              split at h
              · have hle := leaveContainer_le h
                omega
              · cases h
          · cases h
      · cases h
  · cases h

variable (st : Parser)

theorem readUint_consumes (next : Stage) (store : Draft → UInt64 → Draft) (it : CborValue) :
    Consumes it (readUint reference next store st it).1 := by
  unfold readUint
  split
  · exact advanceFixed_consumes it
  · exact .error it _

theorem parseEid_consumes (next : Stage) (store : Draft → CStr → Draft) (it : CborValue) :
    Consumes it (parseEid reference next store st it).1 := by
  unfold parseEid
  split
  · exact .error it _
  · next eid last hparse =>
    intro it' h
    obtain rfl := Except.ok.inj h
    exact bundle7EidParseCbor_lt hparse

theorem bundleEnd_consumes (it : CborValue) : Consumes it (bundleEnd st it).1 := by
  have htail : it.rest.head? = some 0xff → it.rest.tail.length < it.rest.length := by
    intro hhead
    cases hrest : it.rest with
    | nil => rw [hrest] at hhead; cases hhead
    | cons byte rest => simp
  intro it' h
  unfold bundleEnd at h
  split at h
  · cases h
  · next hhead =>
    have hlt := htail (not_not.mp hhead)
    dsimp only at h
    split at h
    · obtain rfl := Except.ok.inj h
      exact hlt
    · split at h
      · obtain rfl := Except.ok.inj h
        exact hlt
      · obtain rfl := Except.ok.inj h
        exact hlt

theorem advance_consumes {next : Parser} {other : StageResult} (hother : Consumes it other.1) :
    Consumes it (if it.isUnsignedInteger then (checked (reference.advanceFixed it), next)
      else other).1 := by
  split
  · exact advanceFixed_consumes it
  · exact hother

/-- A stage that ends behind a string that it has copied. -/
theorem copied_consumes {size : Nat} {crc : List UInt8} {last : CborValue}
    (hcopy : reference.copyString it size = .ok (crc, last)) : Consumes it (.ok last) := by
  intro it' h
  obtain rfl := Except.ok.inj h
  exact copyString_lt hcopy

theorem primaryBlockCrc_consumes (it : CborValue) :
    Consumes it (primaryBlockCrc reference st it).1 := by
  unfold primaryBlockCrc
  split
  · split
    · exact .error it _
    · next hcopy =>
      have hlast := copied_consumes hcopy
      dsimp only
      split
      · split
        · exact .error it _
        · exact hlast
      · split
        · exact .error it _
        · exact hlast
  · exact .error it _

theorem blockCrc_consumes (it : CborValue) : Consumes it (blockCrc reference st it).1 := by
  unfold blockCrc
  split
  · dsimp only
    split
    · exact .error it _
    · next hcopy =>
      have hlast := copied_consumes hcopy
      split
      · split
        · exact .error it _
        · exact hlast
      · split
        · exact .error it _
        · exact hlast
  · exact .error it _

/-- The length of the data is known, so its head is complete. -/
theorem blockData_consumes (it : CborValue) : Consumes it (blockData reference st it).1 := by
  intro it' h
  unfold blockData at h
  split at h
  · split at h
    · cases h
    · next length hlength =>
      obtain rfl := Except.ok.inj h
      cases hhead : headOf it with
      | error e =>
          simp only [reference, knownLength, hhead] at hlength
          cases hlength
      | ok head => exact @advanceFixed_lt { it with type := some .uint } head hhead
  · cases h

/-- **A stage** that succeeds consumes a byte, unless it is the end of a block. -/
theorem runStage_consumes {stage : Stage} (hstage : stage ≠ .blockEnd) (it : CborValue) :
    Consumes it (runStage reference stage st it).1 := by
  cases stage with
  | bundleStart =>
      simp only [runStage, bundleStart]
      split
      · exact .error it _
      · exact enterContainer_consumes it
  | bundleEnd => exact bundleEnd_consumes st it
  | primaryBlockStart =>
      simp only [runStage, primaryBlockStart]
      split
      · exact .error it _
      · exact enterContainer_consumes it
  | crcType =>
      simp only [runStage, crcType]
      split
      · split
        · exact .error it _
        · exact advanceFixed_consumes it
      · exact .error it _
  | destinationEid => exact parseEid_consumes st _ _ it
  | sourceEid => exact parseEid_consumes st _ _ it
  | reportToEid => exact parseEid_consumes st _ _ it
  | creationTimestamp =>
      have htimestamp := bundle7TimestampParse_consumes it st.draft
      simp only [runStage, creationTimestamp]
      split
      · exact .error it _
      · next last draft hparse =>
        rw [hparse] at htimestamp
        exact htimestamp
  | lifetime => exact advance_consumes (.error it _)
  | totalAduLength => exact advance_consumes (.error it _)
  | primaryBlockCrc => exact primaryBlockCrc_consumes st it
  | blockStart =>
      simp only [runStage, blockStart]
      split
      · exact enterContainer_consumes it
      · exact .error it _
  | blockCrcType => exact advance_consumes (.error it _)
  | blockCrc => exact blockCrc_consumes st it
  | blockData => exact blockData_consumes st it
  | blockEnd => exact absurd rfl hstage
  | protocolVersion => exact readUint_consumes st _ _ it
  | primaryProcFlags => exact readUint_consumes st _ _ it
  | fragmentOffset => exact readUint_consumes st _ _ it
  | blockType => exact readUint_consumes st _ _ it
  | blockNumber => exact readUint_consumes st _ _ it
  | blockProcFlags => exact readUint_consumes st _ _ it

/-! ## The loop -/

/-- The variables of the loop: the parser, the bytes parsed, the bytes that are left, and the
iterator. -/
abbrev LoopState := Parser × Nat × List UInt8 × Option CborValue

/-- A pass of the loop of `bundle7_parser_read`. -/
def readPass (T : TinyCbor) (quota : Nat) : LoopState → (Parser × Nat) ⊕ LoopState
  | (st, parsed, rest, iterator) =>
      if rest = [] ∨ st.status ≠ .good then .inl (st, parsed)
      else if st.bulkRead then
        if rest.length < st.nextBytes then .inl (st, parsed)
        else
          .inr (readNull (fillBulk st (rest.take st.nextBytes)), parsed + st.nextBytes,
            rest.drop st.nextBytes, none)
      else
        let (err, it) := passIterator T rest iterator
        if err = some .unexpectedEof then .inl (st, parsed)
        else if err ≠ none ∧ err ≠ some .unexpectedBreak then .inl (st.fail, parsed)
        else
          match runStage T st.parse st it with
          | (.error e, st) => .inl (if e = .unexpectedEof then st else st.fail, parsed)
          | (.ok it, st) =>
              let consumed := rest.length - it.rest.length
              let st := { st with bundleSize := st.bundleSize + consumed }
              if quota < st.bundleSize then .inl (st.fail, parsed)
              else
                .inr ((accountFor st (rest.take consumed)).transition, parsed + consumed,
                  rest.drop consumed, if it.atEnd then none else some it)

theorem readLoop_readPass (T : TinyCbor) (quota fuel : Nat) (s : LoopState) :
    readLoop T quota (fuel + 1) s.1 s.2.1 s.2.2.1 s.2.2.2 =
      (readPass T quota s).elim id (fun s => readLoop T quota fuel s.1 s.2.1 s.2.2.1 s.2.2.2) := by
  obtain ⟨st, parsed, rest, iterator⟩ := s
  rw [readPass]
  by_cases hstop : rest = [] ∨ st.status ≠ .good
  · conv_lhs => unfold readLoop
    rw [if_pos hstop, if_pos hstop]
    rfl
  rw [if_neg hstop]
  by_cases hbulk : st.bulkRead = true
  · conv_lhs => unfold readLoop
    rw [if_neg hstop, if_pos hbulk, if_pos hbulk]
    split <;> rfl
  rw [if_neg hbulk]
  rcases hpass : passIterator T rest iterator with ⟨err, it⟩
  rw [readLoop_pass hstop hbulk hpass]
  dsimp only
  split
  · rfl
  · split
    · rfl
    · rcases runStage T st.parse st it with ⟨e | it', st'⟩
      · rfl
      · dsimp only
        split <;> rfl

/-- The iterator stands at the bytes that are left. -/
def Aligned (s : LoopState) : Prop := ∀ it, s.2.2.2 = some it → it.rest.length = s.2.2.1.length

/-- The next pass may take no byte. -/
def mayPause (st : Parser) : Bool := st.bulkRead || st.parse = .blockEnd

/-- The passes that the loop may still take behind this one. -/
def passesLeft (s : LoopState) : Nat :=
  if s.2.2.1 = [] then 0 else 2 * s.2.2.1.length - 1 + if mayPause s.1 then 1 else 0

theorem passesLeft_le (s : LoopState) : passesLeft s ≤ 2 * s.2.2.1.length := by
  unfold passesLeft
  split
  · exact Nat.zero_le _
  · next hne =>
    have hpos := List.length_pos_iff.mpr hne
    split <;> omega

theorem passesLeft_of_pauses {s : LoopState} (hne : s.2.2.1 ≠ []) (h : mayPause s.1 = true) :
    passesLeft s = 2 * s.2.2.1.length := by
  have hpos := List.length_pos_iff.mpr hne
  simp only [passesLeft, if_neg hne, h, if_true]
  omega

/-- One pass less, when the next one takes a byte. -/
theorem passesLeft_of_not {s : LoopState} (h : mayPause s.1 = false) :
    passesLeft s = 2 * s.2.2.1.length - 1 := by
  unfold passesLeft
  split
  · next hnil => simp [hnil]
  · simp [h]

theorem blockEnd_transition (st : Parser) :
    (blockEnd st).transition.bulkRead = st.bulkRead ∧
      (blockEnd st).transition.parse ≠ .blockEnd := by
  unfold blockEnd
  split
  · exact ⟨rfl, fun h => nomatch h⟩
  · exact ⟨rfl, fun h => nomatch h⟩

/-- Behind a bulk read the next pass takes a byte. -/
theorem readNull_not_mayPause {st : Parser} (h : st.bulkRead = false) :
    mayPause (readNull st) = false := by
  unfold readNull
  split
  · obtain ⟨hbulk, hparse⟩ := blockEnd_transition st
    simp [mayPause, hbulk, h, hparse]
  · next hparse => simp [mayPause, h, hparse]

theorem passIterator_aligned {rest : List UInt8} {iterator : Option CborValue} {parsed : Nat}
    {st : Parser} (h : Aligned (st, parsed, rest, iterator)) :
    (passIterator reference rest iterator).2.rest.length = rest.length := by
  cases iterator with
  | some it => exact h it rfl
  | none => exact congrArg List.length (preparseValue_rest (some 1) rest)

/-- Behind a stage the iterator stands at the bytes that are left again. -/
theorem aligned_next {rest : List UInt8} (hle : it.rest.length ≤ rest.length) (st : Parser)
    (parsed : Nat) :
    Aligned (st, parsed, rest.drop (rest.length - it.rest.length),
      if it.atEnd then none else some it) := by
  intro it' hit
  dsimp only at hit ⊢
  split at hit
  · cases hit
  · obtain rfl := Option.some.inj hit
    rw [List.length_drop]
    omega

/-- A pass keeps the iterator at the bytes that are left, and is one of those that were left. -/
theorem readPass_spec {quota : Nat} {s s' : LoopState} (h : Aligned s)
    (hpass : readPass reference quota s = .inr s') : Aligned s' ∧ passesLeft s' < passesLeft s := by
  obtain ⟨st, parsed, rest, iterator⟩ := s
  have halign := passIterator_aligned h
  rw [readPass] at hpass
  split at hpass
  · cases hpass
  next hgo =>
  have hne : rest ≠ [] := (not_or.mp hgo).1
  have hpos := List.length_pos_iff.mpr hne
  by_cases hbulk : st.bulkRead = true
  · have hnow : passesLeft (st, parsed, rest, iterator) = 2 * rest.length :=
      passesLeft_of_pauses hne (by simp [mayPause, hbulk])
    rw [if_pos hbulk] at hpass
    split at hpass
    · cases hpass
    · obtain rfl := Sum.inr.inj hpass
      refine ⟨fun it hit => (nomatch hit), ?_⟩
      rw [hnow, passesLeft_of_not (readNull_not_mayPause rfl)]
      simp only [List.length_drop]
      omega
  rw [if_neg hbulk] at hpass
  rcases hiterator : passIterator reference rest iterator with ⟨err, it⟩
  rw [hiterator] at hpass halign
  dsimp only at hpass halign
  split at hpass
  · cases hpass
  split at hpass
  · cases hpass
  rcases hrun : runStage reference st.parse st it with ⟨e | it', st'⟩
  · rw [hrun] at hpass
    cases hpass
  rw [hrun] at hpass
  dsimp only at hpass
  split at hpass
  · cases hpass
  obtain rfl := Sum.inr.inj hpass
  by_cases hend : st.parse = .blockEnd
  · -- no byte is taken, but the next stage takes one
    have hnow : passesLeft (st, parsed, rest, iterator) = 2 * rest.length :=
      passesLeft_of_pauses hne (by simp [mayPause, hend])
    rw [hend] at hrun
    obtain ⟨hit, hst⟩ := Prod.mk.inj hrun
    obtain rfl := Except.ok.inj hit
    subst hst
    obtain ⟨hbulk', hparse'⟩ := blockEnd_transition st
    refine ⟨aligned_next (Nat.le_of_eq halign) _ _, ?_⟩
    have hnext : mayPause (blockEnd st).transition = false := by
      simp [mayPause, hbulk', hparse', hbulk]
    rw [hnow, passesLeft_of_not hnext]
    simp only [List.length_drop]
    omega
  · have hlt := runStage_consumes st hend it it' (by rw [hrun])
    refine ⟨aligned_next (by omega) _ _, ?_⟩
    have hle := passesLeft_le ((accountFor
      { st' with bundleSize := st'.bundleSize + (rest.length - it'.rest.length) }
      (rest.take (rest.length - it'.rest.length))).transition,
      parsed + (rest.length - it'.rest.length), rest.drop (rest.length - it'.rest.length),
      if it'.atEnd then none else some it')
    have hnow : passesLeft (st, parsed, rest, iterator) = 2 * rest.length - 1 :=
      passesLeft_of_not (by simp [mayPause, hbulk, hend])
    rw [hnow]
    simp only [List.length_drop] at hle
    omega

/-- **The loop of `bundle7_parser_read` ends**, and with the result that it has in
`bundle7ParserRead`. -/
theorem bundle7ParserRead_ends {T : TinyCbor} (hT : T.Documented) (quota : Nat) (st : Parser)
    (buffer : List UInt8) :
    ∃ n, Ends (readPass T quota) (st, 0, buffer, none) n
      (bundle7ParserRead T quota st buffer) := by
  obtain rfl := hT.eq_reference
  obtain ⟨n, r, hn, hends⟩ := exists_ends Aligned passesLeft
    (fun s s' hs hpass => readPass_spec hs hpass) (s := (st, 0, buffer, none))
    (fun it hit => nomatch hit)
  have hle := passesLeft_le (st, 0, buffer, none)
  have hresult := hends.eq_of_le
    (fun fuel s => readLoop reference quota fuel s.1 s.2.1 s.2.2.1 s.2.2.2)
    (readLoop_readPass reference quota) (2 * buffer.length + 2) (by dsimp only at hle; omega)
  refine ⟨n, ?_⟩
  rw [bundle7ParserRead, hresult]
  exact hends

end Bundle7
