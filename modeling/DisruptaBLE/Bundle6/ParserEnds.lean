import DisruptaBLE.Bundle6.StageFields
import DisruptaBLE.Lib.EndingLoop

/-!
# The parser of version 6 ends

The loop of `bundle6_parser_read` ends by itself.  A pass takes a byte, or it is the pass of a bulk
read, which may be one of no bytes.  The parser waits for a bulk read only at the data of a block
(`AwaitsData`), and then the bulk read leads to another stage, so that the pass behind it takes a
byte.
-/

namespace Bundle6

open BundleProcessor
open EndingLoop

variable {limits : Limits} {state : Parser}

/-- A pass of the loop of `bundle6_parser_read`, with the bytes that are left. -/
def readPass (limits : Limits) :
    Parser × List UInt8 → (Parser × List UInt8) ⊕ (Parser × List UInt8)
  | (state, []) => .inl (state, [])
  | (state, byte :: rest) =>
      if state.status ≠ .good then .inl (state, byte :: rest)
      else if state.bulkRead then
        if (byte :: rest).length < state.nextBytes then .inl (state, byte :: rest)
        else
          .inr (bulkReadDone limits state ((byte :: rest).take state.nextBytes),
            (byte :: rest).drop state.nextBytes)
      else .inr (bundle6ParserReadByte limits state byte, rest)

theorem readLoop_readPass (fuel : Nat) (s : Parser × List UInt8) :
    bundle6ParserReadLoop limits (fuel + 1) s.1 s.2 =
      (readPass limits s).elim id (fun s => bundle6ParserReadLoop limits fuel s.1 s.2) := by
  obtain ⟨state, rest⟩ := s
  cases rest with
  | nil => rfl
  | cons byte rest =>
      rw [bundle6ParserReadLoop, readPass]
      split
      · rfl
      · split
        · split <;> rfl
        · rfl

/-! ## Where a bulk read is asked for -/

/-- A bulk read is only waited for at the data of a block. -/
def AwaitsData (state : Parser) : Prop := state.bulkRead = true → state.currentStage = .blockData

theorem enterStage_nextStage (state : Parser) :
    (enterStage limits state).nextStage = state.nextStage := by
  unfold enterStage
  split <;> try rfl
  all_goals
    dsimp only
    split
    · rfl
    · first
      | rfl
      | (split <;> rfl)

theorem enterStage_bulkRead (hdata : state.nextStage ≠ .blockData) :
    (enterStage limits state).bulkRead = state.bulkRead := by
  cases hstage : state.nextStage with
  | blockData => exact absurd hstage hdata
  | dictionary =>
      simp only [enterStage, hstage]
      split
      · rfl
      · split <;> rfl
  | _ => simp only [enterStage, hstage]

/-- The stage to which a parser changes asks for a bulk read only if it is the data of a block. -/
theorem changeStage_bulkRead (hdata : state.nextStage ≠ .blockData) :
    (changeStage limits state).bulkRead = state.bulkRead := by
  unfold changeStage
  split
  · rw [(next_fields limits state).1, enterStage_bulkRead hdata]
  · rfl

theorem changeStage_awaitsData (h : state.bulkRead = false) :
    AwaitsData (changeStage limits state) := by
  intro hbulk
  by_cases hdata : state.nextStage = .blockData
  · unfold changeStage at hbulk ⊢
    split
    · rw [(next_fields limits state).2.2, enterStage_nextStage, hdata]
    · next hstay =>
      rw [if_neg hstay, h] at hbulk
      cases hbulk
  · rw [changeStage_bulkRead hdata, h] at hbulk
    cases hbulk

/-- A byte leads to a bulk read at the data of a block only. -/
theorem readByte_awaitsData (h : state.bulkRead = false) (byte : UInt8) :
    AwaitsData (bundle6ParserReadByte limits state byte) := by
  unfold bundle6ParserReadByte
  split
  · intro hbulk
    rw [h] at hbulk
    cases hbulk
  · apply changeStage_awaitsData
    rw [stageByte_bulkRead, (countPrimaryByte_fields state).1, h]

/-- Behind the data of a block stands another stage. -/
theorem stageByte_blockData (h : state.currentStage = .blockData) (byte : UInt8) :
    (stageByte state byte).status = .error ∨ (stageByte state byte).nextStage ≠ .blockData := by
  simp only [stageByte, h]
  split
  · exact Or.inl rfl
  · split
    · right
      intro hnext
      cases hnext
    · right
      intro hnext
      cases hnext

theorem readByte_blockData (hstage : state.currentStage = .blockData) (h : state.bulkRead = false)
    (byte : UInt8) : (bundle6ParserReadByte limits state byte).bulkRead = false := by
  obtain ⟨hcount, -, hcountStage⟩ := countPrimaryByte_fields state
  have hsame : (stageByte (countPrimaryByte state) byte).bulkRead = false := by
    rw [stageByte_bulkRead, hcount, h]
  unfold bundle6ParserReadByte
  split
  · exact h
  · rcases stageByte_blockData (hcountStage.trans hstage) byte with hfailed | hnext
    · rw [changeStage, if_neg (fun hchange => hchange.2 hfailed), hsame]
    · rw [changeStage_bulkRead hnext, hsame]

/-- When a bulk read is done, there is not another one at once. -/
theorem bulkReadDone_bulkRead (hstage : state.currentStage = .blockData) (bytes : List UInt8) :
    (bulkReadDone limits state bytes).bulkRead = false :=
  @readByte_blockData limits
    { state with block := { state.block with data := bytes }, bulkRead := false } hstage rfl 0

/-! ## The loop -/

/-- The passes that the loop may still take behind this one. -/
def passesLeft (s : Parser × List UInt8) : Nat :=
  if s.2 = [] then 0 else 2 * s.2.length - 1 + if s.1.bulkRead then 1 else 0

theorem passesLeft_le (s : Parser × List UInt8) : passesLeft s ≤ 2 * s.2.length := by
  unfold passesLeft
  split
  · exact Nat.zero_le _
  · next hne =>
    have hpos := List.length_pos_iff.mpr hne
    split <;> omega

/-- With no bulk read to come, one pass less. -/
theorem passesLeft_lt {rest : List UInt8} (hne : rest ≠ []) (h : state.bulkRead = false) :
    passesLeft (state, rest) < 2 * rest.length := by
  have hpos := List.length_pos_iff.mpr hne
  simp only [passesLeft, if_neg hne, h, Bool.false_eq_true, if_false]
  omega

/-- A pass keeps the place of bulk reads, and is one of those that were left. -/
theorem readPass_spec {s s' : Parser × List UInt8} (h : AwaitsData s.1)
    (hpass : readPass limits s = .inr s') : AwaitsData s'.1 ∧ passesLeft s' < passesLeft s := by
  obtain ⟨state, rest⟩ := s
  cases rest with
  | nil => cases hpass
  | cons byte rest =>
      rw [readPass] at hpass
      split at hpass
      · cases hpass
      · by_cases hbulk : state.bulkRead = true
        · rw [if_pos hbulk] at hpass
          split at hpass
          · cases hpass
          · obtain rfl := Sum.inr.inj hpass
            have hdone : (bulkReadDone limits state
                ((byte :: rest).take state.nextBytes)).bulkRead = false :=
              bulkReadDone_bulkRead (h hbulk) _
            refine ⟨fun hagain => ?_, ?_⟩
            · rw [hdone] at hagain
              cases hagain
            · have hnow : passesLeft (state, byte :: rest) = 2 * (rest.length + 1) := by
                simp only [passesLeft, List.cons_ne_nil, if_false, hbulk, if_true, List.length_cons]
                omega
              rw [hnow]
              by_cases hnil : (byte :: rest).drop state.nextBytes = []
              · simp only [passesLeft, hnil, if_true]
                omega
              · have hlt := passesLeft_lt hnil hdone
                simp only [List.length_drop, List.length_cons] at hlt
                omega
        · rw [if_neg hbulk] at hpass
          obtain rfl := Sum.inr.inj hpass
          have hfalse : state.bulkRead = false := Bool.eq_false_iff.mpr hbulk
          refine ⟨readByte_awaitsData hfalse byte, ?_⟩
          have hle := passesLeft_le (bundle6ParserReadByte limits state byte, rest)
          simp only [passesLeft, List.cons_ne_nil, if_false, hbulk, List.length_cons] at hle ⊢
          omega

/-- **The loop of `bundle6_parser_read` ends**, and with the result that it has in
`bundle6ParserRead`. -/
theorem bundle6ParserRead_ends (limits : Limits) (h : AwaitsData state) (buffer : List UInt8) :
    ∃ n, Ends (readPass limits) (state, buffer) n (bundle6ParserRead limits state buffer) := by
  obtain ⟨n, r, hn, hends⟩ := exists_ends (fun s => AwaitsData s.1) passesLeft
    (fun s s' hs hpass => readPass_spec hs hpass) (s := (state, buffer)) h
  have hle := passesLeft_le (state, buffer)
  have hresult := hends.eq_of_le (fun fuel s => bundle6ParserReadLoop limits fuel s.1 s.2)
    readLoop_readPass (2 * buffer.length + 1) (by dsimp only at hle; omega)
  refine ⟨n, ?_⟩
  rw [bundle6ParserRead, hresult]
  exact hends

/-- The parser keeps the place of bulk reads. -/
theorem bundle6ParserRead_awaitsData (limits : Limits) (h : AwaitsData state)
    (buffer : List UInt8) : AwaitsData (bundle6ParserRead limits state buffer).1 := by
  obtain ⟨n, hends⟩ := bundle6ParserRead_ends limits h buffer
  refine hends.invariant (I := fun s => AwaitsData s.1) (Q := fun r => AwaitsData r.1) h
    (fun s s' hs hpass => (readPass_spec hs hpass).1) ?_
  intro s r hs hpass
  obtain ⟨state, rest⟩ := s
  cases rest with
  | nil =>
      obtain rfl := Sum.inl.inj hpass
      exact hs
  | cons byte rest =>
      rw [readPass] at hpass
      split at hpass
      · obtain rfl := Sum.inl.inj hpass
        exact hs
      · split at hpass
        · split at hpass
          · obtain rfl := Sum.inl.inj hpass
            exact hs
          · cases hpass
        · cases hpass

end Bundle6
