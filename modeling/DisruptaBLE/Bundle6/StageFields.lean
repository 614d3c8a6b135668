import DisruptaBLE.Bundle6.Parser

/-!
# What the stages leave alone

The size of the bundle and the request for a bulk read, over a byte of `bundle6_parser_read_byte`:
its stage reads the size only from the number of references, and asks for no bulk read.  Both are
set where a stage is entered.
-/

namespace Bundle6

variable {state : Parser}

theorem waitForSdnv_fields (state : Parser) (next : Stage) :
    (bundle6ParserWaitForSdnv state next).1.bulkRead = state.bulkRead ∧
      (bundle6ParserWaitForSdnv state next).1.currentSize = state.currentSize := by
  unfold bundle6ParserWaitForSdnv
  split <;> exact ⟨rfl, rfl⟩

theorem readField_bulkRead {α : Type} {f : Field α}
    (h : ∀ state value, (f.set state value).bulkRead = state.bulkRead) (next : Stage)
    (state : Parser) (byte : UInt8) :
    (readField f next state byte).1.bulkRead = state.bulkRead :=
  (waitForSdnv_fields _ _).1.trans (h _ _)

/-- A field other than the number of references. -/
theorem readField_fields {α : Type} {f : Field α}
    (hbulk : ∀ state value, (f.set state value).bulkRead = state.bulkRead)
    (hsize : ∀ state value, (f.set state value).currentSize = state.currentSize) (next : Stage)
    (state : Parser) (byte : UInt8) :
    (readField f next state byte).1.bulkRead = state.bulkRead ∧
      (readField f next state byte).1.currentSize = state.currentSize :=
  ⟨readField_bulkRead hbulk next state byte, (waitForSdnv_fields _ _).2.trans (hsize _ _)⟩

theorem readPrimaryEids_fields (state : Parser) :
    (readPrimaryEids state).bulkRead = state.bulkRead ∧
      (readPrimaryEids state).currentSize = state.currentSize := by
  unfold readPrimaryEids
  dsimp only
  split
  · split <;> exact ⟨rfl, rfl⟩
  · exact ⟨rfl, rfl⟩

/-- No stage but the number of references changes one of the two. -/
theorem stageByte_fields (h : state.currentStage ≠ .blockEidRefCnt) (byte : UInt8) :
    (stageByte state byte).bulkRead = state.bulkRead ∧
      (stageByte state byte).currentSize = state.currentSize := by
  cases hstage : state.currentStage with
  | version => simp only [stageByte, hstage, and_self]
  | dictionary =>
      simp only [stageByte, hstage]
      split
      · exact readPrimaryEids_fields _
      · exact ⟨rfl, rfl⟩
  | blockType =>
      simp only [stageByte, hstage, bundle6ParserBeginBlock]
      split <;> exact ⟨rfl, rfl⟩
  | blockFlags =>
      have hread := readField_fields (f := Field.blockFlags) (fun _ _ => rfl) (fun _ _ => rfl)
        .blockDataLength state byte
      simp only [stageByte, hstage]
      split
      · split <;> exact hread
      · exact hread
  | blockEidRefCnt => exact absurd hstage h
  | blockEidRefSsp =>
      have hread := readField_fields (f := Field.eidRefSsp) (fun _ _ => rfl) (fun _ _ => rfl)
        .blockEidRefSch state byte
      simp only [stageByte, hstage]
      split
      · split
        · exact hread
        · split <;> exact hread
      · exact hread
  | blockData =>
      simp only [stageByte, hstage]
      split
      · exact ⟨rfl, rfl⟩
      · split <;> exact ⟨rfl, rfl⟩
  | done => simp only [stageByte, hstage, and_self]
  | _ =>
      simp only [stageByte, hstage]
      exact readField_fields (fun _ _ => rfl) (fun _ _ => rfl) _ state byte

/-- Only the number of references is read into `current_size`. -/
theorem stageByte_currentSize (h : state.currentStage ≠ .blockEidRefCnt) (byte : UInt8) :
    (stageByte state byte).currentSize = state.currentSize := (stageByte_fields h byte).2

/-- No stage asks for a bulk read by a byte. -/
theorem stageByte_bulkRead (state : Parser) (byte : UInt8) :
    (stageByte state byte).bulkRead = state.bulkRead := by
  by_cases hstage : state.currentStage = .blockEidRefCnt
  · have hread := readField_bulkRead (f := Field.eidRefCount) (fun _ _ => rfl) .blockEidRefSch
      state byte
    simp only [stageByte, hstage]
    split
    · split <;> exact hread
    · exact hread
  · exact (stageByte_fields hstage byte).1

theorem countPrimaryByte_fields (state : Parser) :
    (countPrimaryByte state).bulkRead = state.bulkRead ∧
      (countPrimaryByte state).currentSize = state.currentSize ∧
        (countPrimaryByte state).currentStage = state.currentStage := by
  unfold countPrimaryByte
  split <;> exact ⟨rfl, rfl, rfl⟩

/-- `bundle6_parser_next` enters the stage, and only a bundle that is complete is sent besides. -/
theorem next_fields (limits : Limits) (state : Parser) :
    (bundle6ParserNext limits state).bulkRead = (enterStage limits state).bulkRead ∧
      (bundle6ParserNext limits state).currentSize = (enterStage limits state).currentSize ∧
        (bundle6ParserNext limits state).currentStage = (enterStage limits state).nextStage := by
  unfold bundle6ParserNext bundle6ParserSendBundle
  dsimp only
  split
  · split <;> exact ⟨rfl, rfl, rfl⟩
  · exact ⟨rfl, rfl, rfl⟩

end Bundle6
