import DisruptaBLE.Bundle6.StageFields

/-!
# The quota of the parser of version 6

`current_size` begins with the storage that is in use, and `bundle6_parser_next` adds the length of
a buffer to it before it compares it with `BUNDLE_QUOTA` and requests the buffer.  `Buffered`
records these sums and the requests, which may be refused.

The number of EID references of a block is read into `current_size` as well.  Behind it the sum
does not know of the buffers that were requested before, and a long block can wrap it in any case
(`within_storage_quota_iff`).
-/

namespace Bundle6

open BundleProcessor
open ClaRx (ParserStatus)

/-- The parser and its requests for the dictionary and the data of blocks. -/
structure Buffered where
  state : Parser
  /-- `bundle_storage_get_usage` at the reset -/
  usage : UInt32
  /-- the sizes of the buffers that were requested for this bundle -/
  requested : List Nat
  /-- what was to be stored in `current_size` by the additions -/
  sums : List Nat
  /-- a number of EID references was read into `current_size` -/
  counted : Bool
  deriving DecidableEq, Repr

variable (limits : Limits) (malloc : List Nat → Nat → Bool)

/-- The addition that a byte leads to: `current_size`, and the size of the buffer. -/
def entering (state : Parser) (byte : UInt8) : Option (UInt32 × Nat) :=
  if state.currentBlock = .primary ∧ lengthKnown state ∧ state.primaryBytesRemaining = 0 then none
  else
    let state := stageByte (countPrimaryByte state) byte
    if state.currentStage ≠ state.nextStage ∧ state.status ≠ .error then
      match state.nextStage with
      | .dictionary =>
          if state.dictLength = 0 then none
          else some (state.currentSize, state.dictLength.toNat + 1)
      | .blockData => some (state.currentSize, state.block.length.toNat)
      | _ => none
    else none

/-- A number of EID references was read into `current_size`, or will be with the next byte. -/
def Buffered.counts (x : Buffered) : Bool :=
  x.counted || x.state.currentStage = .blockEidRefCnt

/-- `bundle6_parser_read_byte`, with the request for a buffer. -/
def readByteAlloc (x : Buffered) (byte : UInt8) : Buffered :=
  let state := bundle6ParserReadByte limits x.state byte
  let counted := x.counts
  match entering x.state byte with
  | none => { x with state, counted }
  | some (size, n) =>
      let sums := x.sums ++ [size.toNat + n]
      if state.status = .error then { x with state, sums, counted }
      else
        let requested := x.requested ++ [n]
        if malloc x.requested n then { x with state, requested, sums, counted }
        else
          { x with
            state := { state with status := .error, bulkRead := false }
            requested, sums, counted }

/-- What the parser is given next. -/
inductive Input where
  /-- a byte -/
  | byte (b : UInt8)
  /-- the bytes of a bulk read -/
  | bulk (bytes : List UInt8)
  deriving DecidableEq, Repr

/-- The byte that the parser reads for an input, and the parser in front of it.  A bulk read ends
with a zero byte. -/
def Buffered.reads (x : Buffered) : Input → Option (Buffered × UInt8)
  | .byte b => if x.state.status = .good ∧ x.state.bulkRead = false then some (x, b) else none
  | .bulk bytes =>
      if x.state.status = .good ∧ x.state.bulkRead = true ∧ bytes.length = x.state.nextBytes then
        some ({ x with
          state := { x.state with
            block := { x.state.block with data := bytes }
            bulkRead := false } }, 0)
      else none

/-- An input. -/
def Buffered.input (x : Buffered) (i : Input) : Buffered :=
  match x.reads i with
  | some (y, byte) => readByteAlloc limits malloc y byte
  | none => x

/-- The parser behind `bundle6_parser_reset`. -/
def Buffered.reset (usage : UInt32) (state : Parser) : Buffered where
  state := bundle6ParserReset limits usage state
  usage := usage
  requested := []
  sums := []
  counted := false

/-! ## Runs -/

/-- The storage in use and the requested buffers are within the quota, and no addition has
wrapped. -/
structure Buffered.Within (x : Buffered) : Prop where
  requested_le : x.usage.toNat + x.requested.sum ≤ limits.bundleQuota.toNat
  sum_lt : ∀ n ∈ x.sums, n < 2 ^ 32

/-- At every point of a run the quota is kept. -/
def AlwaysWithin : Buffered → List Input → Prop
  | x, [] => x.Within limits
  | x, i :: inputs => x.Within limits ∧ AlwaysWithin (x.input limits malloc i) inputs

/-- The addition that a byte leads to does not wrap.  When `current_size` was replaced by a number
of references, the buffer must fit into what the requested ones have left of the quota. -/
def Buffered.Fits (x : Buffered) (byte : UInt8) : Prop :=
  ∀ size n, entering x.state byte = some (size, n) →
    size.toNat + n < 2 ^ 32 ∧
      (x.counts = true → size.toNat + n ≤ limits.bundleQuota.toNat →
        x.usage.toNat + x.requested.sum + n ≤ limits.bundleQuota.toNat)

/-- Every buffer of a run fits. -/
def AlwaysFits : Buffered → List Input → Prop
  | _, [] => True
  | x, i :: inputs =>
      (∀ y byte, x.reads i = some (y, byte) → y.Fits limits byte) ∧
        AlwaysFits (x.input limits malloc i) inputs

/-! ## The size -/

variable {limits malloc} {x y : Buffered} {state : Parser} {byte : UInt8}

theorem enterStage_currentSize (hdict : state.nextStage ≠ .dictionary)
    (hdata : state.nextStage ≠ .blockData) :
    (enterStage limits state).currentSize = state.currentSize := by
  cases hstage : state.nextStage with
  | dictionary => exact absurd hstage hdict
  | blockData => exact absurd hstage hdata
  | _ => simp only [enterStage, hstage]

/-- A stage leaves `current_size` alone, unless it reads it. -/
theorem counted_currentSize (hstage : state.currentStage ≠ .blockEidRefCnt) (byte : UInt8) :
    (stageByte (countPrimaryByte state) byte).currentSize = state.currentSize := by
  obtain ⟨-, hcount, hcountStage⟩ := countPrimaryByte_fields state
  exact (stageByte_currentSize (by rw [hcountStage]; exact hstage) byte).trans hcount

/-- Without an addition `current_size` stays, unless it is read. -/
theorem readByte_of_none (h : entering state byte = none)
    (hstage : state.currentStage ≠ .blockEidRefCnt) :
    (bundle6ParserReadByte limits state byte).currentSize = state.currentSize := by
  have hsize := counted_currentSize hstage byte
  unfold entering at h
  unfold bundle6ParserReadByte
  split
  · rfl
  · next hopen =>
    rw [if_neg hopen] at h
    dsimp only at h
    unfold changeStage
    split
    · next hchange =>
      rw [if_pos hchange] at h
      rw [(next_fields limits _).2.1, ← hsize]
      generalize stageByte (countPrimaryByte state) byte = s at h
      by_cases hdict : s.nextStage = .dictionary
      · simp only [hdict] at h
        simp only [enterStage, hdict]
        split
        · rfl
        · next hlength =>
          rw [if_neg hlength] at h
          cases h
      · by_cases hdata : s.nextStage = .blockData
        · simp only [hdata] at h
          cases h
        · exact enterStage_currentSize hdict hdata
    · exact hsize

/-- **The addition** to `current_size`, and the comparison behind it. -/
theorem readByte_of_some {size : UInt32} {n : Nat} (h : entering state byte = some (size, n)) :
    (bundle6ParserReadByte limits state byte).currentSize.toNat = (size.toNat + n) % 2 ^ 32 ∧
      ((bundle6ParserReadByte limits state byte).status = .error ↔
        limits.bundleQuota.toNat < (size.toNat + n) % 2 ^ 32) := by
  unfold entering at h
  unfold bundle6ParserReadByte
  split at h
  · cases h
  · next hopen =>
    rw [if_neg hopen]
    dsimp only at h
    generalize stageByte (countPrimaryByte state) byte = s at h
    split at h
    · next hchange =>
      have hnext : changeStage limits s = bundle6ParserNext limits s := if_pos hchange
      rw [hnext]
      split at h
      · next hdict =>
        split at h
        · cases h
        · next hlength =>
          obtain ⟨rfl, rfl⟩ := Prod.mk.inj (Option.some.inj h)
          have hsum : (s.currentSize + (s.dictLength.toUInt32 + 1)).toNat =
              (s.currentSize.toNat + (s.dictLength.toNat + 1)) % 2 ^ 32 := by
            rw [UInt32.toNat_add, UInt32.toNat_add, UInt16.toNat_toUInt32]
            exact Nat.add_mod_mod _ _ _
          simp only [bundle6ParserNext, enterStage, hdict, if_neg hlength]
          rw [← hsum, ← UInt32.lt_iff_toNat_lt]
          split
          · next hover => exact ⟨rfl, iff_of_true rfl hover⟩
          · next hfits => exact ⟨rfl, iff_of_false hchange.2 hfits⟩
      · next hdata =>
        obtain ⟨rfl, rfl⟩ := Prod.mk.inj (Option.some.inj h)
        simp only [bundle6ParserNext, enterStage, hdata]
        rw [← UInt32.toNat_add, ← UInt32.lt_iff_toNat_lt]
        split
        · next hover => exact ⟨rfl, iff_of_true rfl hover⟩
        · next hfits => exact ⟨rfl, iff_of_false hchange.2 hfits⟩
      · cases h
    · cases h

theorem entering_size {size : UInt32} {n : Nat} (h : entering state byte = some (size, n))
    (hstage : state.currentStage ≠ .blockEidRefCnt) : size = state.currentSize := by
  have hsize := counted_currentSize hstage byte
  unfold entering at h
  split at h
  · cases h
  · dsimp only at h
    generalize stageByte (countPrimaryByte state) byte = s at h hsize
    split at h
    · split at h
      · split at h
        · cases h
        · rw [← (Prod.mk.inj (Option.some.inj h)).1, hsize]
      · rw [← (Prod.mk.inj (Option.some.inj h)).1, hsize]
      · cases h
    · cases h

/-! ## One byte -/

/-- As long as no number of references was read, `current_size` knows of all buffers. -/
def Accounted (limits : Limits) (x : Buffered) : Prop :=
  x.counted = false → x.state.status = .good →
    x.state.currentSize.toNat =
      x.usage.toNat + limits.sizeofBundle.toNat + x.requested.sum

/-- The sum and the request of a byte, when nothing wraps. -/
theorem readByteAlloc_cases (limits : Limits) (malloc : List Nat → Nat → Bool) (x : Buffered)
    (byte : UInt8) :
    (entering x.state byte = none ∧
      readByteAlloc limits malloc x byte =
        { x with state := bundle6ParserReadByte limits x.state byte, counted := x.counts }) ∨
    ∃ size n, entering x.state byte = some (size, n) ∧
      (readByteAlloc limits malloc x byte).usage = x.usage ∧
      (readByteAlloc limits malloc x byte).sums = x.sums ++ [size.toNat + n] ∧
      (readByteAlloc limits malloc x byte).counted = x.counts ∧
      ((limits.bundleQuota.toNat < (size.toNat + n) % 2 ^ 32 ∧
          (readByteAlloc limits malloc x byte).requested = x.requested ∧
          (readByteAlloc limits malloc x byte).state.status = .error) ∨
        ((size.toNat + n) % 2 ^ 32 ≤ limits.bundleQuota.toNat ∧
          (readByteAlloc limits malloc x byte).requested = x.requested ++ [n] ∧
          ((readByteAlloc limits malloc x byte).state.status = .error ∨
            (readByteAlloc limits malloc x byte).state.currentSize.toNat =
              (size.toNat + n) % 2 ^ 32))) := by
  unfold readByteAlloc
  dsimp only
  cases henter : entering x.state byte with
  | none => exact .inl ⟨rfl, rfl⟩
  | some entered =>
      obtain ⟨size, n⟩ := entered
      obtain ⟨hsize, hstatus⟩ := @readByte_of_some limits _ _ _ _ henter
      refine .inr ⟨size, n, rfl, ?_⟩
      dsimp only
      by_cases hover : (bundle6ParserReadByte limits x.state byte).status = .error
      · rw [if_pos hover]
        exact ⟨rfl, rfl, rfl, .inl ⟨hstatus.mp hover, rfl, hover⟩⟩
      · rw [if_neg hover]
        have hle := Nat.le_of_not_lt (mt hstatus.mpr hover)
        split
        · exact ⟨rfl, rfl, rfl, .inr ⟨hle, rfl, .inr hsize⟩⟩
        · exact ⟨rfl, rfl, rfl, .inr ⟨hle, rfl, .inl rfl⟩⟩

theorem within_iff_of_sum (hx : (readByteAlloc limits malloc x byte).usage = x.usage) {sum : Nat}
    (hsums : (readByteAlloc limits malloc x byte).sums = x.sums ++ [sum]) {requested : List Nat}
    (hrequested : (readByteAlloc limits malloc x byte).requested = x.requested ++ requested) :
    (readByteAlloc limits malloc x byte).Within limits ↔
      x.usage.toNat + x.requested.sum + requested.sum ≤ limits.bundleQuota.toNat ∧
        (∀ n ∈ x.sums, n < 2 ^ 32) ∧ sum < 2 ^ 32 := by
  have hsum : ∀ {P : Nat → Prop}, (∀ n ∈ x.sums ++ [sum], P n) ↔ (∀ n ∈ x.sums, P n) ∧ P sum := by
    intro P
    rw [List.forall_mem_append, List.forall_mem_singleton]
  constructor
  · rintro ⟨hle, hlt⟩
    rw [hx, hrequested, List.sum_append, ← Nat.add_assoc] at hle
    rw [hsums] at hlt
    exact ⟨hle, hsum.mp hlt⟩
  · rintro ⟨hle, hlt⟩
    refine ⟨?_, ?_⟩
    · rw [hx, hrequested, List.sum_append, ← Nat.add_assoc]
      exact hle
    · rw [hsums]
      exact hsum.mpr hlt

/-- **One byte** keeps the quota exactly when the buffer that it leads to fits. -/
theorem readByteAlloc_within (h : x.Within limits) (haccounted : Accounted limits x)
    (hgood : x.state.status = .good) :
    ((readByteAlloc limits malloc x byte).Within limits ↔ x.Fits limits byte) ∧
      ((readByteAlloc limits malloc x byte).Within limits →
        Accounted limits (readByteAlloc limits malloc x byte)) := by
  have hcounts : x.counts = false →
      x.counted = false ∧ x.state.currentStage ≠ .blockEidRefCnt := by
    intro hcounts
    obtain ⟨hcounted, hstage⟩ := (Bool.or_eq_false_iff).mp hcounts
    exact ⟨hcounted, of_decide_eq_false hstage⟩
  rcases readByteAlloc_cases limits malloc x byte with
    ⟨hnone, hread⟩ | ⟨size, n, henter, husage, hsums, hcounted, hcase⟩
  · rw [hread]
    refine ⟨iff_of_true ⟨h.requested_le, h.sum_lt⟩ fun size n henter => ?_, fun _ hcounted _ => ?_⟩
    · rw [hnone] at henter
      cases henter
    · obtain ⟨hbefore, hstage⟩ := hcounts hcounted
      dsimp only
      rw [readByte_of_none hnone hstage]
      exact haccounted hbefore hgood
  · -- what `current_size` knows of in front of the addition
    have hsize : x.counts = false → size.toNat =
        x.usage.toNat + limits.sizeofBundle.toNat + x.requested.sum := by
      intro hfalse
      obtain ⟨hbefore, hstage⟩ := hcounts hfalse
      rw [entering_size henter hstage]
      exact haccounted hbefore hgood
    have hfits : x.Fits limits byte ↔ size.toNat + n < 2 ^ 32 ∧
        (x.counts = true → size.toNat + n ≤ limits.bundleQuota.toNat →
          x.usage.toNat + x.requested.sum + n ≤ limits.bundleQuota.toNat) := by
      constructor
      · exact fun hfits => hfits size n henter
      · intro hfits size' n' henter'
        obtain ⟨rfl, rfl⟩ := Prod.mk.inj (Option.some.inj (henter.symm.trans henter'))
        exact hfits
    rw [hfits]
    rcases hcase with ⟨hover, hrequested, herror⟩ | ⟨hle, hrequested, hlater⟩
    · rw [within_iff_of_sum husage hsums (hrequested.trans (List.append_nil _).symm)]
      refine ⟨?_, fun _ _ hgood' => ?_⟩
      · constructor
        · rintro ⟨-, -, hlt⟩
          rw [Nat.mod_eq_of_lt hlt] at hover
          exact ⟨hlt, fun _ hle => absurd hle (Nat.not_le.mpr hover)⟩
        · rintro ⟨hlt, -⟩
          exact ⟨h.requested_le, h.sum_lt, hlt⟩
      · rw [herror] at hgood'
        cases hgood'
    · rw [within_iff_of_sum husage hsums hrequested, List.sum_singleton]
      refine ⟨?_, fun hwithin hcounted' hgood' => ?_⟩
      · constructor
        · rintro ⟨hroom, -, hlt⟩
          exact ⟨hlt, fun _ _ => hroom⟩
        · rintro ⟨hlt, hroom⟩
          rw [Nat.mod_eq_of_lt hlt] at hle
          refine ⟨?_, h.sum_lt, hlt⟩
          cases hfalse : x.counts with
          | true => exact hroom hfalse hle
          | false =>
              have := hsize hfalse
              omega
      · rcases hlater with herror | hsize'
        · rw [herror] at hgood'
          cases hgood'
        · have hstart := hsize (hcounted ▸ hcounted')
          rw [hsize', Nat.mod_eq_of_lt hwithin.2.2, husage, hrequested, List.sum_append,
            List.sum_singleton]
          omega

/-! ## Every point of a run -/

/-- What is read is in front of a parser that is still parsing. -/
theorem reads_spec {i : Input} (h : x.reads i = some (y, byte)) :
    y.state.status = .good ∧ (y.Within limits ↔ x.Within limits) ∧
      (Accounted limits x → Accounted limits y) := by
  cases i with
  | byte b =>
      rw [Buffered.reads] at h
      split at h
      · next hgood =>
        obtain ⟨rfl, -⟩ := Prod.mk.inj (Option.some.inj h)
        exact ⟨hgood.1, Iff.rfl, id⟩
      · cases h
  | bulk bytes =>
      rw [Buffered.reads] at h
      split at h
      · next hgood =>
        obtain ⟨rfl, -⟩ := Prod.mk.inj (Option.some.inj h)
        exact ⟨hgood.1, ⟨fun h => ⟨h.1, h.2⟩, fun h => ⟨h.1, h.2⟩⟩, id⟩
      · cases h

theorem AlwaysWithin.now {inputs : List Input} (h : AlwaysWithin limits malloc x inputs) :
    x.Within limits := by
  cases inputs with
  | nil => exact h
  | cons i inputs => exact h.1

theorem AlwaysWithin.last {inputs : List Input} (h : AlwaysWithin limits malloc x inputs) :
    (inputs.foldl (Buffered.input limits malloc) x).Within limits := by
  induction inputs generalizing x with
  | nil => exact h
  | cons i inputs ih => exact ih h.2

theorem alwaysWithin_iff (inputs : List Input) (h : x.Within limits)
    (haccounted : Accounted limits x) :
    AlwaysWithin limits malloc x inputs ↔ AlwaysFits limits malloc x inputs := by
  induction inputs generalizing x with
  | nil => exact iff_of_true h trivial
  | cons i inputs ih =>
      cases hread : x.reads i with
      | none =>
          have hsame : x.input limits malloc i = x := by
            rw [Buffered.input, hread]
          rw [AlwaysWithin, AlwaysFits, hsame, ih h haccounted]
          refine and_congr (iff_of_true h fun y byte hy => ?_) Iff.rfl
          rw [hread] at hy
          cases hy
      | some read =>
          obtain ⟨y, byte⟩ := read
          obtain ⟨hgood, hwithin, haccounted'⟩ := @reads_spec limits _ _ _ _ hread
          have hnext : x.input limits malloc i = readByteAlloc limits malloc y byte := by
            rw [Buffered.input, hread]
          obtain ⟨hbyte, hkept⟩ := @readByteAlloc_within limits malloc y byte
            (hwithin.mpr h) (haccounted' haccounted) hgood
          rw [AlwaysWithin, AlwaysFits, hnext]
          constructor
          · rintro ⟨-, hlater⟩
            refine ⟨fun y' byte' hy' => ?_, (ih hlater.now (hkept hlater.now)).mp hlater⟩
            obtain ⟨rfl, rfl⟩ := Prod.mk.inj (Option.some.inj (hread.symm.trans hy'))
            exact hbyte.mp hlater.now
          · rintro ⟨hfits, hlater⟩
            have hnow := hbyte.mpr (hfits y byte hread)
            exact ⟨h, (ih hnow (hkept hnow)).mpr hlater⟩

/-- **The quota is kept** at every point of parsing a bundle exactly when it is kept at the reset,
no addition wraps, and behind a number of EID references every buffer fits into what the other ones
have left. -/
theorem within_storage_quota_iff (limits : Limits) (malloc : List Nat → Nat → Bool) (usage : UInt32)
    (state : Parser) (inputs : List Input)
    (hlimits : limits.bundleQuota.toNat + limits.sizeofBundle.toNat < 2 ^ 32) :
    AlwaysWithin limits malloc (Buffered.reset limits usage state) inputs ↔
      usage.toNat ≤ limits.bundleQuota.toNat ∧
        AlwaysFits limits malloc (Buffered.reset limits usage state) inputs := by
  have hstart : (Buffered.reset limits usage state).Within limits ↔
      usage.toNat ≤ limits.bundleQuota.toNat :=
    ⟨fun h => h.requested_le, fun h => ⟨h, List.forall_mem_nil _⟩⟩
  by_cases husage : usage.toNat ≤ limits.bundleQuota.toNat
  · have haccounted : Accounted limits (Buffered.reset limits usage state) := by
      intro _ _
      change (usage + limits.sizeofBundle).toNat = usage.toNat + limits.sizeofBundle.toNat + 0
      rw [UInt32.toNat_add, Nat.mod_eq_of_lt (by omega), Nat.add_zero]
    rw [alwaysWithin_iff inputs (hstart.mpr husage) haccounted]
    exact (and_iff_right husage).symm
  · exact iff_of_false (fun h => husage (hstart.mp h.now)) fun h => husage h.1

/-! ## Served requests -/

theorem readByteAlloc_state (hserved : ∀ requested n, malloc requested n = true) (x : Buffered)
    (byte : UInt8) :
    (readByteAlloc limits malloc x byte).state = bundle6ParserReadByte limits x.state byte := by
  unfold readByteAlloc
  dsimp only
  split
  · rfl
  · split
    · rfl
    · rw [if_pos (hserved _ _)]

/-- **With enough memory** the loop of the parser reads such inputs. -/
theorem readLoop_inputs (hserved : ∀ requested n, malloc requested n = true) (passes : Nat)
    (x : Buffered) (buffer : List UInt8) :
    ∃ inputs : List Input, (inputs.foldl (Buffered.input limits malloc) x).state =
      (bundle6ParserReadLoop limits passes x.state buffer).1 := by
  induction passes generalizing x buffer with
  | zero => exact ⟨[], rfl⟩
  | succ passes ih =>
      cases buffer with
      | nil => exact ⟨[], rfl⟩
      | cons byte rest =>
          rw [bundle6ParserReadLoop]
          by_cases hgood : x.state.status = .good
          · rw [if_neg (not_not.mpr hgood)]
            by_cases hbulk : x.state.bulkRead = true
            · rw [if_pos hbulk]
              split
              · exact ⟨[], rfl⟩
              · next hlong =>
                have hlength : ((byte :: rest).take x.state.nextBytes).length =
                    x.state.nextBytes := List.length_take_of_le (Nat.le_of_not_lt hlong)
                obtain ⟨inputs, hinputs⟩ :=
                  ih (x.input limits malloc (.bulk ((byte :: rest).take x.state.nextBytes)))
                    ((byte :: rest).drop x.state.nextBytes)
                refine ⟨.bulk _ :: inputs, hinputs.trans ?_⟩
                rw [Buffered.input, Buffered.reads, if_pos ⟨hgood, hbulk, hlength⟩]
                dsimp only
                rw [readByteAlloc_state hserved]
                rfl
            · rw [if_neg hbulk]
              obtain ⟨inputs, hinputs⟩ := ih (x.input limits malloc (.byte byte)) rest
              refine ⟨.byte byte :: inputs, hinputs.trans ?_⟩
              rw [Buffered.input, Buffered.reads, if_pos ⟨hgood, Bool.eq_false_iff.mpr hbulk⟩]
              dsimp only
              rw [readByteAlloc_state hserved]
          · rw [if_pos hgood]
            exact ⟨[], rfl⟩

/-- A primary block, and the header of a payload block of `2 ^ 32 - 1` bytes. -/
def hugeBlock : List UInt8 :=
  [6, 0, 21, 0, 4, 0, 4, 0, 4, 0, 4, 0, 0, 0, 9, 0x64, 0x74, 0x6e, 0, 0x6e, 0x6f, 0x6e, 0x65, 0,
    1, 8, 0x8f, 0xff, 0xff, 0xff, 0x7f]

/-- The limits of a POSIX system. -/
def posixLimits : Limits := ⟨1073741824, 160⟩

theorem within_storage_quota_iff_hugeBlock :
    AlwaysWithin posixLimits (fun _ _ => true) (Buffered.reset posixLimits 0 unusedParser)
        (hugeBlock.map .byte) ↔
      (0 : UInt32).toNat ≤ posixLimits.bundleQuota.toNat ∧
        AlwaysFits posixLimits (fun _ _ => true) (Buffered.reset posixLimits 0 unusedParser)
          (hugeBlock.map .byte) :=
  within_storage_quota_iff _ _ _ _ _ (by decide)

/-- **A length that wraps `current_size`** makes the parser request 4 GiB. -/
theorem huge_block_requested :
    ((hugeBlock.map Input.byte).foldl (Buffered.input posixLimits fun _ _ => true)
        (Buffered.reset posixLimits 0 unusedParser)).requested = [10, 2 ^ 32 - 1] ∧
      ¬ AlwaysWithin posixLimits (fun _ _ => true) (Buffered.reset posixLimits 0 unusedParser)
        (hugeBlock.map .byte) := by
  have hrun : ((hugeBlock.map Input.byte).foldl (Buffered.input posixLimits fun _ _ => true)
      (Buffered.reset posixLimits 0 unusedParser)).requested = [10, 2 ^ 32 - 1] := by
    decide +kernel
  refine ⟨hrun, fun h => ?_⟩
  have hle := h.last.requested_le
  rw [hrun] at hle
  exact absurd (Nat.le_trans (Nat.le_add_left _ _) hle) (by decide)

end Bundle6
