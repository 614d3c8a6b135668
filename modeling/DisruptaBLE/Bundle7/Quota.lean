import DisruptaBLE.Bundle7.EidMemory

/-!
# The quota of the parser

`block_data` asks for the buffer of a block and adds its length to `bundle_size`, and the loop of
`bundle7_parser_read` compares `bundle_size` with `bundle_quota` when the stage has returned.  Here
requests may be refused, `bundle_size` is a `size_t`, and `Buffered` records the requests, the bytes
that the buffers of the bundle have, and the sums that were added up in `bundle_size`.

The quota is kept in the runs in which the block headers announce lengths that fit, and in no other
run (`within_quota_iff`): nothing looks at a length before its buffer is requested.
-/

namespace Bundle7

open BundleProcessor

/-- `SIZE_MAX + 1`. -/
def sizeModulus : Nat := 2 ^ 64

/-- A request for the buffer of a block. -/
structure Request where
  /-- the bytes in the buffers that the bundle already has -/
  held : Nat
  length : Nat
  served : Bool
  deriving DecidableEq, Repr

/-- The parser and the buffers of its bundle. -/
structure Buffered where
  parser : Parser
  /-- the bytes in the buffers of the blocks -/
  held : Nat
  /-- the requests so far -/
  requests : List Request
  /-- what was to be stored in `bundle_size` so far -/
  sums : List Nat
  /-- the bytes of the bundle that were taken from the input -/
  consumed : Nat
  deriving DecidableEq, Repr

variable (T : TinyCbor) (malloc : List Request → Nat → Bool)

/-- An addition to `bundle_size`. -/
def Buffered.addSize (x : Buffered) (n : Nat) : Buffered :=
  { x with
    parser := { x.parser with bundleSize := (x.parser.bundleSize + n) % sizeModulus }
    sums := x.sums ++ [x.parser.bundleSize + n] }

/-- `block_data`, with the request for its buffer. -/
def blockDataAlloc (x : Buffered) (it : CborValue) : Except CborError CborValue × Buffered :=
  if it.isByteString then
    match T.getStringLength it with
    | .error e => (.error e, x)
    | .ok length =>
        let served := malloc x.requests length
        let x := { x with
          parser := { x.parser with crcFeed := true }
          requests := x.requests ++ [⟨x.held, length, served⟩] }
        if served then
          let x := { x with
            parser := { x.parser with nextBytes := length, bulkRead := true }
            held := x.held + length }
          let x := x.addSize length
          let next := if x.parser.draft.block.crcType ≠ .none then Stage.blockCrc else .blockEnd
          (.ok (T.advanceFixed { it with type := some .uint }).2,
            { x with parser := { x.parser with next := some next } })
        else (.error .outOfMemory, x)
  else (.error .illegalType, x)

/-- `state->parse`.  The end of a bundle gives its buffers away. -/
def runStageAlloc (x : Buffered) (it : CborValue) : Except CborError CborValue × Buffered :=
  if x.parser.parse = .blockData then blockDataAlloc T malloc x it
  else
    ((runStage T x.parser.parse x.parser it).1,
      { x with
        parser := (runStage T x.parser.parse x.parser it).2
        held := if x.parser.parse = .bundleEnd ∧ it.rest.head? = some 0xff then 0 else x.held })

/-- The loop of `bundle7_parser_read`. -/
def readLoopAlloc (quota : Nat) :
    Nat → Buffered → Nat → List UInt8 → Option CborValue → Buffered × Nat
  | 0, x, parsed, _, _ => (x, parsed)
  | fuel + 1, x, parsed, rest, iterator =>
      if rest = [] ∨ x.parser.status ≠ .good then (x, parsed)
      else if x.parser.bulkRead then
        if rest.length < x.parser.nextBytes then (x, parsed)
        else
          readLoopAlloc quota fuel
            { x with parser := readNull (fillBulk x.parser (rest.take x.parser.nextBytes)) }
            (parsed + x.parser.nextBytes) (rest.drop x.parser.nextBytes) none
      else
        let (err, it) := passIterator T rest iterator
        if err = some .unexpectedEof then (x, parsed)
        else if err ≠ none ∧ err ≠ some .unexpectedBreak then
          ({ x with parser := x.parser.fail }, parsed)
        else
          match runStageAlloc T malloc x it with
          | (.error e, x) =>
              (if e = .unexpectedEof then x else { x with parser := x.parser.fail }, parsed)
          | (.ok it, x) =>
              let consumed := rest.length - it.rest.length
              let x := x.addSize consumed
              if quota < x.parser.bundleSize then ({ x with parser := x.parser.fail }, parsed)
              else
                readLoopAlloc quota fuel
                  { x with parser := (accountFor x.parser (rest.take consumed)).transition }
                  (parsed + consumed) (rest.drop consumed) (if it.atEnd then none else some it)

/-- A call of the parser.  The receive task is done with a bulk read when it has all of its
bytes. -/
def Buffered.call (quota : Nat) (x : Buffered) : ParserCall → Buffered
  | .read buffer =>
      let (x', parsed) := readLoopAlloc T malloc quota (2 * buffer.length + 2) x 0 buffer none
      { x' with consumed := x.consumed + parsed }
  | .bulkDone bytes =>
      if x.parser.bulkRead ∧ bytes.length = x.parser.nextBytes then
        { x with
          parser := readNull (fillBulk x.parser bytes)
          consumed := x.consumed + bytes.length }
      else x
  | .reset =>
      if x.parser.status = .good ∧ x.parser.next = some .bundleStart then x
      else { x with parser := bundle7ParserReset x.parser, held := 0, consumed := 0 }

/-- The parser behind `bundle7_parser_init`. -/
def Buffered.init : Buffered := ⟨bundle7ParserInit, 0, [], [], 0⟩

/-! ## Runs -/

/-- No request and no buffers are larger than the quota, and no sum was too large for a
`size_t`. -/
structure Buffered.Within (quota : Nat) (x : Buffered) : Prop where
  request_le : ∀ r ∈ x.requests, r.length ≤ quota
  held_le : ∀ r ∈ x.requests, r.served = true → r.held + r.length ≤ quota
  sum_lt : ∀ n ∈ x.sums, n < sizeModulus

/-- In every state of a run the quota is kept, and the parser has failed when the bundle is larger.
The size of the bundle is what the parser consumes of it when its quota is `SIZE_MAX`: `y` is this
parser, which was in the same state when the bundle began. -/
def AlwaysWithin (quota : Nat) : Buffered → Buffered → List ParserCall → Prop
  | x, y, [] => x.Within quota ∧ (quota < y.consumed → x.parser.status = .error)
  | x, y, c :: calls =>
      (x.Within quota ∧ (quota < y.consumed → x.parser.status = .error)) ∧
        if c = .reset then
          AlwaysWithin quota (x.call T malloc quota c) (x.call T malloc quota c) calls
        else
          AlwaysWithin quota (x.call T malloc quota c) (y.call T malloc (sizeModulus - 1) c) calls

/-- A stage that is run, with the bytes that are left and the iterator. -/
structure Visit where
  reader : Buffered
  rest : List UInt8
  it : CborValue

/-- The stages that the loop runs. -/
def visitsAlloc (quota : Nat) :
    Nat → Buffered → List UInt8 → Option CborValue → List Visit
  | 0, _, _, _ => []
  | fuel + 1, x, rest, iterator =>
      if rest = [] ∨ x.parser.status ≠ .good then []
      else if x.parser.bulkRead then
        if rest.length < x.parser.nextBytes then []
        else
          visitsAlloc quota fuel
            { x with parser := readNull (fillBulk x.parser (rest.take x.parser.nextBytes)) }
            (rest.drop x.parser.nextBytes) none
      else
        let (err, it) := passIterator T rest iterator
        if err = some .unexpectedEof then []
        else if err ≠ none ∧ err ≠ some .unexpectedBreak then []
        else
          ⟨x, rest, it⟩ ::
            match runStageAlloc T malloc x it with
            | (.error _, _) => []
            | (.ok it, x) =>
                let consumed := rest.length - it.rest.length
                let x := x.addSize consumed
                if quota < x.parser.bundleSize then []
                else
                  visitsAlloc quota fuel
                    { x with parser := (accountFor x.parser (rest.take consumed)).transition }
                    (rest.drop consumed) (if it.atEnd then none else some it)

/-- The length that a block header announces, when its data is read next. -/
def Visit.announced (v : Visit) : Option Nat :=
  if v.reader.parser.parse = .blockData ∧ v.it.isByteString = true then
    (T.getStringLength v.it).toOption
  else none

/-- The announced length fits into the quota, also with the buffers that the bundle has if its
request is served. -/
def Visit.Fits (quota : Nat) (v : Visit) : Prop :=
  ∀ length ∈ v.announced T,
    length ≤ quota ∧ (malloc v.reader.requests length = true → v.reader.held + length ≤ quota)

/-- The bytes that the stage takes, and the announced ones, can be added to `bundle_size`. -/
def Visit.Countable (v : Visit) : Prop :=
  ∀ it x, runStageAlloc T malloc v.reader v.it = (.ok it, x) →
    v.reader.parser.bundleSize + (v.announced T).getD 0 + (v.rest.length - it.rest.length) <
      sizeModulus

/-- The stages that a call runs. -/
def callVisitsAlloc (quota : Nat) (x : Buffered) : ParserCall → List Visit
  | .read buffer => visitsAlloc T malloc quota (2 * buffer.length + 2) x buffer none
  | _ => []

/-- Every announced length of a run fits.  With a quota of more than a quarter of the address space
the sizes have to be `Countable`, too. -/
def AlwaysFits (quota : Nat) : Buffered → List ParserCall → Prop
  | _, [] => True
  | x, c :: calls =>
      (∀ v ∈ callVisitsAlloc T malloc quota x c,
        v.Fits T malloc quota ∧ (2 ^ 62 < quota → v.Countable T malloc)) ∧
        AlwaysFits quota (x.call T malloc quota c) calls

/-! ## One stage -/

variable {T malloc} {quota : Nat} {x x' : Buffered} {it it' : CborValue}

/-- What the quota is about. -/
def Parser.sizes (st : Parser) : Nat × Bool × Nat := (st.bundleSize, st.bulkRead, st.nextBytes)

theorem readUint_sizes (next : Stage) (store : Draft → UInt64 → Draft) (st : Parser)
    (it : CborValue) : (readUint T next store st it).2.sizes = st.sizes := by
  unfold readUint
  split <;> rfl

theorem parseEid_sizes (next : Stage) (store : Draft → CStr → Draft) (st : Parser)
    (it : CborValue) : (parseEid T next store st it).2.sizes = st.sizes := by
  unfold parseEid
  split <;> rfl

theorem primaryFieldsEnd_sizes (st : Parser) (consumed : Nat) :
    (primaryFieldsEnd st consumed).sizes = st.sizes := by
  unfold primaryFieldsEnd
  split <;> rfl

theorem crcVerify_sizes (st : Parser) (checksum expected : UInt32) :
    (crcVerify st checksum expected).sizes = st.sizes := by
  unfold crcVerify
  split <;> rfl

theorem blockEnd_sizes (st : Parser) : (blockEnd st).sizes = st.sizes := by
  unfold blockEnd
  split <;> rfl

/-- Only `block_data` asks for a bulk read and changes `bundle_size`. -/
theorem runStage_sizes {stage : Stage} (hstage : stage ≠ .blockData) (st : Parser)
    (it : CborValue) : (runStage T stage st it).2.sizes = st.sizes := by
  cases stage with
  | bundleStart => simp only [runStage, bundleStart]; split <;> rfl
  | primaryBlockStart => simp only [runStage, primaryBlockStart]; split <;> rfl
  | protocolVersion => exact readUint_sizes _ _ st it
  | primaryProcFlags => exact readUint_sizes _ _ st it
  | crcType => simp only [runStage, crcType]; split <;> [split <;> rfl; rfl]
  | destinationEid => exact parseEid_sizes _ _ st it
  | sourceEid => exact parseEid_sizes _ _ st it
  | reportToEid => exact parseEid_sizes _ _ st it
  | creationTimestamp => simp only [runStage, creationTimestamp]; split <;> rfl
  | lifetime =>
      simp only [runStage, lifetime]
      split
      · dsimp only
        split
        · rfl
        · exact primaryFieldsEnd_sizes _ _
      · rfl
  | fragmentOffset => exact readUint_sizes _ _ st it
  | totalAduLength =>
      simp only [runStage, totalAduLength]
      split
      · exact primaryFieldsEnd_sizes _ _
      · rfl
  | primaryBlockCrc =>
      simp only [runStage, primaryBlockCrc]
      split
      · split
        · rfl
        · split
          · split
            · rfl
            · exact crcVerify_sizes _ _ _
          · split
            · rfl
            · exact crcVerify_sizes _ _ _
      · rfl
  | blockStart => simp only [runStage, blockStart]; split <;> rfl
  | blockType => exact readUint_sizes _ _ st it
  | blockNumber => exact readUint_sizes _ _ st it
  | blockProcFlags => exact readUint_sizes _ _ st it
  | blockCrcType => simp only [runStage, blockCrcType]; split <;> rfl
  | blockCrc =>
      simp only [runStage, blockCrc]
      split
      · split
        · rfl
        · split
          · split
            · rfl
            · exact (blockEnd_sizes _).trans (crcVerify_sizes _ _ _)
          · split
            · rfl
            · exact (blockEnd_sizes _).trans (crcVerify_sizes _ _ _)
      · rfl
  | blockData => exact absurd rfl hstage
  | blockEnd => exact blockEnd_sizes st
  | bundleEnd =>
      simp only [runStage, bundleEnd]
      split
      · rfl
      · split
        · rfl
        · split <;> rfl

/-- **What a stage does** to the memory: nothing, or it serves or refuses an announced length. -/
theorem runStageAlloc_cases (T : TinyCbor) (malloc : List Request → Nat → Bool) (v : Visit) :
    (v.announced T = none ∧
      (runStageAlloc T malloc v.reader v.it).2.requests = v.reader.requests ∧
      (runStageAlloc T malloc v.reader v.it).2.sums = v.reader.sums ∧
      (runStageAlloc T malloc v.reader v.it).2.parser.sizes = v.reader.parser.sizes) ∨
    ∃ length, v.announced T = some length ∧
      (runStageAlloc T malloc v.reader v.it).2.requests =
        v.reader.requests ++ [⟨v.reader.held, length, malloc v.reader.requests length⟩] ∧
      ((malloc v.reader.requests length = false ∧
          (∃ e, (runStageAlloc T malloc v.reader v.it).1 = .error e) ∧
          (runStageAlloc T malloc v.reader v.it).2.sums = v.reader.sums ∧
          (runStageAlloc T malloc v.reader v.it).2.parser.sizes = v.reader.parser.sizes) ∨
        (malloc v.reader.requests length = true ∧
          (∃ it', (runStageAlloc T malloc v.reader v.it).1 = .ok it') ∧
          (runStageAlloc T malloc v.reader v.it).2.sums =
            v.reader.sums ++ [v.reader.parser.bundleSize + length] ∧
          (runStageAlloc T malloc v.reader v.it).2.parser.sizes =
            ((v.reader.parser.bundleSize + length) % sizeModulus, true, length))) := by
  obtain ⟨x, rest, it⟩ := v
  unfold runStageAlloc Visit.announced
  dsimp only
  by_cases hdata : x.parser.parse = .blockData
  · rw [if_pos hdata]
    unfold blockDataAlloc
    by_cases hbytes : it.isByteString = true
    · rw [if_pos hbytes, if_pos ⟨hdata, hbytes⟩]
      cases hlength : T.getStringLength it with
      | error e => exact .inl ⟨rfl, rfl, rfl, rfl⟩
      | ok length =>
          refine .inr ⟨length, rfl, ?_⟩
          dsimp only
          cases hserved : malloc x.requests length with
          | false => exact ⟨rfl, .inl ⟨rfl, ⟨_, rfl⟩, rfl, rfl⟩⟩
          | true => exact ⟨rfl, .inr ⟨rfl, ⟨_, rfl⟩, rfl, rfl⟩⟩
    · rw [if_neg hbytes, if_neg fun h => hbytes h.2]
      exact .inl ⟨rfl, rfl, rfl, rfl⟩
  · rw [if_neg hdata, if_neg fun h => hdata h.1]
    exact .inl ⟨rfl, rfl, rfl, runStage_sizes hdata _ _⟩

/-! ## The record of a call -/

theorem Buffered.Within.of_eq (h : x'.requests = x.requests) (hs : x'.sums = x.sums) :
    x'.Within quota ↔ x.Within quota := by
  constructor <;> intro hw
  · exact ⟨h ▸ hw.request_le, h ▸ hw.held_le, hs ▸ hw.sum_lt⟩
  · exact ⟨h ▸ hw.request_le, h ▸ hw.held_le, hs ▸ hw.sum_lt⟩

theorem within_setParser (x : Buffered) (st : Parser) :
    Buffered.Within quota { x with parser := st } ↔ x.Within quota :=
  Buffered.Within.of_eq rfl rfl

theorem within_append {r : Request} (h : x'.requests = x.requests ++ [r]) {sums : List Nat}
    (hs : x'.sums = x.sums ++ sums) :
    x'.Within quota ↔ x.Within quota ∧ (r.length ≤ quota ∧
      (r.served = true → r.held + r.length ≤ quota)) ∧ ∀ n ∈ sums, n < sizeModulus := by
  constructor
  · rintro ⟨hrequest, hheld, hsum⟩
    rw [h] at hrequest hheld
    rw [hs] at hsum
    exact ⟨⟨fun r hr => hrequest r (List.mem_append_left _ hr),
        fun r hr => hheld r (List.mem_append_left _ hr),
        fun n hn => hsum n (List.mem_append_left _ hn)⟩,
      ⟨hrequest r (by simp), hheld r (by simp)⟩,
      fun n hn => hsum n (List.mem_append_right _ hn)⟩
  · rintro ⟨hw, hr, hsums⟩
    refine ⟨fun r' hr' => ?_, fun r' hr' => ?_, fun n hn => ?_⟩
    · rw [h] at hr'
      rcases List.mem_append.mp hr' with hr' | hr'
      · exact hw.request_le r' hr'
      · rw [List.mem_singleton.mp hr']
        exact hr.1
    · rw [h] at hr'
      rcases List.mem_append.mp hr' with hr' | hr'
      · exact hw.held_le r' hr'
      · rw [List.mem_singleton.mp hr']
        exact hr.2
    · rw [hs] at hn
      rcases List.mem_append.mp hn with hn | hn
      · exact hw.sum_lt n hn
      · exact hsums n hn

theorem Visit.fits_of_none {v : Visit} (h : v.announced T = none) : v.Fits T malloc quota := by
  intro length hlength
  rw [h] at hlength
  cases hlength

theorem Visit.fits_iff {v : Visit} {length : Nat} (h : v.announced T = some length) :
    v.Fits T malloc quota ↔ length ≤ quota ∧
      (malloc v.reader.requests length = true → v.reader.held + length ≤ quota) := by
  simp [Visit.Fits, h]

theorem Visit.countable_of_error {v : Visit} {e : CborError}
    (h : runStageAlloc T malloc v.reader v.it = (.error e, x')) : v.Countable T malloc := by
  intro it' x'' h'
  cases (Prod.mk.inj (h.symm.trans h')).1

theorem Visit.countable_iff {v : Visit}
    (h : runStageAlloc T malloc v.reader v.it = (.ok it', x')) :
    v.Countable T malloc ↔ v.reader.parser.bundleSize + (v.announced T).getD 0 +
      (v.rest.length - it'.rest.length) < sizeModulus := by
  constructor
  · exact fun hv => hv it' x' h
  · intro hv it'' x'' h'
    obtain rfl := Except.ok.inj (Prod.mk.inj (h.symm.trans h')).1
    exact hv

/-- A stage that fails. -/
theorem within_of_error {v : Visit} {e : CborError}
    (h : runStageAlloc T malloc v.reader v.it = (.error e, x')) :
    x'.Within quota ↔ v.reader.Within quota ∧ v.Fits T malloc quota ∧ v.Countable T malloc := by
  have hcountable := Visit.countable_of_error h
  have hcases := runStageAlloc_cases T malloc v
  rw [h] at hcases
  rcases hcases with ⟨hnone, hreq, hsums, -⟩ | ⟨length, hlength, hreq, hrefused | hserved⟩
  · rw [Buffered.Within.of_eq hreq hsums]
    exact (and_iff_left ⟨Visit.fits_of_none hnone, hcountable⟩).symm
  · rw [within_append hreq (hrefused.2.2.1.trans (List.append_nil _).symm), Visit.fits_iff hlength]
    exact and_congr_right fun _ => and_congr_right fun _ => iff_of_true (by simp) hcountable
  · obtain ⟨it', hok⟩ := hserved.2.1
    cases hok

/-- A stage that returns, with the sum of the loop. -/
theorem within_of_ok {v : Visit} (h : runStageAlloc T malloc v.reader v.it = (.ok it', x')) :
    (x'.addSize (v.rest.length - it'.rest.length)).Within quota ↔
      v.reader.Within quota ∧ v.Fits T malloc quota ∧ v.Countable T malloc := by
  rw [Visit.countable_iff h]
  have hcases := runStageAlloc_cases T malloc v
  rw [h] at hcases
  rcases hcases with ⟨hnone, hreq, hsums, hsizes⟩ | ⟨length, hlength, hreq, hrefused | hserved⟩
  · have hsize : x'.parser.bundleSize = v.reader.parser.bundleSize := congrArg Prod.fst hsizes
    have hfits : v.Fits T malloc quota := Visit.fits_of_none hnone
    constructor
    · intro hw
      refine ⟨⟨?_, ?_, fun n hn => ?_⟩, hfits, ?_⟩
      · exact hreq ▸ hw.request_le
      · exact hreq ▸ hw.held_le
      · exact hw.sum_lt n (List.mem_append_left _ (by rw [hsums]; exact hn))
      · have := hw.sum_lt _ (List.mem_append_right _ (List.mem_singleton_self _))
        rw [hsize] at this
        rw [hnone]
        exact this
    · rintro ⟨hw, -, hcount⟩
      refine ⟨?_, ?_, fun n hn => ?_⟩
      · exact hreq ▸ hw.request_le
      · exact hreq ▸ hw.held_le
      · rcases List.mem_append.mp hn with hn | hn
        · rw [hsums] at hn
          exact hw.sum_lt n hn
        · rw [List.mem_singleton.mp hn, hsize]
          rw [hnone] at hcount
          exact hcount
  · obtain ⟨e, he⟩ := hrefused.2.1
    cases he
  · obtain ⟨hmalloc, -, hsums, hsizes⟩ := hserved
    have hsize : x'.parser.bundleSize = (v.reader.parser.bundleSize + length) % sizeModulus :=
      congrArg Prod.fst hsizes
    have hsums' : (x'.addSize (v.rest.length - it'.rest.length)).sums =
        v.reader.sums ++ [v.reader.parser.bundleSize + length,
          (v.reader.parser.bundleSize + length) % sizeModulus +
            (v.rest.length - it'.rest.length)] := by
      rw [Buffered.addSize, hsums, hsize, List.append_assoc]
      rfl
    have hreq' : (x'.addSize (v.rest.length - it'.rest.length)).requests = _ := hreq
    rw [within_append hreq' hsums', Visit.fits_iff hlength, hlength]
    refine and_congr_right fun _ => and_congr_right fun _ => ?_
    simp only [List.mem_cons, List.not_mem_nil, or_false, forall_eq_or_imp, forall_eq,
      Option.getD_some]
    constructor
    · rintro ⟨hfirst, hsecond⟩
      rwa [Nat.mod_eq_of_lt hfirst] at hsecond
    · intro hcount
      have hfirst : v.reader.parser.bundleSize + length < sizeModulus := by omega
      exact ⟨hfirst, by rwa [Nat.mod_eq_of_lt hfirst]⟩

/-- **The record of a call** is within the quota when everything that its stages read is. -/
theorem readLoopAlloc_within (T : TinyCbor) (malloc : List Request → Nat → Bool)
    (quota fuel : Nat) (x : Buffered) (parsed : Nat) (rest : List UInt8)
    (iterator : Option CborValue) :
    (readLoopAlloc T malloc quota fuel x parsed rest iterator).1.Within quota ↔
      x.Within quota ∧ ∀ v ∈ visitsAlloc T malloc quota fuel x rest iterator,
        v.Fits T malloc quota ∧ v.Countable T malloc := by
  induction fuel generalizing x parsed rest iterator with
  | zero => simp [readLoopAlloc, visitsAlloc]
  | succ fuel ih =>
      have hnone : ∀ {x' : Buffered}, x'.requests = x.requests → x'.sums = x.sums →
          (x'.Within quota ↔ x.Within quota ∧
            ∀ v ∈ ([] : List Visit), v.Fits T malloc quota ∧ v.Countable T malloc) :=
        fun hreq hsums => (Buffered.Within.of_eq hreq hsums).trans (by simp)
      unfold readLoopAlloc visitsAlloc
      split
      · exact hnone rfl rfl
      · split
        · split
          · exact hnone rfl rfl
          · rw [ih, within_setParser]
        · rcases passIterator T rest iterator with ⟨err, it⟩
          dsimp only
          split
          · exact hnone rfl rfl
          · split
            · exact hnone rfl rfl
            · rcases hrun : runStageAlloc T malloc x it with ⟨e | it', x'⟩
              · have hstage := @within_of_error T malloc quota _ ⟨x, rest, it⟩ _ hrun
                simp only [List.mem_singleton, forall_eq]
                refine Iff.trans ?_ hstage
                split
                · exact Iff.rfl
                · exact within_setParser x' _
              · have hstage := @within_of_ok T malloc quota _ _ ⟨x, rest, it⟩ hrun
                simp only [List.forall_mem_cons]
                rw [← and_assoc, ← hstage]
                split
                · rw [within_setParser]
                  exact (and_iff_left (List.forall_mem_nil _)).symm
                · rw [ih, within_setParser]

/-! ## The size of the bundle -/

/-- The largest size of an object. -/
def ptrdiffMax : Nat := 2 ^ 63 - 1

/-- The bytes of a bulk read that are still to come. -/
def Parser.pending (st : Parser) : Nat := if st.bulkRead then st.nextBytes else 0

/-- Unless the parser has failed, `bundle_size` counts what was taken from the input, with the
`parsed` bytes of this call, and what is to come.  It is within the quota. -/
structure Tracked (quota : Nat) (x : Buffered) (parsed : Nat) : Prop where
  size : x.parser.status ≠ .error →
    x.parser.bundleSize = x.consumed + parsed + x.parser.pending
  le : x.parser.status ≠ .error → x.parser.bundleSize ≤ quota

theorem pending_of_sizes {st st' : Parser} (h : st'.sizes = st.sizes) :
    st'.bundleSize = st.bundleSize ∧ st'.pending = st.pending := by
  obtain ⟨hsize, hrest⟩ := Prod.mk.inj h
  obtain ⟨hbulk, hnext⟩ := Prod.mk.inj hrest
  exact ⟨hsize, by rw [Parser.pending, hbulk, hnext, Parser.pending]⟩

theorem Tracked.fail {parsed : Nat} (h : x.parser.status = .error) : Tracked quota x parsed :=
  ⟨fun hne => absurd h hne, fun hne => absurd h hne⟩

theorem readNull_sizes (st : Parser) :
    (readNull st).sizes = st.sizes ∧ (readNull st).status = st.status := by
  unfold readNull
  split
  · unfold blockEnd
    split <;> exact ⟨rfl, rfl⟩
  · exact ⟨rfl, rfl⟩

/-- The bytes of a bulk read have come. -/
theorem Tracked.bulk {parsed : Nat} (h : Tracked quota x parsed) (hbulk : x.parser.bulkRead = true)
    (bytes : List UInt8) :
    Tracked quota { x with parser := readNull (fillBulk x.parser bytes) }
      (parsed + x.parser.nextBytes) := by
  obtain ⟨hsizes, hstatus⟩ := readNull_sizes (fillBulk x.parser bytes)
  obtain ⟨hsize, hpending⟩ := pending_of_sizes hsizes
  have hwas : x.parser.pending = x.parser.nextBytes := if_pos hbulk
  have hnone : (fillBulk x.parser bytes).pending = 0 := rfl
  refine ⟨fun hne => ?_, fun hne => ?_⟩
  · dsimp only at hne ⊢
    rw [hstatus] at hne
    rw [hsize, hpending, hnone]
    have := h.size hne
    rw [hwas] at this
    exact this.trans (Nat.add_assoc _ _ _)
  · dsimp only at hne ⊢
    rw [hstatus] at hne
    rw [hsize]
    exact h.le hne

theorem runStageAlloc_consumed (T : TinyCbor) (malloc : List Request → Nat → Bool) (x : Buffered)
    (it : CborValue) : (runStageAlloc T malloc x it).2.consumed = x.consumed := by
  unfold runStageAlloc
  split
  · unfold blockDataAlloc
    split
    · split
      · rfl
      · dsimp only
        split <;> rfl
    · rfl
  · rfl

theorem readLoopAlloc_consumed (T : TinyCbor) (malloc : List Request → Nat → Bool)
    (quota fuel : Nat) (x : Buffered) (parsed : Nat) (rest : List UInt8)
    (iterator : Option CborValue) :
    (readLoopAlloc T malloc quota fuel x parsed rest iterator).1.consumed = x.consumed := by
  induction fuel generalizing x parsed rest iterator with
  | zero => rfl
  | succ fuel ih =>
      unfold readLoopAlloc
      split
      · rfl
      · split
        · split
          · rfl
          · exact ih _ _ _ _
        · rcases passIterator T rest iterator with ⟨err, it⟩
          dsimp only
          split
          · rfl
          · split
            · rfl
            · have hstage := runStageAlloc_consumed T malloc x it
              rcases hrun : runStageAlloc T malloc x it with ⟨e | it', x'⟩
              · rw [hrun] at hstage
                dsimp only
                split <;> exact hstage
              · rw [hrun] at hstage
                dsimp only
                split
                · exact hstage
                · exact (ih _ _ _ _).trans hstage

/-- A stage that fails leaves the size as it is. -/
theorem Tracked.of_error {v : Visit} {parsed : Nat} {e : CborError}
    (h : Tracked quota v.reader parsed) (hgood : v.reader.parser.status = .good)
    (hrun : runStageAlloc T malloc v.reader v.it = (.error e, x')) : Tracked quota x' parsed := by
  have hcases := runStageAlloc_cases T malloc v
  have hconsumed := runStageAlloc_consumed T malloc v.reader v.it
  rw [hrun] at hcases hconsumed
  have hne : v.reader.parser.status ≠ .error := by rw [hgood]; exact fun h => by cases h
  have hsizes : x'.parser.sizes = v.reader.parser.sizes := by
    rcases hcases with ⟨-, -, -, hsizes⟩ | ⟨_, -, -, hrefused | hserved⟩
    · exact hsizes
    · exact hrefused.2.2.2
    · obtain ⟨it', hok⟩ := hserved.2.1
      cases hok
  obtain ⟨hsize, hpending⟩ := pending_of_sizes hsizes
  refine ⟨fun _ => ?_, fun _ => ?_⟩
  · rw [hsize, hpending, hconsumed]
    exact h.size hne
  · rw [hsize]
    exact h.le hne

/-- What a stage and the loop add to `bundle_size`, when the sum is a `size_t`. -/
theorem addSize_of_ok {v : Visit} (hbulk : v.reader.parser.bulkRead = false)
    (hrun : runStageAlloc T malloc v.reader v.it = (.ok it', x'))
    (hcount : v.Countable T malloc) :
    (x'.addSize (v.rest.length - it'.rest.length)).parser.bundleSize =
        v.reader.parser.bundleSize + (v.announced T).getD 0 +
          (v.rest.length - it'.rest.length) ∧
      x'.parser.pending = (v.announced T).getD 0 := by
  have hsum := (Visit.countable_iff hrun).mp hcount
  have hcases := runStageAlloc_cases T malloc v
  rw [hrun] at hcases
  rcases hcases with ⟨hnone, -, -, hsizes⟩ | ⟨length, hlength, -, hrefused | hserved⟩
  · obtain ⟨hsize, hpending⟩ := pending_of_sizes hsizes
    rw [hnone] at hsum ⊢
    refine ⟨?_, ?_⟩
    · change (x'.parser.bundleSize + _) % sizeModulus = _
      rw [hsize]
      exact Nat.mod_eq_of_lt hsum
    · rw [hpending, Parser.pending, hbulk]
      rfl
  · obtain ⟨e, he⟩ := hrefused.2.1
    cases he
  · obtain ⟨hsize, hpending⟩ := Prod.mk.inj hserved.2.2.2
    obtain ⟨hpending, hnext⟩ := Prod.mk.inj hpending
    rw [hlength] at hsum ⊢
    refine ⟨?_, ?_⟩
    · change (x'.parser.bundleSize + _) % sizeModulus = _
      rw [hsize, Nat.mod_eq_of_lt (a := v.reader.parser.bundleSize + length)
        (Nat.lt_of_le_of_lt (Nat.le_add_right _ _) hsum)]
      exact Nat.mod_eq_of_lt hsum
    · rw [Parser.pending, if_pos hpending, hnext]
      rfl

/-- Small announced lengths can be counted. -/
theorem Visit.countable_of_small {v : Visit} (hsize : v.reader.parser.bundleSize ≤ quota)
    (hrest : v.rest.length ≤ ptrdiffMax) (hfits : v.Fits T malloc quota)
    (hlarge : 2 ^ 62 < quota → v.Countable T malloc) : v.Countable T malloc := by
  by_cases hquota : 2 ^ 62 < quota
  · exact hlarge hquota
  · intro it' x' _
    have hannounced : (v.announced T).getD 0 ≤ quota := by
      cases hlength : v.announced T with
      | none => exact Nat.zero_le _
      | some length => exact (hfits length hlength).1
    unfold ptrdiffMax at hrest
    unfold sizeModulus
    omega

/-- **The size in the loop.**  When every announced length fits, every sum is a `size_t` and the
size stays what it stands for. -/
theorem readLoopAlloc_tracked (T : TinyCbor) (malloc : List Request → Nat → Bool)
    (quota fuel : Nat) {x : Buffered} {parsed : Nat} (h : Tracked quota x parsed)
    {rest : List UInt8} (hrest : rest.length ≤ ptrdiffMax) (iterator : Option CborValue)
    (hfits : ∀ v ∈ visitsAlloc T malloc quota fuel x rest iterator,
      v.Fits T malloc quota ∧ (2 ^ 62 < quota → v.Countable T malloc)) :
    (∀ v ∈ visitsAlloc T malloc quota fuel x rest iterator, v.Countable T malloc) ∧
      Tracked quota (readLoopAlloc T malloc quota fuel x parsed rest iterator).1
        (readLoopAlloc T malloc quota fuel x parsed rest iterator).2 := by
  induction fuel generalizing x parsed rest iterator with
  | zero => exact ⟨List.forall_mem_nil _, h⟩
  | succ fuel ih =>
      unfold visitsAlloc at hfits ⊢
      unfold readLoopAlloc
      by_cases hstop : rest = [] ∨ x.parser.status ≠ .good
      · simp only [if_pos hstop]
        exact ⟨List.forall_mem_nil _, h⟩
      simp only [if_neg hstop] at hfits ⊢
      have hgood : x.parser.status = .good := not_not.mp (not_or.mp hstop).2
      by_cases hbulk : x.parser.bulkRead = true
      · simp only [if_pos hbulk] at hfits ⊢
        by_cases hlong : rest.length < x.parser.nextBytes
        · simp only [if_pos hlong]
          exact ⟨List.forall_mem_nil _, h⟩
        · simp only [if_neg hlong] at hfits ⊢
          refine ih (h.bulk hbulk _) ?_ _ hfits
          rw [List.length_drop]
          omega
      simp only [if_neg hbulk] at hfits ⊢
      generalize passIterator T rest iterator = pass at hfits ⊢
      obtain ⟨err, it⟩ := pass
      dsimp only at hfits ⊢
      by_cases heof : err = some .unexpectedEof
      · simp only [if_pos heof]
        exact ⟨List.forall_mem_nil _, h⟩
      simp only [if_neg heof] at hfits ⊢
      by_cases hbad : err ≠ none ∧ err ≠ some .unexpectedBreak
      · simp only [if_pos hbad]
        exact ⟨List.forall_mem_nil _, Tracked.fail rfl⟩
      simp only [if_neg hbad] at hfits ⊢
      obtain ⟨hfirst, hlater⟩ := List.forall_mem_cons.mp hfits
      have hne : x.parser.status ≠ .error := by rw [hgood]; exact fun h => by cases h
      have hcount : Visit.Countable T malloc ⟨x, rest, it⟩ :=
        Visit.countable_of_small (h.le hne) hrest hfirst.1 hfirst.2
      rcases hrun : runStageAlloc T malloc x it with ⟨e | it', x'⟩
      · refine ⟨List.forall_mem_cons.mpr ⟨hcount, List.forall_mem_nil _⟩, ?_⟩
        dsimp only
        split
        · exact h.of_error (v := ⟨x, rest, it⟩) hgood hrun
        · exact Tracked.fail rfl
      · rw [hrun] at hlater
        dsimp only at hlater ⊢
        obtain ⟨hsize, hpending⟩ := addSize_of_ok (v := ⟨x, rest, it⟩)
          (Bool.eq_false_iff.mpr hbulk) hrun hcount
        have hconsumed := runStageAlloc_consumed T malloc x it
        rw [hrun] at hconsumed
        dsimp only at hsize hpending hconsumed
        by_cases hover : quota < (x'.addSize (rest.length - it'.rest.length)).parser.bundleSize
        · simp only [if_pos hover]
          exact ⟨List.forall_mem_cons.mpr ⟨hcount, List.forall_mem_nil _⟩, Tracked.fail rfl⟩
        · simp only [if_neg hover] at hlater ⊢
          have hnext : Tracked quota
              { x'.addSize (rest.length - it'.rest.length) with
                parser := (accountFor (x'.addSize (rest.length - it'.rest.length)).parser
                  (rest.take (rest.length - it'.rest.length))).transition }
              (parsed + (rest.length - it'.rest.length)) := by
            refine ⟨fun _ => ?_, fun _ => Nat.le_of_not_lt hover⟩
            change (x'.addSize (rest.length - it'.rest.length)).parser.bundleSize =
              x'.consumed + _ + x'.parser.pending
            have hbefore := h.size hne
            have hnone : x.parser.pending = 0 := if_neg hbulk
            rw [hsize, hpending, hconsumed]
            omega
          obtain ⟨hcounts, htracked⟩ := ih hnext (by rw [List.length_drop]; omega) _ hlater
          exact ⟨List.forall_mem_cons.mpr ⟨hcount, hcounts⟩, htracked⟩

/-! ## Served requests -/

/-- A stage whose request is served, when the sum is a `size_t`. -/
theorem runStageAlloc_served {v : Visit} (hserved : ∀ requests n, malloc requests n = true)
    (hsum : v.reader.parser.bundleSize + (v.announced T).getD 0 < sizeModulus) :
    ((runStageAlloc T malloc v.reader v.it).1, (runStageAlloc T malloc v.reader v.it).2.parser) =
      runStage T v.reader.parser.parse v.reader.parser v.it := by
  obtain ⟨x, rest, it⟩ := v
  unfold runStageAlloc
  dsimp only at hsum ⊢
  by_cases hdata : x.parser.parse = .blockData
  · rw [if_pos hdata, hdata]
    unfold blockDataAlloc
    simp only [runStage, blockData]
    by_cases hbytes : it.isByteString = true
    · rw [if_pos hbytes, if_pos hbytes]
      cases hlength : T.getStringLength it with
      | error e => rfl
      | ok length =>
          have hannounced : Visit.announced T ⟨x, rest, it⟩ = some length := by
            rw [Visit.announced, if_pos ⟨hdata, hbytes⟩, hlength]
            rfl
          rw [hannounced] at hsum
          dsimp only
          rw [if_pos (hserved _ _), Buffered.addSize]
          dsimp only
          rw [show (x.parser.bundleSize + length) % sizeModulus = x.parser.bundleSize + length from
            Nat.mod_eq_of_lt hsum]
    · rw [if_neg hbytes, if_neg hbytes]
  · rw [if_neg hdata]

/-- **With enough memory** and without a wrap the loop is that of the parser. -/
theorem readLoopAlloc_eq (T : TinyCbor) (hserved : ∀ requests n, malloc requests n = true)
    (quota fuel : Nat) (x : Buffered) (parsed : Nat) (rest : List UInt8)
    (iterator : Option CborValue)
    (hsums : ∀ v ∈ visitsAlloc T malloc quota fuel x rest iterator,
      v.reader.parser.bundleSize + (v.announced T).getD 0 + v.rest.length < sizeModulus) :
    ((readLoopAlloc T malloc quota fuel x parsed rest iterator).1.parser,
        (readLoopAlloc T malloc quota fuel x parsed rest iterator).2) =
      readLoop T quota fuel x.parser parsed rest iterator := by
  induction fuel generalizing x parsed rest iterator with
  | zero => rfl
  | succ fuel ih =>
      unfold visitsAlloc at hsums
      unfold readLoopAlloc
      by_cases hstop : rest = [] ∨ x.parser.status ≠ .good
      · unfold readLoop
        simp only [if_pos hstop]
      simp only [if_neg hstop] at hsums ⊢
      by_cases hbulk : x.parser.bulkRead = true
      · unfold readLoop
        simp only [if_neg hstop, if_pos hbulk] at hsums ⊢
        by_cases hlong : rest.length < x.parser.nextBytes
        · simp only [if_pos hlong]
        · simp only [if_neg hlong] at hsums ⊢
          exact ih _ _ _ _ hsums
      simp only [if_neg hbulk] at hsums ⊢
      rcases hpass : passIterator T rest iterator with ⟨err, it⟩
      rw [readLoop_pass hstop hbulk hpass]
      rw [hpass] at hsums
      dsimp only at hsums ⊢
      by_cases heof : err = some .unexpectedEof
      · simp only [if_pos heof]
      simp only [if_neg heof] at hsums ⊢
      by_cases hbad : err ≠ none ∧ err ≠ some .unexpectedBreak
      · simp only [if_pos hbad]
      simp only [if_neg hbad] at hsums ⊢
      obtain ⟨hfirst, hlater⟩ := List.forall_mem_cons.mp hsums
      dsimp only at hfirst
      have hstage := runStageAlloc_served (T := T) (v := ⟨x, rest, it⟩) hserved
        (Nat.lt_of_le_of_lt (Nat.le_add_right _ _) hfirst)
      have hcases := runStageAlloc_cases T malloc ⟨x, rest, it⟩
      dsimp only at hstage hcases
      rw [← hstage]
      rcases hrun : runStageAlloc T malloc x it with ⟨e | it', x'⟩
      · dsimp only
        split <;> rfl
      · rw [hrun] at hlater hcases
        dsimp only at hlater ⊢
        -- the sum of the loop is no larger than that of the hypothesis
        have hsize : x'.parser.bundleSize ≤
            x.parser.bundleSize + (Visit.announced T ⟨x, rest, it⟩).getD 0 := by
          rcases hcases with ⟨-, -, -, hsizes⟩ | ⟨length, hlength, -, hrefused | hserved⟩
          · exact (congrArg Prod.fst hsizes).le.trans (Nat.le_add_right _ _)
          · obtain ⟨e, he⟩ := hrefused.2.1
            cases he
          · rw [hlength]
            exact (congrArg Prod.fst hserved.2.2.2).le.trans (Nat.mod_le _ _)
        have hsum : x'.parser.bundleSize + (rest.length - it'.rest.length) < sizeModulus := by
          omega
        have hadd : (x'.addSize (rest.length - it'.rest.length)).parser =
            { x'.parser with
              bundleSize := x'.parser.bundleSize + (rest.length - it'.rest.length) } := by
          rw [Buffered.addSize, Nat.mod_eq_of_lt hsum]
        rw [hadd] at hlater ⊢
        by_cases hover : quota < x'.parser.bundleSize + (rest.length - it'.rest.length)
        · simp only [if_pos hover]
        · simp only [if_neg hover] at hlater ⊢
          exact ih _ _ _ _ hlater

/-! ## Calls -/

theorem call_reset_of_busy (h : ¬ (x.parser.status = .good ∧ x.parser.next = some .bundleStart)) :
    x.call T malloc quota .reset =
      { x with parser := bundle7ParserReset x.parser, held := 0, consumed := 0 } := if_neg h

/-- The record of a call. -/
theorem call_within (T : TinyCbor) (malloc : List Request → Nat → Bool) (quota : Nat)
    (x : Buffered) (c : ParserCall) :
    (x.call T malloc quota c).Within quota ↔
      x.Within quota ∧ ∀ v ∈ callVisitsAlloc T malloc quota x c,
        v.Fits T malloc quota ∧ v.Countable T malloc := by
  cases c with
  | read buffer =>
      have hloop :=
        readLoopAlloc_within T malloc quota (2 * buffer.length + 2) x 0 buffer none
      refine Iff.trans ?_ hloop
      exact Buffered.Within.of_eq rfl rfl
  | bulkDone bytes =>
      have hsame : (x.call T malloc quota (.bulkDone bytes)).Within quota ↔ x.Within quota := by
        unfold Buffered.call
        dsimp only
        split
        · exact Buffered.Within.of_eq rfl rfl
        · exact Iff.rfl
      exact hsame.trans (and_iff_left (List.forall_mem_nil _)).symm
  | reset =>
      have hsame : (x.call T malloc quota .reset).Within quota ↔ x.Within quota := by
        unfold Buffered.call
        dsimp only
        split
        · exact Iff.rfl
        · exact Buffered.Within.of_eq rfl rfl
      exact hsame.trans (and_iff_left (List.forall_mem_nil _)).symm

/-- The size behind a call. -/
theorem call_tracked {c : ParserCall} (h : Tracked quota x 0)
    (hbuffer : ∀ buffer, c = .read buffer → buffer.length ≤ ptrdiffMax)
    (hfits : ∀ v ∈ callVisitsAlloc T malloc quota x c,
      v.Fits T malloc quota ∧ (2 ^ 62 < quota → v.Countable T malloc)) :
    (∀ v ∈ callVisitsAlloc T malloc quota x c, v.Countable T malloc) ∧
      Tracked quota (x.call T malloc quota c) 0 := by
  cases c with
  | read buffer =>
      obtain ⟨hcounts, htracked⟩ := readLoopAlloc_tracked T malloc quota (2 * buffer.length + 2) h
        (hbuffer buffer rfl) none hfits
      refine ⟨hcounts, fun hne => ?_, htracked.le⟩
      have hsize := htracked.size hne
      rw [readLoopAlloc_consumed] at hsize
      exact hsize
  | bulkDone bytes =>
      refine ⟨List.forall_mem_nil _, ?_⟩
      unfold Buffered.call
      dsimp only
      split
      · next hbulk =>
        obtain ⟨hsize, hle⟩ := h.bulk hbulk.1 bytes
        refine ⟨fun hne => ?_, hle⟩
        have hsize := hsize hne
        dsimp only at hsize ⊢
        rw [hsize, hbulk.2]
        omega
      · exact h
  | reset =>
      refine ⟨List.forall_mem_nil _, ?_⟩
      by_cases hidle : x.parser.status = .good ∧ x.parser.next = some .bundleStart
      · rw [Buffered.call, if_pos hidle]
        exact h
      · rw [call_reset_of_busy hidle, bundle7ParserReset, if_neg hidle]
        exact ⟨fun _ => rfl, fun _ => Nat.zero_le _⟩

/-- The quota is the only difference to the parser whose quota is `SIZE_MAX`. -/
theorem readLoopAlloc_unlimited (T : TinyCbor) (malloc : List Request → Nat → Bool)
    (quota fuel : Nat) (x : Buffered) (parsed : Nat) (rest : List UInt8)
    (iterator : Option CborValue) :
    readLoopAlloc T malloc (sizeModulus - 1) fuel x parsed rest iterator =
        readLoopAlloc T malloc quota fuel x parsed rest iterator ∨
      (readLoopAlloc T malloc quota fuel x parsed rest iterator).1.parser.status = .error := by
  induction fuel generalizing x parsed rest iterator with
  | zero => exact .inl rfl
  | succ fuel ih =>
      unfold readLoopAlloc
      split
      · exact .inl rfl
      · split
        · split
          · exact .inl rfl
          · exact ih _ _ _ _
        · rcases passIterator T rest iterator with ⟨err, it⟩
          dsimp only
          split
          · exact .inl rfl
          · split
            · exact .inl rfl
            · rcases runStageAlloc T malloc x it with ⟨e | it', x'⟩
              · exact .inl rfl
              · dsimp only
                have hsize : (x'.addSize (rest.length - it'.rest.length)).parser.bundleSize <
                    sizeModulus := Nat.mod_lt _ (by decide)
                rw [if_neg (Nat.not_lt.mpr (Nat.le_sub_one_of_lt hsize))]
                by_cases hover :
                    quota < (x'.addSize (rest.length - it'.rest.length)).parser.bundleSize
                · rw [if_pos hover]
                  exact .inr rfl
                · rw [if_neg hover]
                  exact ih _ _ _ _

/-- A parser that has failed stays so until it is reset. -/
theorem call_of_error {c : ParserCall} (hc : c ≠ .reset) (h : x.parser.status = .error) :
    (x.call T malloc quota c).parser.status = .error := by
  cases c with
  | read buffer =>
      have hstop : buffer = [] ∨ x.parser.status ≠ .good :=
        .inr (by rw [h]; exact fun h => by cases h)
      have hloop : readLoopAlloc T malloc quota (2 * buffer.length + 2) x 0 buffer none =
          (x, 0) := by
        unfold readLoopAlloc
        rw [if_pos hstop]
      unfold Buffered.call
      dsimp only
      rw [hloop]
      exact h
  | bulkDone bytes =>
      unfold Buffered.call
      dsimp only
      split
      · exact (readNull_sizes _).2.trans h
      · exact h
  | reset => exact absurd rfl hc

/-- Both parsers are in the same state, unless the one with the quota has failed. -/
theorem call_unlimited {c : ParserCall} {y : Buffered} (hc : c ≠ .reset)
    (h : y = x ∨ x.parser.status = .error) :
    y.call T malloc (sizeModulus - 1) c = x.call T malloc quota c ∨
      (x.call T malloc quota c).parser.status = .error := by
  rcases h with rfl | h
  · cases c with
    | read buffer =>
        rcases readLoopAlloc_unlimited T malloc quota (2 * buffer.length + 2) y 0 buffer none with
          heq | herror
        · left
          unfold Buffered.call
          dsimp only
          rw [heq]
        · exact .inr herror
    | bulkDone bytes => exact .inl rfl
    | reset => exact absurd rfl hc
  · exact .inr (call_of_error hc h)

/-- A bundle that is larger than the quota is not parsed. -/
theorem error_of_large {y : Buffered} (h : Tracked quota x 0)
    (hsame : y = x ∨ x.parser.status = .error) (hlarge : quota < y.consumed) :
    x.parser.status = .error := by
  rcases hsame with rfl | herror
  · by_contra hne
    have hsize := h.size hne
    have hle := h.le hne
    omega
  · exact herror

theorem AlwaysWithin.now {y : Buffered} {calls : List ParserCall}
    (h : AlwaysWithin T malloc quota x y calls) : x.Within quota := by
  cases calls with
  | nil => exact h.1
  | cons c calls => exact h.1.1

theorem alwaysWithin_iff {y : Buffered} (calls : List ParserCall)
    (hcalls : ∀ buffer, .read buffer ∈ calls → buffer.length ≤ ptrdiffMax)
    (hwithin : x.Within quota) (h : Tracked quota x 0)
    (hsame : y = x ∨ x.parser.status = .error) :
    AlwaysWithin T malloc quota x y calls ↔ AlwaysFits T malloc quota x calls := by
  induction calls generalizing x y with
  | nil => exact iff_of_true ⟨hwithin, error_of_large h hsame⟩ trivial
  | cons c calls ih =>
      have hbuffer : ∀ buffer, c = .read buffer → buffer.length ≤ ptrdiffMax := by
        rintro buffer rfl
        exact hcalls buffer List.mem_cons_self
      have hrest : ∀ buffer, .read buffer ∈ calls → buffer.length ≤ ptrdiffMax :=
        fun buffer hmem => hcalls buffer (List.mem_cons_of_mem _ hmem)
      -- the two parsers behind the call
      have hnext : (∀ v ∈ callVisitsAlloc T malloc quota x c,
            v.Fits T malloc quota ∧ (2 ^ 62 < quota → v.Countable T malloc)) →
          ((if c = .reset then
              AlwaysWithin T malloc quota (x.call T malloc quota c) (x.call T malloc quota c) calls
            else
              AlwaysWithin T malloc quota (x.call T malloc quota c)
                (y.call T malloc (sizeModulus - 1) c) calls) ↔
            AlwaysFits T malloc quota (x.call T malloc quota c) calls) := by
        intro hfits
        obtain ⟨hcounts, htracked⟩ := call_tracked h hbuffer hfits
        have hwithin' : (x.call T malloc quota c).Within quota :=
          (call_within T malloc quota x c).mpr
            ⟨hwithin, fun v hv => ⟨(hfits v hv).1, hcounts v hv⟩⟩
        split
        · exact ih hrest hwithin' htracked (.inl rfl)
        · next hc => exact ih hrest hwithin' htracked (call_unlimited hc hsame)
      constructor
      · rintro ⟨-, hlater⟩
        have hnow : (x.call T malloc quota c).Within quota := by
          split at hlater
          · exact hlater.now
          · exact hlater.now
        have hfits : ∀ v ∈ callVisitsAlloc T malloc quota x c,
            v.Fits T malloc quota ∧ (2 ^ 62 < quota → v.Countable T malloc) := by
          intro v hv
          obtain ⟨hfits, hcount⟩ := ((call_within T malloc quota x c).mp hnow).2 v hv
          exact ⟨hfits, fun _ => hcount⟩
        exact ⟨hfits, (hnext hfits).mp hlater⟩
      · rintro ⟨hfits, hlater⟩
        exact ⟨⟨hwithin, error_of_large h hsame⟩, (hnext hfits).mpr hlater⟩

/-- **The quota is kept** in a run exactly when every length that a block header announces fits into
it.  With a quota of more than a quarter of the address space the bundle must also be shorter than
the address space. -/
theorem within_quota_iff (T : TinyCbor) (malloc : List Request → Nat → Bool) (quota : Nat)
    (calls : List ParserCall)
    (hcalls : ∀ buffer, .read buffer ∈ calls → buffer.length ≤ ptrdiffMax) :
    AlwaysWithin T malloc quota Buffered.init Buffered.init calls ↔
      AlwaysFits T malloc quota Buffered.init calls := by
  have hinit : Buffered.init.Within quota :=
    ⟨List.forall_mem_nil _, List.forall_mem_nil _, List.forall_mem_nil _⟩
  exact alwaysWithin_iff calls hcalls hinit ⟨fun _ => rfl, fun _ => Nat.zero_le _⟩ (.inl rfl)

/-- A bundle up to the header of a block of 1 MiB. -/
def largeBlock : List UInt8 :=
  [0x9f, 0x88, 7, 0, 0, 0x82, 1, 0, 0x82, 1, 0, 0x82, 1, 0, 0x82, 0, 0, 0,
    0x85, 1, 1, 0, 0, 0x5a, 0, 0x10, 0, 0]

theorem within_quota_iff_largeBlock :
    AlwaysWithin reference (fun _ length => length ≤ 2 ^ 20) 24576 Buffered.init Buffered.init
        [.read largeBlock] ↔
      AlwaysFits reference (fun _ length => length ≤ 2 ^ 20) 24576 Buffered.init
        [.read largeBlock] :=
  within_quota_iff _ _ _ _ fun buffer hbuffer => by
    obtain rfl := ParserCall.read.inj (List.mem_singleton.mp hbuffer)
    decide

/-- **A header of 28 bytes** makes the parser allocate 1 MiB, with a quota of 24 KiB. -/
theorem large_block_requested :
    ¬ AlwaysWithin reference (fun _ length => length ≤ 2 ^ 20) 24576 Buffered.init Buffered.init
      [.read largeBlock] := by
  rintro ⟨-, hwithin, -⟩
  have hrun : (Buffered.init.call reference (fun _ length => length ≤ 2 ^ 20) 24576
      (.read largeBlock)).requests = [⟨0, 2 ^ 20, true⟩] := by
    rfl
  have hle := hwithin.request_le ⟨0, 2 ^ 20, true⟩ (by rw [hrun]; simp)
  revert hle
  decide

end Bundle7
