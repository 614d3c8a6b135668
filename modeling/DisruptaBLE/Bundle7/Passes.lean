import DisruptaBLE.Bundle7.EidRoundTrip
import DisruptaBLE.Bundle7.Parser

/-!
# Passes of the parser of version 7

`Reads` says that the loop of `bundle7_parser_read` takes some bytes, and how it then goes on.
Bytes that are taken one after the other are taken together (`Reads.append`), and a pass takes
the item that its stage reads (`reads_item`).  The rest of the module is one such lemma for each
kind of stage.
-/

namespace Bundle7

open Cbor BundleProcessor

/-- The iterator of the loop in front of `n` items of a container; behind the last one it is to be
initialized. -/
def loopIterator (n : Nat) (l : List UInt8) : Option CborValue :=
  if n = 0 then none else some (stand n l)

/-- The loop takes some bytes, with at most two passes for each of them. -/
def Reads (quota : Nat) (bytes rest : List UInt8) (st : Parser) (n : Nat) (st' : Parser)
    (m : Nat) : Prop :=
  ∃ passes ≤ 2 * bytes.length, ∀ fuel parsed,
    readLoop reference quota (fuel + passes) st parsed (bytes ++ rest)
        (loopIterator n (bytes ++ rest)) =
      readLoop reference quota fuel st' (parsed + bytes.length) rest (loopIterator m rest)

variable {quota n m l size size' : Nat} {bytes item r fed fed' : List UInt8}
  {st st' st'' p : Parser}

theorem Reads.refl : Reads quota [] r st n st n := ⟨0, Nat.zero_le _, fun _ _ => rfl⟩

theorem Reads.append {more : List UInt8} (h : Reads quota bytes (more ++ r) st n st' m)
    (h' : Reads quota more r st' m st'' l) : Reads quota (bytes ++ more) r st n st'' l := by
  obtain ⟨k, hk, hrun⟩ := h
  obtain ⟨k', hk', hrun'⟩ := h'
  refine ⟨k' + k, ?_, ?_⟩
  · rw [List.length_append]
    omega
  · intro fuel parsed
    rw [List.append_assoc, ← Nat.add_assoc, hrun, hrun', List.length_append, Nat.add_assoc]

/-- Some bytes are taken, and then the rest. -/
theorem Reads.next {more : List UInt8} {Q : Parser → Prop}
    (h : Reads quota bytes (more ++ r) st n st' m)
    (h' : ∃ st'', Reads quota more r st' m st'' l ∧ Q st'') :
    ∃ st'', Reads quota (bytes ++ more) r st n st'' l ∧ Q st'' := by
  obtain ⟨st'', hmore, hst''⟩ := h'
  exact ⟨st'', h.append hmore, hst''⟩

theorem parserInit_stand {l : List UInt8} (h : Starts l) :
    reference.parserInit l = (none, stand 1 l) := by
  obtain ⟨head, hhead⟩ := h
  simp [reference, preparseValue, stand, hhead]

/-- A pass begins with the iterator in front of an item. -/
theorem readLoop_iterator (hbulk : st.bulkRead = false) (hstarts : Starts bytes)
    (fuel parsed : Nat) :
    readLoop reference quota fuel st parsed bytes (loopIterator n bytes) =
      readLoop reference quota fuel st parsed bytes (some (stand (max n 1) bytes)) := by
  unfold loopIterator
  split
  · next hn =>
    subst hn
    cases fuel with
    | zero => rfl
    | succ fuel =>
        unfold readLoop
        rw [hbulk, parserInit_stand hstarts]
        rfl
  · next hn => rw [Nat.max_eq_left (Nat.one_le_iff_ne_zero.mpr hn)]

/-- A pass takes the bytes that its stage consumes. -/
theorem readLoop_some {it it' : CborValue} (hgood : st.status = .good)
    (hbulk : st.bulkRead = false) (hitem : item ≠ [])
    (hrun : runStage reference st.parse st it = (.ok it', st')) (hrest : it'.rest = r)
    (hquota : st'.bundleSize + item.length ≤ quota) (fuel parsed : Nat) :
    readLoop reference quota (fuel + 1) st parsed (item ++ r) (some it) =
      readLoop reference quota fuel
        (accountFor { st' with bundleSize := st'.bundleSize + item.length } item).transition
        (parsed + item.length) r (if it'.atEnd then none else some it') := by
  have hconsumed : (item ++ r).length - it'.rest.length = item.length := by
    rw [hrest, List.length_append, Nat.add_sub_cancel]
  have hstop : ¬ (item ++ r = [] ∨ st.status ≠ .good) := by
    rintro (hempty | hbad)
    · exact hitem (List.append_eq_nil_iff.mp hempty).1
    · exact hbad hgood
  conv_lhs => unfold readLoop
  rw [if_neg hstop, hbulk, if_neg Bool.false_ne_true]
  dsimp only
  rw [if_neg (by simp), if_neg (by simp), hrun]
  dsimp only
  rw [hconsumed, if_neg (Nat.not_lt.mpr hquota), List.take_left, List.drop_left]

/-- A bulk read takes its bytes. -/
theorem readLoop_bulk {data : List UInt8} (hgood : st.status = .good) (hbulk : st.bulkRead = true)
    (hbytes : st.nextBytes = data.length) (hr : r ≠ []) (fuel parsed : Nat)
    (iterator : Option CborValue) :
    readLoop reference quota (fuel + 1) st parsed (data ++ r) iterator =
      readLoop reference quota fuel (readNull (fillBulk st data)) (parsed + data.length) r
        none := by
  have hstop : ¬ (data ++ r = [] ∨ st.status ≠ .good) := by
    rintro (hempty | hbad)
    · exact hr (List.append_eq_nil_iff.mp hempty).2
    · exact hbad hgood
  have hroom : ¬ (data ++ r).length < st.nextBytes := by
    rw [List.length_append]
    omega
  conv_lhs => unfold readLoop
  rw [if_neg hstop, hbulk, if_pos rfl, if_neg hroom, hbytes, List.take_left, List.drop_left]

/-- **A pass** reads an item. -/
theorem reads_pass {it : CborValue} (hgood : st.status = .good) (hbulk : st.bulkRead = false)
    (hstarts : Starts (item ++ r)) (hitem : item ≠ [])
    (hrun : runStage reference st.parse st (stand (max n 1) (item ++ r)) = (.ok it, st'))
    (hrest : it.rest = r) (hnext : (if it.atEnd then none else some it) = loopIterator m r)
    (hquota : st'.bundleSize + item.length ≤ quota) :
    Reads quota item r st n
      (accountFor { st' with bundleSize := st'.bundleSize + item.length } item).transition m := by
  have hlength : 0 < item.length := List.length_pos_of_ne_nil hitem
  refine ⟨1, by omega, ?_⟩
  intro fuel parsed
  rw [readLoop_iterator hbulk hstarts, readLoop_some hgood hbulk hitem hrun hrest hquota, hnext]

/-- The parser in front of a stage, when the bytes `fed` were fed to the checksums. -/
def Parser.atStage (p : Parser) (stage : Stage) (feed : Bool) (fed : List UInt8) (size : Nat)
    (draft : Draft) : Parser :=
  { p with
    status := .good
    crcInvalid := false
    bulkRead := false
    crcFeed := feed
    crc16 := crcFeedBytes (crcInit .crc16X25) fed
    crc32 := crcFeedBytes (crcInit .crc32) fed
    bundleSize := size
    draft := draft
    parse := stage
    next := some stage }

/-- The bytes that were fed, with those of an item. -/
def fedWith (feed : Bool) (fed item : List UInt8) : List UInt8 :=
  if feed then fed ++ item else fed

variable {stage next : Stage} {feed feed' : Bool} {draft draft' : Draft}

/-- The parser between two blocks. -/
structure Parser.Between (st : Parser) (stage : Stage) (size : Nat) (draft : Draft)
    (log : List Event) : Prop where
  status : st.status = .good
  crcInvalid : st.crcInvalid = false
  bulkRead : st.bulkRead = false
  parse : st.parse = stage
  bundleSize : st.bundleSize = size
  draft : st.draft = draft
  log : st.log = log

theorem Parser.Between.cast {log log' : List Event} (h : st.Between stage size draft log)
    (hsize : size = size') (hlog : log = log') : st.Between stage size' draft log' := by
  subst hsize hlog
  exact h

/-- **An item** is taken by its stage. -/
theorem reads_item {it : CborValue} (hstarts : Starts (item ++ r)) (hitem : item ≠ [])
    (hrun : runStage reference stage (p.atStage stage feed fed size draft)
        (stand (max n 1) (item ++ r)) =
      (.ok it, { p.atStage stage feed' fed' size draft' with next := some next }))
    (hrest : it.rest = r) (hnext : (if it.atEnd then none else some it) = loopIterator m r)
    (hquota : size + item.length ≤ quota) :
    Reads quota item r (p.atStage stage feed fed size draft) n
      (p.atStage next feed' (fedWith feed' fed' item) (size + item.length) draft')
      m := by
  have hgood : (p.atStage stage feed fed size draft).status = .good := rfl
  have hpass := reads_pass hgood rfl hstarts hitem hrun hrest hnext hquota
  have hstate : (accountFor { ({ p.atStage stage feed' fed' size draft' with
        next := some next } : Parser) with bundleSize := size + item.length } item).transition =
      p.atStage next feed' (fedWith feed' fed' item) (size + item.length) draft' := by
    unfold accountFor Parser.transition Parser.atStage fedWith
    cases feed' with
    | false => rfl
    | true =>
        simp only [if_true, crcFeedBytes_append]
        rfl
  rw [← hstate]
  exact hpass

theorem next_stand (m : Nat) (r : List UInt8) :
    (if (stand m r).atEnd then none else some (stand m r)) = loopIterator m r := by
  rw [atEnd_stand, loopIterator]
  by_cases hm : m = 0
  · subst hm
    rfl
  · rw [if_neg hm, if_neg (by simpa using hm)]

theorem encodeHead_ne_nil (k : Kind) (v : Nat) : encodeHead k v ≠ [] := by
  unfold encodeHead
  split_ifs <;> exact List.cons_ne_nil _ _

/-! ## Stages of the primary block -/

/-- Behind the begin of a container of unknown length. -/
theorem enter_indefinite {l : List UInt8} {h : Head} (hl : readHead l = .head h) (m : Nat) :
    reference.enterContainer (stand m (0x9f :: l)) =
      .ok ⟨l, some h.kind, h.arg.isSome, none⟩ := by
  have hfront : readHead (0x9f :: l) = .head ⟨.array, none, 1⟩ := rfl
  have hbreak : l.head? ≠ some 0xff := by
    cases l with
    | nil => simp
    | cons b l =>
        intro hb
        obtain rfl : b = 0xff := by simpa using hb
        cases hl
  simp only [reference, headOf_stand hfront, rest_stand, List.drop_succ_cons, List.drop_zero]
  unfold preparseItem preparseValue
  rw [if_neg (fun hc => hbreak hc.2), hl]
  rfl

/-- A bundle begins with its array, and the primary block begins with another one. -/
theorem reads_bundleStart {log : List Event} (hst : st.Between .bundleStart size draft log)
    (hready : Ready n r) (hlt : n < 24)
    (hquota : size + (0x9f :: encodeHead .array n).length ≤ quota) :
    Reads quota (0x9f :: encodeHead .array n) r st 0
      (st.atStage .protocolVersion true (encodeHead .array n)
        (size + (0x9f :: encodeHead .array n).length) draft) n := by
  obtain ⟨hstatus, hcrc, hbulk, hparse, hsize, hdraft, -⟩ := hst
  let header := encodeHead .array n
  let behind : CborValue := ⟨header ++ r, some .array, true, none⟩
  have hhead := readHead_encodeHead (k := .array) (by decide) (by omega : n < 2 ^ 64) r
  let st₁ : Parser := { st with next := some .primaryBlockStart }
  let st₂ : Parser := (accountFor { st₁ with bundleSize := st.bundleSize + 1 } [0x9f]).transition
  have hstart : runStage reference st.parse st (stand 1 ([0x9f] ++ (header ++ r))) =
      (.ok behind, st₁) := by
    rw [hparse]
    change bundleStart reference st (stand 1 (0x9f :: (header ++ r))) = _
    have hfront : readHead (0x9f :: (header ++ r)) = .head ⟨.array, none, 1⟩ := rfl
    rw [bundleStart, enter_indefinite hhead, stand_succ hfront]
    rfl
  have hprimary : runStage reference st₂.parse st₂ behind =
      (.ok (stand n r), { crcStart st₂ with next := some .protocolVersion }) := by
    change primaryBlockStart reference st₂ behind = _
    have henter : reference.enterContainer behind = .ok (stand n r) :=
      enter_array (n := 0) (by omega) hready
    rw [primaryBlockStart, henter]
    rfl
  refine ⟨2, by simp, ?_⟩
  intro fuel parsed
  rw [List.length_cons] at hquota
  have hfirst : st₁.bundleSize + 1 ≤ quota := by
    change st.bundleSize + 1 ≤ quota
    omega
  have hsecond : (crcStart st₂).bundleSize + header.length ≤ quota := by
    change st.bundleSize + 1 + (encodeHead .array n).length ≤ quota
    omega
  have hpass := @readLoop_some quota [0x9f] (header ++ r) st st₁ _ _ hstatus hbulk
    (List.cons_ne_nil _ _) hstart rfl hfirst (fuel + 1) parsed
  have hpass' := @readLoop_some quota header r st₂ _ _ _ hstatus hbulk (encodeHead_ne_nil _ _)
    hprimary (rest_stand n r) hsecond fuel (parsed + 1)
  have hstate : (accountFor { ({ crcStart st₂ with next := some .protocolVersion } : Parser) with
      bundleSize := (crcStart st₂).bundleSize + header.length } header).transition =
      st.atStage .protocolVersion true header (size + (0x9f :: header).length) draft := by
    unfold accountFor Parser.transition Parser.atStage crcStart
    have hstatus₂ : st₂.status = .good := hstatus
    have hcrc₂ : st₂.crcInvalid = false := hcrc
    have hbulk₂ : st₂.bulkRead = false := hbulk
    have hdraft₂ : st₂.draft = draft := hdraft
    have hsize₂ : st₂.bundleSize + header.length = size + (0x9f :: header).length := by
      change st.bundleSize + 1 + header.length = _
      rw [hsize, List.length_cons, Nat.add_assoc, Nat.add_comm 1]
    simp only [if_true, hstatus₂, hcrc₂, hbulk₂, hdraft₂, hsize₂]
    rfl
  rw [readLoop_iterator hbulk ⟨_, rfl⟩]
  refine hpass.trans (hpass'.trans ?_)
  rw [next_stand, hstate, List.length_cons, Nat.add_assoc, Nat.add_comm 1]

section Stages

variable {v : Nat} {store : Draft → UInt64 → Draft}

/-- A number is stored. -/
theorem reads_uint (hstage : runStage reference stage = readUint reference next store)
    (hv : v < 2 ^ 64) (hready : Ready m r) (hquota : size + (encodeHead .uint v).length ≤ quota) :
    Reads quota (encodeHead .uint v) r (p.atStage stage feed fed size draft) (m + 1)
      (p.atStage next feed (fedWith feed fed (encodeHead .uint v))
        (size + (encodeHead .uint v).length) (store draft (UInt64.ofNat v))) m := by
  apply reads_item (starts_encode (by decide) hv r) (encodeHead_ne_nil _ _) _ (rest_stand m r)
    (next_stand m r) hquota
  rw [hstage, readUint, Nat.max_eq_left (Nat.le_add_left 1 m), isUnsignedInteger_stand hv,
    if_pos rfl, advance_uint hv hready, getUint64_stand hv]
  rfl

/-- The type of a checksum decides whether the bytes of the block are fed further. -/
theorem reads_crcType {code : UInt64} (hcode : code ≤ 2) (hready : Ready m r)
    (hquota : size + (encodeHead .uint code.toNat).length ≤ quota) :
    Reads quota (encodeHead .uint code.toNat) r (p.atStage .crcType feed fed size draft) (m + 1)
      (p.atStage .destinationEid (feed && crcTypeOf code.toUInt32 ≠ .none)
        (fedWith (feed && crcTypeOf code.toUInt32 ≠ .none) fed (encodeHead .uint code.toNat))
        (size + (encodeHead .uint code.toNat).length)
        { draft with crcType := crcTypeOf code.toUInt32 }) m := by
  apply reads_item (starts_encode (by decide) code.toNat_lt r) (encodeHead_ne_nil _ _) _
    (rest_stand m r) (next_stand m r) hquota
  change crcType reference _ _ = _
  rw [crcType, Nat.max_eq_left (Nat.le_add_left 1 m), isUnsignedInteger_stand code.toNat_lt,
    if_pos rfl, advance_uint code.toNat_lt hready, getUint64_stand code.toNat_lt,
    UInt64.ofNat_toNat]
  dsimp only
  rw [if_neg (UInt64.not_lt.mpr hcode)]
  rfl

/-- An identifier is stored as it is read back. -/
theorem reads_eid {store : Draft → CStr → Draft} {eid : CStr}
    (hstage : runStage reference stage = parseEid reference next store) (hstring : IsCString eid)
    (hlen : eid.take 4 = "dtn:".toList → eid.length < 2 ^ 64)
    (hwire : bundle7EidSerializeCbor reference eid = some bytes)
    (hready : Ready m r) (hquota : size + bytes.length ≤ quota) :
    Reads quota bytes r (p.atStage stage feed fed size draft) (m + 1)
      (p.atStage next feed (fedWith feed fed bytes) (size + bytes.length)
        (store draft (readBack eid))) m := by
  have hne : bytes ≠ [] := by
    obtain ⟨body, rfl⟩ := exists_wire hwire
    exact List.append_ne_nil_of_left_ne_nil (encodeHead_ne_nil _ _) _
  apply reads_item (starts_eid hwire r) hne _ (rest_stand m r) (next_stand m r) hquota
  rw [hstage, parseEid, Nat.max_eq_left (Nat.le_add_left 1 m),
    parse_serialized hready hstring hlen hwire]
  rfl

/-- The creation timestamp is an array of two numbers. -/
theorem reads_creationTimestamp {t q : UInt64}
    (hbytes : bytes = encodeHead .array 2 ++ (encodeHead .uint t.toNat ++ encodeHead .uint q.toNat))
    (hready : Ready m r) (hquota : size + bytes.length ≤ quota) :
    Reads quota bytes r (p.atStage .creationTimestamp feed fed size draft) (m + 1)
      (p.atStage .lifetime feed (fedWith feed fed bytes) (size + bytes.length)
        { draft with creationTimestampMs := t, sequenceNumber := q }) m := by
  have hsplit : bytes ++ r =
      encodeHead .array 2 ++ (encodeHead .uint t.toNat ++ (encodeHead .uint q.toNat ++ r)) := by
    rw [hbytes, List.append_assoc, List.append_assoc]
  have hne : bytes ≠ [] := by
    rw [hbytes]
    exact List.append_ne_nil_of_left_ne_nil (encodeHead_ne_nil _ _) _
  have hstarts : Starts (bytes ++ r) := by
    rw [hsplit]
    exact starts_encode (by decide) (by decide) _
  apply reads_item hstarts hne _ (rest_stand m r) (next_stand m r) hquota
  change creationTimestamp reference _ _ = _
  rw [creationTimestamp, bundle7TimestampParse, Nat.max_eq_left (Nat.le_add_left 1 m), hsplit,
    isArray_stand (by decide), if_pos rfl,
    enter_array (by decide) (ready_of_starts (starts_encode (by decide) t.toNat_lt _))]
  dsimp only
  rw [isUnsignedInteger_stand t.toNat_lt, if_pos rfl,
    advance_uint t.toNat_lt (ready_of_starts (starts_encode (by decide) q.toNat_lt _)),
    getUint64_stand t.toNat_lt]
  dsimp only [checked]
  rw [timestampSequence, isUnsignedInteger_stand q.toNat_lt, if_pos rfl,
    advance_uint q.toNat_lt (ready_zero _), getUint64_stand q.toNat_lt]
  dsimp only [checked]
  rw [atEnd_stand, beq_self_eq_true, if_pos rfl, leave_array (by decide) hready,
    UInt64.ofNat_toNat, UInt64.ofNat_toNat]
  rfl

/-! ## The end of the primary block -/

/-- The draft behind the numbers of the primary block, when this has some length. -/
def endFields (draft : Draft) (length : Nat) : Draft :=
  if draft.crcType ≠ .none then draft
  else { draft with primaryBlockLength := UInt16.ofNat length }

/-- The stage behind the numbers of the primary block. -/
def endStage (draft : Draft) : Stage :=
  if draft.crcType ≠ .none then .primaryBlockCrc else .blockStart

theorem primaryFieldsEnd_atStage (consumed : Nat) :
    primaryFieldsEnd (p.atStage stage feed fed size draft) consumed =
      { p.atStage stage feed fed size (endFields draft (size - 1 + consumed)) with
        next := some (endStage draft) } := by
  unfold primaryFieldsEnd endFields endStage
  by_cases hcrc : draft.crcType ≠ .none
  · rw [if_pos hcrc, if_pos hcrc]
    exact if_pos hcrc
  · rw [if_neg hcrc, if_neg hcrc]
    exact if_neg hcrc

/-- The lifetime of a fragment. -/
theorem reads_lifetime_fragment {t : UInt64} (hfragment : draft.isFragmented = true)
    (hready : Ready m r) (hquota : size + (encodeHead .uint t.toNat).length ≤ quota) :
    Reads quota (encodeHead .uint t.toNat) r (p.atStage .lifetime feed fed size draft) (m + 1)
      (p.atStage .fragmentOffset feed (fedWith feed fed (encodeHead .uint t.toNat))
        (size + (encodeHead .uint t.toNat).length) { draft with lifetimeMs := t }) m := by
  apply reads_item (starts_encode (by decide) t.toNat_lt r) (encodeHead_ne_nil _ _) _
    (rest_stand m r) (next_stand m r) hquota
  change lifetime reference _ _ = _
  rw [lifetime, Nat.max_eq_left (Nat.le_add_left 1 m), isUnsignedInteger_stand t.toNat_lt,
    if_pos rfl, advance_uint t.toNat_lt hready, getUint64_stand t.toNat_lt, UInt64.ofNat_toNat]
  dsimp only
  rw [if_pos (by exact hfragment)]
  rfl

/-- The lifetime, when it is the last number. -/
theorem reads_lifetime {t : UInt64} (hwhole : draft.isFragmented = false) (hready : Ready m r)
    (hquota : size + (encodeHead .uint t.toNat).length ≤ quota) :
    Reads quota (encodeHead .uint t.toNat) r (p.atStage .lifetime feed fed size draft) (m + 1)
      (p.atStage (endStage draft) feed (fedWith feed fed (encodeHead .uint t.toNat))
        (size + (encodeHead .uint t.toNat).length)
        (endFields { draft with lifetimeMs := t }
          (size - 1 + (encodeHead .uint t.toNat).length))) m := by
  apply reads_item (starts_encode (by decide) t.toNat_lt r) (encodeHead_ne_nil _ _) _
    (rest_stand m r) (next_stand m r) hquota
  have hnot : ¬ draft.isFragmented = true := Bool.not_eq_true _ ▸ hwhole
  have hend := @primaryFieldsEnd_atStage size fed p .lifetime feed { draft with lifetimeMs := t }
    (encodeHead .uint t.toNat).length
  change lifetime reference _ _ = _
  rw [lifetime, Nat.max_eq_left (Nat.le_add_left 1 m), isUnsignedInteger_stand t.toNat_lt,
    if_pos rfl, advance_uint t.toNat_lt hready, getUint64_stand t.toNat_lt, UInt64.ofNat_toNat]
  dsimp only
  rw [if_neg (by exact hnot), rest_stand, rest_stand, List.length_append, Nat.add_sub_cancel]
  exact congrArg (Prod.mk _) hend

/-- The total length of an ADU is the last number of a fragment. -/
theorem reads_totalAduLength {t : UInt32} (hready : Ready m r)
    (hquota : size + (encodeHead .uint t.toUInt64.toNat).length ≤ quota) :
    Reads quota (encodeHead .uint t.toUInt64.toNat) r
      (p.atStage .totalAduLength feed fed size draft) (m + 1)
      (p.atStage (endStage draft) feed (fedWith feed fed (encodeHead .uint t.toUInt64.toNat))
        (size + (encodeHead .uint t.toUInt64.toNat).length)
        (endFields { draft with totalAduLength := t }
          (size - 1 + (encodeHead .uint t.toUInt64.toNat).length))) m := by
  have hlt := t.toUInt64.toNat_lt
  apply reads_item (starts_encode (by decide) hlt r) (encodeHead_ne_nil _ _) _
    (rest_stand m r) (next_stand m r) hquota
  have hend := @primaryFieldsEnd_atStage size fed p .totalAduLength feed
    { draft with totalAduLength := t } (encodeHead .uint t.toUInt64.toNat).length
  change totalAduLength reference _ _ = _
  rw [totalAduLength, Nat.max_eq_left (Nat.le_add_left 1 m), isUnsignedInteger_stand hlt,
    if_pos rfl, advance_uint hlt hready, getUint64_stand hlt, UInt64.ofNat_toNat,
    UInt32.toUInt32_toUInt64]
  dsimp only
  rw [rest_stand, rest_stand, List.length_append, Nat.add_sub_cancel]
  exact congrArg (Prod.mk _) hend

end Stages

/-! ## Checksums -/

/-- The type of a block with a checksum. -/
def CrcVersion.type : CrcVersion → CrcType
  | .crc16X25 => .crc16
  | .crc32 => .crc32

/-- The number of bytes of a checksum. -/
def CrcVersion.width : CrcVersion → Nat
  | .crc16X25 => 2
  | .crc32 => 4

/-- The checksum of some bytes and of its own field, which counts as zero. -/
def checksumOf (v : CrcVersion) (fed : List UInt8) : UInt32 :=
  (crcZero (crcFeedBytes (crcInit v) fed)).checksum

/-- The field of a checksum. -/
def checksumField (v : CrcVersion) (fed : List UInt8) : List UInt8 :=
  encodeHead .bytes v.width ++ toBytes v.width (checksumOf v fed).toNat

theorem version_crcFeedBytes (crc : CrcStream) (data : List UInt8) :
    (crcFeedBytes crc data).version = crc.version := by
  induction data generalizing crc with
  | nil => rfl
  | cons byte data ih =>
      change (crcFeedBytes (crc.feed byte) data).version = crc.version
      rw [ih]
      unfold CrcStream.feed
      split <;> rfl

theorem crcZero_narrow {crc : CrcStream} (h : crc.Narrow) : (crcZero crc).Narrow := by
  unfold crcZero
  rw [h.version]
  exact (h.feedBytes _).feedEof

theorem checksumOf_lt (v : CrcVersion) (fed : List UInt8) :
    (checksumOf v fed).toNat < 256 ^ v.width := by
  cases v with
  | crc16X25 => exact (crcZero_narrow (narrow_init.feedBytes fed)).bits
  | crc32 => exact UInt32.toNat_lt _

/-- A checksum is verified against its field. -/
theorem crcVerify_field (st : Parser) (v : CrcVersion) (fed : List UInt8) :
    crcVerify st (checksumOf v fed)
      (UInt32.ofNat (beNat (toBytes v.width (checksumOf v fed).toNat))) = st := by
  rw [beNat_toBytes (checksumOf_lt v fed), UInt32.ofNat_toNat]
  exact if_neg (not_not.mpr rfl)

/-- The field of a checksum is copied. -/
theorem copy_checksum (v : CrcVersion) (fed r : List UInt8) :
    (stand 1 (checksumField v fed ++ r)).isByteString = true ∧
      reference.copyString (stand 1 (checksumField v fed ++ r)) 4 =
        .ok (toBytes v.width (checksumOf v fed).toNat, stand 0 r) := by
  have hlength : (toBytes v.width (checksumOf v fed).toNat).length = v.width := length_toBytes _ _
  have hfield : checksumField v fed ++ r =
      encodeHead .bytes (toBytes v.width (checksumOf v fed).toNat).length ++
        (toBytes v.width (checksumOf v fed).toNat ++ r) := by
    rw [hlength, checksumField, List.append_assoc]
  have hwidth : v.width ≤ 4 := by cases v <;> decide
  constructor
  · rw [hfield]
    exact isByteString_stand (by omega)
  · rw [hfield]
    exact copy_string (by decide) (by decide) (by omega) (by omega) (ready_zero r)

theorem starts_checksumField (v : CrcVersion) (fed r : List UInt8) :
    Starts (checksumField v fed ++ r) := by
  rw [checksumField, List.append_assoc]
  apply starts_encode (by decide)
  cases v <;> decide

theorem checksumField_ne_nil (v : CrcVersion) (fed : List UInt8) : checksumField v fed ≠ [] :=
  List.append_ne_nil_of_left_ne_nil (encodeHead_ne_nil _ _) _

/-- The checksum of the primary block is the right one. -/
theorem reads_primaryCrc {v : CrcVersion} {field : List UInt8} {Q : Parser → Prop}
    (hcrc : draft.crcType = v.type) (hfield : field = checksumField v fed)
    (hquota : size + field.length ≤ quota)
    (hQ : ∀ st', st'.Between .blockStart (size + field.length)
      { draft with primaryBlockLength := UInt16.ofNat (size - 1 + field.length) } p.log → Q st') :
    ∃ st', Reads quota field r (p.atStage .primaryBlockCrc feed fed size draft) 1 st' 0 ∧
      Q st' := by
  subst hfield
  obtain ⟨hbytes, hcopy⟩ := copy_checksum v fed r
  let st : Parser := p.atStage .primaryBlockCrc feed fed size draft
  let draft' : Draft :=
    { draft with primaryBlockLength := UInt16.ofNat (size - 1 + (checksumField v fed).length) }
  have hlength : (toBytes v.width (checksumOf v fed).toNat).length = v.width := length_toBytes _ _
  have hrun : ∃ c₁ c₂, runStage reference .primaryBlockCrc st
      (stand 1 (checksumField v fed ++ r)) =
      (.ok (stand 0 r), { st with
        crcFeed := false, crc16 := c₁, crc32 := c₂, draft := draft'
        next := some .blockStart }) := by
    change ∃ c₁ c₂, primaryBlockCrc reference st _ = _
    rw [primaryBlockCrc, hbytes, if_pos rfl, hcopy]
    dsimp only
    cases v with
    | crc16X25 =>
        have htype : st.draft.crcType = .crc16 := hcrc
        have hverify : ∀ st₁, crcVerify st₁ (crcZero st.crc16).checksum (UInt32.ofNat
            (beNat (toBytes CrcVersion.crc16X25.width (checksumOf .crc16X25 fed).toNat))) = st₁ :=
          fun st₁ => crcVerify_field st₁ .crc16X25 fed
        have hwidth : ¬ (toBytes CrcVersion.crc16X25.width
            (checksumOf .crc16X25 fed).toNat).length ≠ 2 := not_not.mpr hlength
        rw [if_pos htype, if_neg hwidth]
        simp only [hverify]
        exact ⟨_, _, rfl⟩
    | crc32 =>
        have htype : st.draft.crcType ≠ .crc16 := by
          rw [show st.draft.crcType = .crc32 from hcrc]
          decide
        have hverify : ∀ st₁, crcVerify st₁ (crcZero st.crc32).checksum (UInt32.ofNat
            (beNat (toBytes CrcVersion.crc32.width (checksumOf .crc32 fed).toNat))) = st₁ :=
          fun st₁ => crcVerify_field st₁ .crc32 fed
        have hwidth : ¬ (toBytes CrcVersion.crc32.width
            (checksumOf .crc32 fed).toNat).length ≠ 4 := not_not.mpr hlength
        rw [if_neg htype, if_neg hwidth]
        simp only [hverify]
        exact ⟨_, _, rfl⟩
  obtain ⟨c₁, c₂, hrun⟩ := hrun
  have hgood : st.status = .good := rfl
  have hread := reads_pass (n := 1) hgood rfl (starts_checksumField v fed r)
    (checksumField_ne_nil v fed) hrun (rest_stand 0 r) (next_stand 0 r) hquota
  exact ⟨_, hread, hQ _ ⟨rfl, rfl, rfl, rfl, rfl, rfl, rfl⟩⟩

/-! ## Stages of a block -/

/-- A block begins with its array, and the checksums begin with it. -/
theorem reads_blockStart {log : List Event} (hst : st.Between .blockStart size draft log)
    (hready : Ready n r) (hlt : n < 24) (hquota : size + (encodeHead .array n).length ≤ quota) :
    Reads quota (encodeHead .array n) r st 0
      (st.atStage .blockType true (encodeHead .array n) (size + (encodeHead .array n).length)
        draft) n := by
  obtain ⟨hstatus, hcrc, hbulk, hparse, hsize, hdraft, -⟩ := hst
  have hrun : runStage reference st.parse st (stand 1 (encodeHead .array n ++ r)) =
      (.ok (stand n r), { crcStart st with next := some .blockType }) := by
    rw [hparse]
    change blockStart reference st _ = _
    rw [blockStart, isArray_stand (by omega), if_pos rfl, enter_array (by omega) hready]
  have hpass := reads_pass (n := 0) hstatus hbulk (starts_encode (by decide) (by omega) r)
    (encodeHead_ne_nil _ _) hrun (rest_stand n r) (next_stand n r) (hsize ▸ hquota)
  have hstate : (accountFor { ({ crcStart st with next := some .blockType } : Parser) with
      bundleSize := st.bundleSize + (encodeHead .array n).length }
        (encodeHead .array n)).transition =
      st.atStage .blockType true (encodeHead .array n) (size + (encodeHead .array n).length)
        draft := by
    unfold accountFor Parser.transition Parser.atStage crcStart
    simp only [hstatus, hcrc, hbulk, hsize, hdraft, if_true]
    rfl
  rw [← hstate]
  exact hpass

/-- The type of the checksum of a block. -/
theorem reads_blockCrcType {code : UInt64} (hready : Ready m r)
    (hquota : size + (encodeHead .uint code.toNat).length ≤ quota) :
    Reads quota (encodeHead .uint code.toNat) r (p.atStage .blockCrcType feed fed size draft)
      (m + 1)
      (p.atStage .blockData (feed && code ≠ 0)
        (fedWith (feed && code ≠ 0) fed (encodeHead .uint code.toNat))
        (size + (encodeHead .uint code.toNat).length)
        { draft with block := { draft.block with crcType := crcTypeOf code.toUInt32 } }) m := by
  apply reads_item (starts_encode (by decide) code.toNat_lt r) (encodeHead_ne_nil _ _) _
    (rest_stand m r) (next_stand m r) hquota
  change blockCrcType reference _ _ = _
  rw [blockCrcType, Nat.max_eq_left (Nat.le_add_left 1 m), isUnsignedInteger_stand code.toNat_lt,
    if_pos rfl, advance_uint code.toNat_lt hready, getUint64_stand code.toNat_lt,
    UInt64.ofNat_toNat]
  rfl

/-- The draft behind a block. -/
def closeBlock (draft : Draft) : Draft :=
  if draft.block.type = blockTypePayload then
    { draft with payload := some draft.block.toBlockBody }
  else { draft with blocks := draft.blocks ++ [draft.block] }

/-- The stage behind a block. -/
def closeStage (draft : Draft) : Stage :=
  if draft.block.type = blockTypePayload then .bundleEnd else .blockStart

theorem between_blockEnd {log : List Event} (hstatus : st.status = .good)
    (hcrc : st.crcInvalid = false) (hbulk : st.bulkRead = false) (hsize : st.bundleSize = size)
    (hdraft : st.draft = draft) (hlog : st.log = log) :
    (blockEnd st).transition.Between (closeStage draft) size (closeBlock draft) log := by
  unfold blockEnd Parser.transition closeStage closeBlock
  rw [hdraft]
  split
  · exact ⟨hstatus, hcrc, hbulk, rfl, hsize, rfl, hlog⟩
  · exact ⟨hstatus, hcrc, hbulk, rfl, hsize, rfl, hlog⟩

/-- The bytes of a pass are counted. -/
theorem Parser.Between.account {log : List Event}
    (h : st.transition.Between stage size draft log) (item : List UInt8) :
    (accountFor { st with bundleSize := st.bundleSize + item.length } item).transition.Between stage
      (size + item.length) draft log :=
  ⟨h.status, h.crcInvalid, h.bulkRead, h.parse, congrArg (· + item.length) h.bundleSize, h.draft,
    h.log⟩

theorem rest_preparseItem (n : Nat) (l : List UInt8) : (preparseItem (some n) l).2.rest = l := by
  unfold preparseItem preparseValue
  rw [if_neg (by simp)]
  split <;> rfl

/-- The iterator behind the header of a string goes on with its bytes. -/
theorem rest_advance_header {v : Nat} (hv : v < 2 ^ 64) :
    (reference.advanceFixed
      { stand (m + 1) (encodeHead .bytes v ++ r) with type := some .uint }).2.rest = r := by
  have hl := readHead_encodeHead (k := .bytes) (by decide) hv r
  have hdrop : (encodeHead .bytes v ++ r).drop (encodeHead .bytes v).length = r := List.drop_left
  rw [stand_succ hl]
  simp only [reference, headOf, hl, preparseNext, hdrop]
  rw [if_neg (by decide)]
  split
  · rfl
  · exact rest_preparseItem _ r

/-- **The data of a block** is a bulk read, and `st` is the parser behind its header. -/
theorem reads_data {data : List UInt8} (hlength : data.length < 2 ^ 64) (hr : r ≠ [])
    (hquota : size + (encodeHead .bytes data.length ++ data).length ≤ quota) :
    Reads quota (encodeHead .bytes data.length ++ data) r
      (p.atStage .blockData feed fed size draft) (m + 1)
      (readNull (fillBulk (({ p with nextBytes := data.length } : Parser).atStage
        (if draft.block.crcType ≠ .none then .blockCrc else .blockEnd) true
        (fed ++ encodeHead .bytes data.length)
        (size + (encodeHead .bytes data.length ++ data).length) draft) data)) 0 := by
  let header := encodeHead .bytes data.length
  let next : Stage := if draft.block.crcType ≠ .none then .blockCrc else .blockEnd
  have hheader : 0 < (encodeHead .bytes data.length).length :=
    List.length_pos_of_ne_nil (encodeHead_ne_nil _ _)
  rw [List.length_append] at hquota
  refine ⟨2, by rw [List.length_append]; omega, ?_⟩
  intro fuel parsed
  let st : Parser := p.atStage .blockData feed fed size draft
  let st' : Parser :=
    { st with
      crcFeed := true
      nextBytes := data.length
      bulkRead := true
      bundleSize := size + data.length
      next := some next }
  have hstage : runStage reference .blockData st (stand (max (m + 1) 1) (header ++ (data ++ r))) =
      (.ok (reference.advanceFixed
        { stand (m + 1) (header ++ (data ++ r)) with type := some .uint }).2, st') := by
    change blockData reference _ _ = _
    rw [blockData, Nat.max_eq_left (Nat.le_add_left 1 m), isByteString_stand hlength, if_pos rfl,
      getStringLength_stand (by decide) hlength]
    rfl
  have hsize : size + data.length + header.length ≤ quota := by
    change size + data.length + (encodeHead .bytes data.length).length ≤ quota
    omega
  have hpass := @readLoop_some quota header (data ++ r) st st' _ _ rfl rfl
    (encodeHead_ne_nil _ _) hstage (rest_advance_header hlength) hsize (fuel + 1) parsed
  rw [List.append_assoc, readLoop_iterator rfl (starts_encode (by decide) hlength _), hpass,
    readLoop_bulk rfl rfl rfl hr]
  have hbehind : fillBulk (accountFor { st' with bundleSize := st'.bundleSize + header.length }
        header).transition data =
      fillBulk (({ p with nextBytes := data.length } : Parser).atStage next true (fed ++ header)
        (size + (header ++ data).length) draft) data := by
    unfold fillBulk accountFor Parser.transition Parser.atStage
    have hbytes : st'.bundleSize + header.length = size + (header ++ data).length := by
      rw [List.length_append]
      change size + data.length + header.length = _
      omega
    simp only [hbytes, crcFeedBytes_append]
    rfl
  rw [hbehind, List.length_append, Nat.add_assoc]
  rfl

theorem bulkBuffer_bytes (d : Buffer) : bulkBuffer d.bytes = d := by
  obtain ⟨bytes, hfits⟩ := d
  unfold bulkBuffer
  simp only [Nat.mod_eq_of_lt hfits, List.take_length]

/-- The data of a block without a checksum ends it. -/
theorem reads_lastData {d : Buffer} {Q : Parser → Prop} (hcrc : draft.block.crcType = .none)
    (hr : r ≠ [])
    (hquota : size + (encodeHead .bytes d.bytes.length ++ d.bytes).length ≤ quota)
    (hQ : ∀ st', st'.Between (closeStage { draft with block := { draft.block with data := d } })
      (size + (encodeHead .bytes d.bytes.length ++ d.bytes).length)
      (closeBlock { draft with block := { draft.block with data := d } }) p.log → Q st') :
    ∃ st', Reads quota (encodeHead .bytes d.bytes.length ++ d.bytes) r
        (p.atStage .blockData feed fed size draft) (m + 1) st' 0 ∧ Q st' := by
  have hread := @reads_data quota m size r fed p feed draft d.bytes
    (Nat.lt_trans d.fits (by decide)) hr hquota
  rw [if_neg (not_not.mpr hcrc)] at hread
  refine ⟨_, hread, hQ _ ?_⟩
  apply between_blockEnd
  · rfl
  · rfl
  · rfl
  · rfl
  · unfold fillBulk
    rw [bulkBuffer_bytes]
    rfl
  · rfl

/-- The data of a block with a checksum. -/
theorem reads_checkedData {d : Buffer} (hcrc : draft.block.crcType ≠ .none) (hr : r ≠ [])
    (hquota : size + (encodeHead .bytes d.bytes.length ++ d.bytes).length ≤ quota) :
    Reads quota (encodeHead .bytes d.bytes.length ++ d.bytes) r
      (p.atStage .blockData feed fed size draft) (m + 1)
      (({ p with nextBytes := d.bytes.length } : Parser).atStage .blockCrc true
        (fed ++ encodeHead .bytes d.bytes.length)
        (size + (encodeHead .bytes d.bytes.length ++ d.bytes).length)
        { draft with block := { draft.block with data := d } }) 0 := by
  have hread := @reads_data quota m size r fed p feed draft d.bytes
    (Nat.lt_trans d.fits (by decide)) hr hquota
  rw [if_pos hcrc] at hread
  have hfill : readNull (fillBulk (({ p with nextBytes := d.bytes.length } : Parser).atStage
        .blockCrc true (fed ++ encodeHead .bytes d.bytes.length)
        (size + (encodeHead .bytes d.bytes.length ++ d.bytes).length) draft) d.bytes) =
      ({ p with nextBytes := d.bytes.length } : Parser).atStage .blockCrc true
        (fed ++ encodeHead .bytes d.bytes.length)
        (size + (encodeHead .bytes d.bytes.length ++ d.bytes).length)
        { draft with block := { draft.block with data := d } } := by
    unfold fillBulk
    rw [bulkBuffer_bytes]
    rfl
  rw [← hfill]
  exact hread

/-- The checksum of a block is the right one. -/
theorem reads_blockCrc {v : CrcVersion} {field : List UInt8} {Q : Parser → Prop}
    (hcrc : draft.block.crcType = v.type)
    (hfield : field = checksumField v (fed ++ draft.block.data.bytes))
    (hquota : size + field.length ≤ quota)
    (hQ : ∀ st', st'.Between (closeStage draft) (size + field.length) (closeBlock draft) p.log →
      Q st') :
    ∃ st', Reads quota field r (p.atStage .blockCrc feed fed size draft) 0 st' 0 ∧ Q st' := by
  subst hfield
  let all := fed ++ draft.block.data.bytes
  obtain ⟨hbytes, hcopy⟩ := copy_checksum v all r
  let st : Parser := p.atStage .blockCrc feed fed size draft
  have hlength : (toBytes v.width (checksumOf v all).toNat).length = v.width := length_toBytes _ _
  have hrun : ∃ c₁ c₂, runStage reference .blockCrc st (stand 1 (checksumField v all ++ r)) =
      (.ok (stand 0 r), blockEnd { st with crcFeed := false, crc16 := c₁, crc32 := c₂ }) := by
    change ∃ c₁ c₂, blockCrc reference st _ = _
    rw [blockCrc, hbytes, if_pos rfl, hcopy]
    dsimp only
    cases v with
    | crc16X25 =>
        have htype : st.draft.block.crcType = .crc16 := hcrc
        have hchecksum : (crcZero (crcFeedBytes st.crc16 st.draft.block.data.bytes)).checksum =
            checksumOf .crc16X25 all := by
          rw [checksumOf, crcFeedBytes_append]
          rfl
        have hwidth : ¬ (toBytes CrcVersion.crc16X25.width
            (checksumOf .crc16X25 all).toNat).length ≠ 2 := not_not.mpr hlength
        rw [if_pos htype, if_neg hwidth, hchecksum, crcVerify_field]
        exact ⟨_, _, rfl⟩
    | crc32 =>
        have htype : st.draft.block.crcType ≠ .crc16 := by
          rw [show st.draft.block.crcType = .crc32 from hcrc]
          decide
        have hchecksum : (crcZero (crcFeedBytes st.crc32 st.draft.block.data.bytes)).checksum =
            checksumOf .crc32 all := by
          rw [checksumOf, crcFeedBytes_append]
          rfl
        have hwidth : ¬ (toBytes CrcVersion.crc32.width
            (checksumOf .crc32 all).toNat).length ≠ 4 := not_not.mpr hlength
        rw [if_neg htype, if_neg hwidth, hchecksum, crcVerify_field]
        exact ⟨_, _, rfl⟩
  obtain ⟨c₁, c₂, hrun⟩ := hrun
  have hsize : (blockEnd { st with crcFeed := false, crc16 := c₁, crc32 := c₂ }).bundleSize =
      size := by
    unfold blockEnd
    split <;> rfl
  have hgood : st.status = .good := rfl
  have hread := reads_pass (n := 0) hgood rfl (starts_checksumField v all r)
    (checksumField_ne_nil v all) hrun (rest_stand 0 r) (next_stand 0 r) (hsize ▸ hquota)
  refine ⟨_, hread, hQ _ ?_⟩
  apply Parser.Between.account
  exact between_blockEnd rfl rfl rfl rfl rfl rfl

/-- **The end of a bundle** is its break, and the bundle is sent. -/
theorem readLoop_bundleEnd {payload : BlockBody} {log : List Event}
    (hst : st.Between .bundleEnd size draft log) (hpayload : draft.payload = some payload)
    (hquota : size + 1 ≤ quota) (fuel parsed : Nat) :
    ∃ st', readLoop reference quota (fuel + 1) st parsed [0xff] none = (st', parsed + 1) ∧
      st'.status = .done ∧ st'.crcInvalid = false ∧
      st'.log = log ++ [.sent (draft.bundle payload)] := by
  obtain ⟨hstatus, hcrc, hbulk, hparse, hsize, hdraft, hlog⟩ := hst
  let it : CborValue := ⟨[0xff], some .simple, true, some 1⟩
  let done : Parser :=
    { st with status := .done, log := st.log ++ [.sent (st.draft.bundle payload)] }
  have hinit : reference.parserInit [0xff] = (some .unexpectedBreak, it) := rfl
  have hpayload' : st.draft.payload = some payload := hdraft ▸ hpayload
  have hrun : runStage reference st.parse st it = (.ok { it with rest := [] }, done) := by
    rw [hparse]
    change bundleEnd st it = _
    rw [bundleEnd, if_neg (by simp [it])]
    dsimp only
    rw [hpayload']
    exact if_neg (by simp [hcrc])
  refine ⟨(accountFor { done with bundleSize := done.bundleSize + 1 } [0xff]).transition, ?_, rfl,
    hcrc, ?_⟩
  · have hbreak : readLoop reference quota (fuel + 1) st parsed [0xff] none =
        readLoop reference quota (fuel + 1) st parsed ([0xff] ++ []) (some it) := by
      unfold readLoop
      rw [hbulk, hinit]
      rfl
    have hroom : done.bundleSize + 1 ≤ quota := by
      change st.bundleSize + 1 ≤ quota
      omega
    rw [hbreak, readLoop_some hstatus hbulk (List.cons_ne_nil _ _) hrun rfl hroom]
    cases fuel <;> rfl
  · change st.log ++ [.sent (st.draft.bundle payload)] = _
    rw [hlog, hdraft]

end Bundle7
