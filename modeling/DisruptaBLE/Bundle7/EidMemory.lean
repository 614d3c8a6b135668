import DisruptaBLE.Bundle7.EidRoundTrip
import DisruptaBLE.Bundle7.Parser
import DisruptaBLE.Lib.Outcome
import Mathlib.Logic.Function.Basic

/-!
# The memory of the identifiers of a half-parsed bundle

The fields `destination`, `source` and `report_to` of the bundle under construction point to
strings.  `Strings` has these pointers and the strings that are allocated, and the stages of the
parser change it as `bundle7_eid_parse_cbor`, `parse_eid`, `bundle_end` and `bundle_reset` do.
The control flow is that of the parser: `visits` lists the stages that a call of
`bundle7_parser_read` runs.

An identifier whose string is stored before its parsing fails is released, and its field still
points to it.  Without such an identifier the fields are `Sound` whenever a call returns, and
with the first one they are not (`always_sound_iff`).
-/

namespace Bundle7

open BundleProcessor PtrHeap Outcome

/-- The fields of the bundle that hold identifiers. -/
inductive EidField where
  | destination
  | source
  | reportTo
  deriving DecidableEq, Repr

/-- The pointers in the fields, and the strings that are allocated. -/
structure Strings where
  heap : Heap CStr
  field : EidField → Ptr

namespace Strings

/-- The fields of `bundle_init`. -/
def init : Strings := ⟨Heap.empty, fun _ => none⟩

/-- `*eid = malloc(..)`, filled with a text. -/
def store (s : Strings) (f : EidField) (text : CStr) : Strings where
  heap := s.heap.set s.heap.bound text
  field := Function.update s.field f (some s.heap.bound)

/-- `free(*eid)`.  The field keeps the pointer. -/
def free (s : Strings) (f : EidField) : Except Fault Strings := do
  let heap ← s.heap.release (s.field f)
  pure { s with heap }

/-- `*eid = strdup(*eid)`, and the first string is released. -/
def duplicate (s : Strings) (f : EidField) : Except Fault Strings := do
  let text ← s.heap.load (s.field f)
  let copy := s.heap.bound
  let s ← Strings.free { s with heap := s.heap.set copy text } f
  pure { s with field := Function.update s.field f (some copy) }

/-- The identifiers of `bundle_free_dynamic_parts`. -/
def bundleFreeDynamicParts (s : Strings) : Except Fault Strings := do
  let s ← s.free .destination
  let s ← s.free .source
  s.free .reportTo

/-- `bundle_reset`, and also `bundle_free` when the bundle is forgotten. -/
def bundleReset (s : Strings) : Except Fault Strings := do
  let s ← s.bundleFreeDynamicParts
  pure { s with field := fun _ => none }

/-- The bundle and its strings belong to `send_callback` now. -/
def handOver (s : Strings) : Strings where
  heap := ((s.field .destination).toList ++ (s.field .source).toList ++
    (s.field .reportTo).toList).foldl Heap.erase s.heap
  field := fun _ => none

end Strings

section

variable (T : TinyCbor)

/-! ## The parser of identifiers -/

/-- `eid_parse_dtn`, with the field that it stores into. -/
def eidParseDtnInto (f : EidField) (it : CborValue) (s : Strings) :
    Except Fault (Except CborError CborValue × Strings) :=
  if it.isUnsignedInteger then
    if T.getUint64 it ≠ 0 then pure (.error .illegalType, s)
    else pure (.ok (T.advanceFixed it).2, s.store f "dtn:none".toList)
  else if it.isTextString then
    match T.getStringLength it with
    | .error e => pure (.error e, s)
    | .ok length =>
        if it.rest.length < length then pure (.error .unexpectedEof, s)
        else
          match T.copyString it (length + 1) with
          | .error e => do
              let s ← (s.store f "dtn:".toList).free f
              pure (.error e, s)
          | .ok (ssp, it) => pure (.ok it, s.store f ("dtn:".toList ++ cString ssp))
  else pure (.error .illegalType, s)

/-- `eid_parse_ipn`, which stores last. -/
def eidParseIpnInto (f : EidField) (it : CborValue) (s : Strings) :
    Except CborError CborValue × Strings :=
  match eidParseIpn T it with
  | .error e => (.error e, s)
  | .ok (eid, it) => (.ok it, s.store f eid)

/-- What `bundle7_eid_parse_cbor` does within the array of an EID. -/
def eidParseSchemeInto (f : EidField) (it : CborValue) (s : Strings) :
    Except Fault (Except CborError CborValue × Strings) :=
  if it.isUnsignedInteger then
    let schema := T.getUint64 it
    match checked (T.advanceFixed it) with
    | .error e => pure (.error e, s)
    | .ok it =>
        if schema = 1 then eidParseDtnInto T f it s
        else if schema = 2 then pure (eidParseIpnInto T f it s)
        else pure (.error .illegalType, s)
  else pure (.error .illegalType, s)

/-- `bundle7_eid_parse_cbor`. -/
def bundle7EidParseCborInto (f : EidField) (it : CborValue) (s : Strings) :
    Except Fault (Except CborError CborValue × Strings) :=
  if it.isArray && it.lengthKnown then
    match T.getArrayLength it with
    | .error _ => pure (.error .illegalType, s)
    | .ok length =>
        if length ≠ 2 then pure (.error .illegalType, s)
        else
          match T.enterContainer it with
          | .error e => pure (.error e, s)
          | .ok recursed => do
              let (r, s) ← eidParseSchemeInto T f recursed s
              match r with
              | .error e => pure (.error e, s)
              | .ok recursed =>
                  match T.leaveContainer it recursed with
                  | .error e => do
                      let s ← s.free f
                      pure (.error e, s)
                  | .ok it => pure (.ok it, s)
  else pure (.error .illegalType, s)

/-- `parse_eid`. -/
def parseEidInto (f : EidField) (it : CborValue) (s : Strings) : Except Fault Strings := do
  let (r, s) ← bundle7EidParseCborInto T f it s
  match r with
  | .error _ => pure s
  | .ok _ => s.duplicate f

/-! ## What is lost -/

/-- The text of a `dtn` EID is stored, since the check of its length counts its head as well, and
then cannot be copied. -/
def textCutOff (it : CborValue) : Bool :=
  !it.isUnsignedInteger && it.isTextString &&
    match T.getStringLength it with
    | .error _ => false
    | .ok length => decide (length ≤ it.rest.length) && !(T.copyString it (length + 1)).isOk

/-- The same within the array of an EID. -/
def schemeCutOff (it : CborValue) : Bool :=
  it.isUnsignedInteger &&
    match checked (T.advanceFixed it) with
    | .error _ => false
    | .ok next => decide (T.getUint64 it = 1) && textCutOff T next

/-- The EID at the iterator is stored before its parsing fails: its text cannot be copied, or the
iterator cannot be moved behind it. -/
def losesText (it : CborValue) : Bool :=
  it.isArray && it.lengthKnown &&
    match T.getArrayLength it with
    | .error _ => false
    | .ok length =>
        decide (length = 2) &&
          match T.enterContainer it with
          | .error _ => false
          | .ok recursed =>
              schemeCutOff T recursed ||
                match eidParseScheme T recursed with
                | .error _ => false
                | .ok (_, recursed) => !(T.leaveContainer it recursed).isOk

/-! ## Calls of the parser -/

/-- The field that a stage reads. -/
def Stage.eidField : Stage → Option EidField
  | .destinationEid => some .destination
  | .sourceEid => some .source
  | .reportToEid => some .reportTo
  | _ => none

/-- What a stage does to the strings. -/
def stageStrings (s : Strings) (visit : Parser × CborValue) : Except Fault Strings :=
  match visit.1.parse.eidField with
  | some f => parseEidInto T f visit.2 s
  | none =>
      if visit.1.parse = .bundleEnd ∧ visit.2.rest.head? = some 0xff then
        if visit.1.crcInvalid then s.bundleReset else pure s.handOver
      else pure s

/-- The iterator of a pass of the loop, which may have to be initialized. -/
def passIterator (rest : List UInt8) : Option CborValue → Option CborError × CborValue
  | some it => (none, it)
  | none => T.parserInit rest

/-- The stages that the loop of `bundle7_parser_read` runs, each with the parser in front of it and
its iterator. -/
def visits (quota : Nat) :
    Nat → Parser → List UInt8 → Option CborValue → List (Parser × CborValue)
  | 0, _, _, _ => []
  | fuel + 1, st, rest, iterator =>
      if rest = [] ∨ st.status ≠ .good then []
      else if st.bulkRead then
        if rest.length < st.nextBytes then []
        else
          visits quota fuel (readNull (fillBulk st (rest.take st.nextBytes)))
            (rest.drop st.nextBytes) none
      else
        let (err, it) := passIterator T rest iterator
        if err = some .unexpectedEof then []
        else if err ≠ none ∧ err ≠ some .unexpectedBreak then []
        else
          (st, it) ::
            match runStage T st.parse st it with
            | (.error _, _) => []
            | (.ok it, st) =>
                let consumed := rest.length - it.rest.length
                let st := { st with bundleSize := st.bundleSize + consumed }
                if quota < st.bundleSize then []
                else
                  visits quota fuel (accountFor st (rest.take consumed)).transition
                    (rest.drop consumed) (if it.atEnd then none else some it)

/-- What the receive task does with the parser. -/
inductive ParserCall where
  /-- `bundle7_parser_read` -/
  | read (buffer : List UInt8)
  /-- a bulk read is done, and `bundle7_parser_read` is called with `NULL` -/
  | bulkDone (bytes : List UInt8)
  /-- `bundle7_parser_reset` -/
  | reset
  deriving DecidableEq, Repr

/-- The parser and the strings of its bundle. -/
structure Reader where
  parser : Parser
  strings : Strings

/-- The stages that a call runs. -/
def callVisits (quota : Nat) (st : Parser) : ParserCall → List (Parser × CborValue)
  | .read buffer => visits T quota (2 * buffer.length + 2) st buffer none
  | _ => []

/-- The parser behind a call. -/
def callParser (quota : Nat) (st : Parser) : ParserCall → Parser
  | .read buffer => (bundle7ParserRead T quota st buffer).1
  | .bulkDone bytes => if st.bulkRead then readNull (fillBulk st bytes) else st
  | .reset => bundle7ParserReset st

/-- The strings behind a call. -/
def callStrings (quota : Nat) (x : Reader) (c : ParserCall) : Except Fault Strings :=
  if c = .reset then
    if x.parser.status = .good ∧ x.parser.next = some .bundleStart then pure x.strings
    else x.strings.bundleReset
  else (callVisits T quota x.parser c).foldlM (stageStrings T) x.strings

/-- A call of the parser. -/
def Reader.call (quota : Nat) (x : Reader) (c : ParserCall) : Except Fault Reader := do
  let strings ← callStrings T quota x c
  pure ⟨callParser T quota x.parser c, strings⟩

/-- The parser behind `bundle7_parser_init`. -/
def Reader.init : Reader := ⟨bundle7ParserInit, Strings.init⟩

/-! ## One identifier -/

variable {T} {s s' : Strings} {f g : EidField} {it : CborValue}

/-- A string was stored and released, and the field still points to it. -/
def Strings.stale (s : Strings) (f : EidField) (text : CStr) : Strings :=
  { s.store f text with heap := (s.store f text).heap.erase s.heap.bound }

theorem free_store (s : Strings) (f : EidField) (text : CStr) :
    (s.store f text).free f = .ok (s.stale f text) := by
  have hfield : (s.store f text).field f = some s.heap.bound := Function.update_self f _ s.field
  have hcell : (s.store f text).heap.cells s.heap.bound = some text := Heap.cells_set_self _ _ _
  rw [Strings.free, hfield, Heap.release_cell hcell]
  rfl

/-- How a parser ends that stores what `base` reads: with the string, with nothing, or with the
string released. -/
def EndsAs (base : Except CborError (CStr × CborValue)) (lost : Bool) (f : EidField) (s : Strings)
    (r : Except Fault (Except CborError CborValue × Strings)) : Prop :=
  match base with
  | .ok (eid, it) => lost = false ∧ r = .ok (.ok it, s.store f eid)
  | .error e =>
      if lost then ∃ text, r = .ok (.error e, s.stale f text) else r = .ok (.error e, s)

theorem eidParseDtnInto_ends (T : TinyCbor) (f : EidField) (it : CborValue) (s : Strings) :
    EndsAs (eidParseDtn T it) (textCutOff T it) f s (eidParseDtnInto T f it s) := by
  unfold eidParseDtn textCutOff eidParseDtnInto
  by_cases huint : it.isUnsignedInteger = true
  · simp only [huint, if_true]
    by_cases hzero : T.getUint64 it = 0
    · simp [hzero, EndsAs, pure, Except.pure]
    · simp [hzero, EndsAs, pure, Except.pure]
  · by_cases htext : it.isTextString = true
    · simp only [huint, htext, if_true]
      cases hlength : T.getStringLength it with
      | error e => simp [EndsAs, pure, Except.pure, bind, Except.bind]
      | ok length =>
          by_cases hshort : it.rest.length < length
          · simp [EndsAs, hshort, pure, Except.pure, bind, Except.bind, Nat.not_le.mpr hshort]
          · cases hcopy : T.copyString it (length + 1) with
            | error e =>
                simp [EndsAs, hshort, hcopy, free_store, pure, Except.pure, bind, Except.bind,
                  Nat.not_lt.mp hshort, Except.isOk, Except.toBool]
            | ok r =>
                simp [EndsAs, hshort, hcopy, pure, Except.pure, bind, Except.bind, Except.isOk,
                  Except.toBool]
    · simp [EndsAs, huint, htext, pure, Except.pure]

theorem eidParseSchemeInto_ends (T : TinyCbor) (f : EidField) (it : CborValue) (s : Strings) :
    EndsAs (eidParseScheme T it) (schemeCutOff T it) f s (eidParseSchemeInto T f it s) := by
  unfold eidParseScheme schemeCutOff eidParseSchemeInto
  by_cases huint : it.isUnsignedInteger = true
  · simp only [huint, if_true, Bool.true_and]
    cases hnext : checked (T.advanceFixed it) with
    | error e => simp [EndsAs, pure, Except.pure, bind, Except.bind]
    | ok next =>
        simp only [ok_bind]
        by_cases hdtn : T.getUint64 it = 1
        · simp only [hdtn, if_true, decide_true, Bool.true_and]
          exact eidParseDtnInto_ends T f next s
        · simp only [hdtn, if_false, decide_false, Bool.false_and]
          by_cases hipn : T.getUint64 it = 2
          · simp only [hipn, if_true, eidParseIpnInto]
            cases eidParseIpn T next with
            | error e => simp [EndsAs, pure, Except.pure]
            | ok r => simp [EndsAs, pure, Except.pure]
          · simp [EndsAs, hipn, pure, Except.pure]
  · simp [EndsAs, huint, pure, Except.pure]

/-- **The parser of identifiers** ends with the string stored, or it fails: with the string
released exactly if it loses the text, and otherwise with nothing stored. -/
theorem bundle7EidParseCborInto_ends (T : TinyCbor) (f : EidField) (it : CborValue) (s : Strings) :
    EndsAs (bundle7EidParseCbor T it) (losesText T it) f s (bundle7EidParseCborInto T f it s) := by
  unfold bundle7EidParseCbor losesText bundle7EidParseCborInto
  by_cases harray : (it.isArray && it.lengthKnown) = true
  · simp only [harray, if_true, Bool.true_and]
    cases hlength : T.getArrayLength it with
    | error e => simp [EndsAs, pure, Except.pure]
    | ok length =>
        by_cases htwo : length = 2
        · simp only [htwo, ne_eq, not_true_eq_false, if_false, decide_true, Bool.true_and]
          cases henter : T.enterContainer it with
          | error e => simp [EndsAs, pure, Except.pure, bind, Except.bind]
          | ok recursed =>
              have hscheme := eidParseSchemeInto_ends T f recursed s
              simp only [ok_bind]
              cases hread : eidParseScheme T recursed with
              | error e =>
                  rw [hread] at hscheme
                  cases hcut : schemeCutOff T recursed with
                  | true =>
                      obtain ⟨text, hinto⟩ : ∃ text, eidParseSchemeInto T f recursed s =
                          .ok (.error e, s.stale f text) := by simpa [EndsAs, hcut] using hscheme
                      exact ⟨text, by rw [hinto]; rfl⟩
                  | false =>
                      have hinto : eidParseSchemeInto T f recursed s = .ok (.error e, s) := by
                        simpa [EndsAs, hcut] using hscheme
                      rw [hinto]
                      rfl
              | ok r =>
                  rw [hread] at hscheme
                  obtain ⟨hcut, hinto⟩ := hscheme
                  simp only [hinto, ok_bind, hcut, Bool.false_or]
                  cases hleave : T.leaveContainer it r.2 with
                  | error e =>
                      exact ⟨r.1, by simp only [free_store, ok_bind]; rfl⟩
                  | ok next => exact ⟨rfl, rfl⟩
        · simp [EndsAs, htwo, pure, Except.pure]
  · simp [EndsAs, harray, pure, Except.pure]

/-- A string was allocated, and the field points to it. -/
def Stored (s : Strings) (f : EidField) (text : CStr) (s' : Strings) : Prop :=
  ∃ a, s.heap.cells a = none ∧ s'.heap.cells a = some text ∧
    (∀ x, x ≠ a → s'.heap.cells x = s.heap.cells x) ∧
    s'.field = Function.update s.field f (some a)

/-- The copy of a string that was just stored. -/
theorem duplicate_store (s : Strings) (f : EidField) (text : CStr) :
    ∃ s', (s.store f text).duplicate f = .ok s' ∧ Stored s f text s' := by
  let old := s.heap.bound
  let heap := s.heap.set old text
  have hfield : (s.store f text).field f = some old := Function.update_self f _ s.field
  have hload : (s.store f text).heap.load (some old) = .ok text :=
    Heap.load_cell (Heap.cells_set_self _ _ _)
  have hbound : old < heap.bound := by
    have hle : s.heap.bound + 1 ≤ heap.bound := Nat.le_max_right _ _
    exact hle
  have hcell : (heap.set heap.bound text).cells old = some text := by
    rw [Heap.cells_set_ne _ hbound.ne]
    exact Heap.cells_set_self _ _ _
  have hnew : s.heap.cells heap.bound = none := s.heap.free_above _ hbound.le
  refine ⟨⟨(heap.set heap.bound text).erase old, Function.update s.field f (some heap.bound)⟩,
    ?_, heap.bound, hnew, ?_, fun x hx => ?_, rfl⟩
  · have hfree : Strings.free { s.store f text with heap := heap.set heap.bound text } f =
        .ok ⟨(heap.set heap.bound text).erase old, (s.store f text).field⟩ := by
      rw [Strings.free, hfield, Heap.release_cell hcell]
      rfl
    have hupdate : Function.update (s.store f text).field f (some heap.bound) =
        Function.update s.field f (some heap.bound) := Function.update_idem _ _ _
    rw [Strings.duplicate, hfield, hload, ok_bind, ← hupdate]
    exact bind_eq_ok.2 ⟨_, hfree, rfl⟩
  · rw [Heap.cells_erase_ne _ hbound.ne']
    exact Heap.cells_set_self _ _ _
  · by_cases hold : x = old
    · rw [hold, Heap.cells_erase_self]
      exact (s.heap.free_above _ le_rfl).symm
    · rw [Heap.cells_erase_ne _ hold, Heap.cells_set_ne _ hx, Heap.cells_set_ne _ hold]

/-- **A stage of an identifier** stores its string, or stores nothing, or loses its text. -/
theorem parseEidInto_cases (T : TinyCbor) (f : EidField) (it : CborValue) (s : Strings) :
    (∃ eid it' s', bundle7EidParseCbor T it = .ok (eid, it') ∧ losesText T it = false ∧
      parseEidInto T f it s = .ok s' ∧ Stored s f eid s') ∨
    (∃ e, bundle7EidParseCbor T it = .error e) ∧
      (losesText T it = false ∧ parseEidInto T f it s = .ok s ∨
        losesText T it = true ∧ ∃ text, parseEidInto T f it s = .ok (s.stale f text)) := by
  have hends := bundle7EidParseCborInto_ends T f it s
  unfold parseEidInto
  cases hbase : bundle7EidParseCbor T it with
  | error e =>
      rw [hbase] at hends
      refine .inr ⟨⟨e, rfl⟩, ?_⟩
      cases hlost : losesText T it with
      | true =>
          obtain ⟨text, hinto⟩ : ∃ text, bundle7EidParseCborInto T f it s =
              .ok (.error e, s.stale f text) := by simpa [EndsAs, hlost] using hends
          exact .inr ⟨rfl, text, by rw [hinto]; rfl⟩
      | false =>
          have hinto : bundle7EidParseCborInto T f it s = .ok (.error e, s) := by
            simpa [EndsAs, hlost] using hends
          exact .inl ⟨rfl, by rw [hinto]; rfl⟩
  | ok r =>
      rw [hbase] at hends
      obtain ⟨hlost, hinto⟩ := hends
      obtain ⟨s', hcopy, hstored⟩ := duplicate_store s f r.1
      exact .inl ⟨r.1, r.2, s', rfl, hlost, by rw [hinto]; exact hcopy, hstored⟩

/-! ## Strings that are owned -/

/-- Each field is `NULL` or points to a string that is allocated, and a reset releases every string
once: no release goes wrong, and no string is left. -/
structure Strings.Sound (s : Strings) : Prop where
  live : ∀ f a, s.field f = some a → ∃ text, s.heap.cells a = some text
  releases : ∃ s', s.bundleFreeDynamicParts = .ok s' ∧ ∀ a, s'.heap.cells a = none

/-- Each string belongs to one field. -/
structure Strings.Owned (s : Strings) : Prop where
  live : ∀ f a, s.field f = some a → ∃ text, s.heap.cells a = some text
  distinct : ∀ f g a, s.field f = some a → s.field g = some a → f = g
  only : ∀ a text, s.heap.cells a = some text → ∃ f, s.field f = some a

theorem owned_empty (hfield : ∀ f, s.field f = none) (hcells : ∀ a, s.heap.cells a = none) :
    s.Owned where
  live f a h := by rw [hfield f] at h; cases h
  distinct f g a h := by rw [hfield f] at h; cases h
  only a text h := by rw [hcells a] at h; cases h

theorem Stored.owned {text : CStr} (h : Stored s f text s') (hs : s.Owned)
    (hfree : s.field f = none) : s'.Owned := by
  obtain ⟨a, hnew, hself, hother, hfield⟩ := h
  have hat : s'.field f = some a := by rw [hfield, Function.update_self]
  have hne : ∀ g, g ≠ f → s'.field g = s.field g := fun g hg => by
    rw [hfield, Function.update_of_ne hg]
  -- the other fields do not point to the new string
  have hold : ∀ g x, g ≠ f → s'.field g = some x → x ≠ a := by
    rintro g x hg hx rfl
    obtain ⟨text', hlive⟩ := hs.live g x ((hne g hg).symm.trans hx)
    rw [hnew] at hlive
    cases hlive
  constructor
  · intro g x hx
    by_cases hg : g = f
    · subst hg
      obtain rfl := Option.some.inj (hat.symm.trans hx)
      exact ⟨text, hself⟩
    · rw [hother x (hold g x hg hx)]
      exact hs.live g x ((hne g hg).symm.trans hx)
  · intro g k x hgx hkx
    by_cases hg : g = f
    · by_cases hk : k = f
      · rw [hg, hk]
      · subst hg
        exact absurd (Option.some.inj (hgx.symm.trans hat)) (hold k x hk hkx)
    · by_cases hk : k = f
      · subst hk
        exact absurd (Option.some.inj (hkx.symm.trans hat)) (hold g x hg hgx)
      · exact hs.distinct g k x ((hne g hg).symm.trans hgx) ((hne k hk).symm.trans hkx)
  · intro x text' hx
    by_cases hxa : x = a
    · exact ⟨f, hxa ▸ hat⟩
    · rw [hother x hxa] at hx
      obtain ⟨g, hg⟩ := hs.only x text' hx
      have hgf : g ≠ f := by
        rintro rfl
        rw [hfree] at hg
        cases hg
      exact ⟨g, (hne g hgf).trans hg⟩

/-- The strings of some fields are released. -/
structure Freed (s : Strings) (fs : List EidField) (s' : Strings) : Prop where
  field : s'.field = s.field
  gone : ∀ f ∈ fs, ∀ a, s.field f = some a → s'.heap.cells a = none
  kept : ∀ a, (∀ f ∈ fs, s.field f ≠ some a) → s'.heap.cells a = s.heap.cells a

theorem Freed.free {fs : List EidField} (hs : s.Owned) (h : Freed s fs s') (hf : f ∉ fs) :
    ∃ s'', s'.free f = .ok s'' ∧ Freed s (f :: fs) s'' := by
  cases hfield : s.field f with
  | none =>
      have hnull : s'.field f = none := by rw [h.field, hfield]
      refine ⟨s', by rw [Strings.free, hnull]; rfl, h.field, fun g hg a ha => ?_, fun a ha => ?_⟩
      · rcases List.mem_cons.mp hg with rfl | hg
        · rw [hfield] at ha
          cases ha
        · exact h.gone g hg a ha
      · exact h.kept a fun g hg => ha g (List.mem_cons_of_mem f hg)
  | some a =>
      have hother : ∀ g ∈ fs, s.field g ≠ some a := fun g hg hga =>
        hf (hs.distinct g f a hga hfield ▸ hg)
      obtain ⟨text, hlive⟩ := hs.live f a hfield
      have hcell : s'.heap.cells a = some text := (h.kept a hother).trans hlive
      refine ⟨⟨s'.heap.erase a, s'.field⟩, ?_, h.field, fun g hg x hx => ?_, fun x hx => ?_⟩
      · rw [Strings.free, h.field, hfield, Heap.release_cell hcell]
        rfl
      · by_cases hxa : x = a
        · rw [hxa, Heap.cells_erase_self]
        · rw [Heap.cells_erase_ne _ hxa]
          rcases List.mem_cons.mp hg with rfl | hg
          · exact absurd (Option.some.inj (hx.symm.trans hfield)) hxa
          · exact h.gone g hg x hx
      · have hxa : x ≠ a := fun hxa => hx f List.mem_cons_self (hxa ▸ hfield)
        rw [Heap.cells_erase_ne _ hxa]
        exact h.kept x fun g hg => hx g (List.mem_cons_of_mem f hg)

/-- All strings are released once. -/
theorem Strings.Owned.bundleFreeDynamicParts (hs : s.Owned) :
    ∃ s', s.bundleFreeDynamicParts = .ok s' ∧ ∀ a, s'.heap.cells a = none := by
  have h₀ : Freed s [] s := ⟨rfl, by simp, fun _ _ => rfl⟩
  obtain ⟨s₁, hrun₁, h₁⟩ := h₀.free hs (f := .destination) (by simp)
  obtain ⟨s₂, hrun₂, h₂⟩ := h₁.free hs (f := .source) (by simp)
  obtain ⟨s₃, hrun₃, h₃⟩ := h₂.free hs (f := .reportTo) (by simp)
  refine ⟨s₃, ?_, fun a => ?_⟩
  · rw [Strings.bundleFreeDynamicParts, hrun₁, ok_bind, hrun₂, ok_bind, hrun₃]
  · cases hcell : s.heap.cells a with
    | none =>
        have hnot : ∀ f, s.field f ≠ some a := by
          intro f hf
          obtain ⟨text, hlive⟩ := hs.live f a hf
          rw [hcell] at hlive
          cases hlive
        rw [h₃.kept a fun f _ => hnot f, hcell]
    | some text =>
        obtain ⟨f, hf⟩ := hs.only a text hcell
        exact h₃.gone f (by cases f <;> simp) a hf

theorem Strings.Owned.sound (hs : s.Owned) : s.Sound := ⟨hs.live, hs.bundleFreeDynamicParts⟩

theorem Strings.Owned.bundleReset (hs : s.Owned) :
    ∃ s', s.bundleReset = .ok s' ∧ s'.Owned ∧ ∀ f, s'.field f = none := by
  obtain ⟨s', hrun, hcells⟩ := hs.bundleFreeDynamicParts
  exact ⟨_, bind_eq_ok.2 ⟨s', hrun, rfl⟩, owned_empty (fun _ => rfl) hcells, fun _ => rfl⟩

theorem cells_foldl_erase {α : Type} (as : List Addr) (h : Heap α) (a : Addr) :
    (as.foldl Heap.erase h).cells a = if a ∈ as then none else h.cells a := by
  induction as generalizing h with
  | nil => rfl
  | cons b as ih =>
      rw [List.foldl_cons, ih, Heap.cells_erase]
      by_cases hb : a = b <;> by_cases has : a ∈ as <;> simp [hb, has]

theorem Strings.Owned.handOver (hs : s.Owned) : s.handOver.Owned := by
  refine owned_empty (fun _ => rfl) fun a => ?_
  rw [Strings.handOver, cells_foldl_erase]
  split
  · rfl
  · next hnot =>
    cases hcell : s.heap.cells a with
    | none => rfl
    | some text =>
        obtain ⟨f, hf⟩ := hs.only a text hcell
        exact absurd (by cases f <;> simp [hf]) hnot

/-- After a text was lost, its field points to a string that is released. -/
theorem Strings.not_sound_stale (s : Strings) (f : EidField) (text : CStr) :
    ¬ (s.stale f text).Sound := by
  intro h
  have hfield : (s.stale f text).field f = some s.heap.bound := Function.update_self f _ s.field
  obtain ⟨text', hlive⟩ := h.live f s.heap.bound hfield
  have hgone : (s.stale f text).heap.cells s.heap.bound = none := Heap.cells_erase_self _ _
  rw [hgone] at hlive
  cases hlive

/-! ## The order of the stages -/

/-- In front of a stage, a field has not been read yet. -/
def Stage.unread : Stage → EidField → Bool
  | .bundleStart, _ => true
  | .primaryBlockStart, _ => true
  | .protocolVersion, _ => true
  | .primaryProcFlags, _ => true
  | .crcType, _ => true
  | .destinationEid, _ => true
  | .sourceEid, f => f ≠ .destination
  | .reportToEid, f => f = .reportTo
  | _, _ => false

theorem Stage.unread_eidField {stage : Stage} (h : stage.eidField = some f) :
    stage.unread f = true := by
  cases stage <;> simp [Stage.eidField] at h <;> subst h <;> rfl

theorem readUint_next {next : Stage} {store : Draft → UInt64 → Draft} {st st' : Parser}
    {it' : CborValue} (h : readUint T next store st it = (.ok it', st')) :
    st'.next = some next := by
  unfold readUint at h
  split at h
  · rw [← (Prod.mk.inj h).2]
  · cases (Prod.mk.inj h).1

theorem parseEid_next {next : Stage} {store : Draft → CStr → Draft} {st st' : Parser}
    {it' : CborValue} (h : parseEid T next store st it = (.ok it', st')) :
    st'.next = some next := by
  unfold parseEid at h
  split at h
  · cases (Prod.mk.inj h).1
  · rw [← (Prod.mk.inj h).2]

theorem primaryFieldsEnd_next (st : Parser) (consumed : Nat) :
    (primaryFieldsEnd st consumed).next = some .primaryBlockCrc ∨
      (primaryFieldsEnd st consumed).next = some .blockStart := by
  unfold primaryFieldsEnd
  split
  · exact .inl rfl
  · exact .inr rfl

theorem blockEnd_next (st : Parser) :
    (blockEnd st).next = some .bundleEnd ∨ (blockEnd st).next = some .blockStart := by
  unfold blockEnd
  split
  · exact .inl rfl
  · exact .inr rfl

/-- The stages behind the identifiers go on to such stages. -/
theorem late_next {stage : Stage} {st st' : Parser} {it' : CborValue}
    (hlate : ∀ f, stage.unread f = false)
    (h : runStage T stage st it = (.ok it', st')) (hgood : st'.status = .good) (f : EidField) :
    (st'.next.getD st'.parse).unread f = false := by
  have hearly : ∀ {b : Bool}, b = true → (∀ f : EidField, b = false) → False := by
    intro b htrue hfalse
    exact absurd (htrue.symm.trans (hfalse f)) (by decide)
  cases stage with
  | bundleStart => exact (hearly rfl hlate).elim
  | primaryBlockStart => exact (hearly rfl hlate).elim
  | protocolVersion => exact (hearly rfl hlate).elim
  | primaryProcFlags => exact (hearly rfl hlate).elim
  | crcType => exact (hearly rfl hlate).elim
  | destinationEid => exact (hearly rfl hlate).elim
  | sourceEid => exact absurd (hlate .source) (by decide)
  | reportToEid => exact absurd (hlate .reportTo) (by decide)
  | creationTimestamp =>
      simp only [runStage, creationTimestamp] at h
      split at h
      · cases (Prod.mk.inj h).1
      · rw [← (Prod.mk.inj h).2]
        rfl
  | lifetime =>
      simp only [runStage, lifetime] at h
      split at h
      · rw [← (Prod.mk.inj h).2]
        split
        · rfl
        · rcases primaryFieldsEnd_next _ _ with hnext | hnext <;> rw [hnext] <;> rfl
      · cases (Prod.mk.inj h).1
  | fragmentOffset =>
      rw [runStage, fragmentOffset] at h
      rw [readUint_next h]
      rfl
  | totalAduLength =>
      simp only [runStage, totalAduLength] at h
      split at h
      · rw [← (Prod.mk.inj h).2]
        rcases primaryFieldsEnd_next _ _ with hnext | hnext <;> rw [hnext] <;> rfl
      · cases (Prod.mk.inj h).1
  | primaryBlockCrc =>
      simp only [runStage, primaryBlockCrc] at h
      split at h
      · split at h
        · cases (Prod.mk.inj h).1
        · split at h
          · split at h
            · cases (Prod.mk.inj h).1
            · rw [← (Prod.mk.inj h).2]
              rfl
          · split at h
            · cases (Prod.mk.inj h).1
            · rw [← (Prod.mk.inj h).2]
              rfl
      · cases (Prod.mk.inj h).1
  | blockStart =>
      simp only [runStage, blockStart] at h
      split at h
      · rw [← (Prod.mk.inj h).2]
        rfl
      · cases (Prod.mk.inj h).1
  | blockType =>
      rw [runStage, blockType] at h
      rw [readUint_next h]
      rfl
  | blockNumber =>
      rw [runStage, blockNumber] at h
      rw [readUint_next h]
      rfl
  | blockProcFlags =>
      rw [runStage, blockProcFlags] at h
      rw [readUint_next h]
      rfl
  | blockCrcType =>
      simp only [runStage, blockCrcType] at h
      split at h
      · rw [← (Prod.mk.inj h).2]
        rfl
      · cases (Prod.mk.inj h).1
  | blockCrc =>
      simp only [runStage, blockCrc] at h
      split at h
      · split at h
        · cases (Prod.mk.inj h).1
        · split at h
          · split at h
            · cases (Prod.mk.inj h).1
            · rw [← (Prod.mk.inj h).2]
              rcases blockEnd_next _ with hnext | hnext <;> rw [hnext] <;> rfl
          · split at h
            · cases (Prod.mk.inj h).1
            · rw [← (Prod.mk.inj h).2]
              rcases blockEnd_next _ with hnext | hnext <;> rw [hnext] <;> rfl
      · cases (Prod.mk.inj h).1
  | blockData =>
      simp only [runStage, blockData] at h
      split at h
      · split at h
        · cases (Prod.mk.inj h).1
        · rw [← (Prod.mk.inj h).2]
          dsimp only [Option.getD_some]
          split <;> rfl
      · cases (Prod.mk.inj h).1
  | blockEnd =>
      simp only [runStage] at h
      rw [← (Prod.mk.inj h).2]
      rcases blockEnd_next st with hnext | hnext <;> rw [hnext] <;> rfl
  | bundleEnd =>
      simp only [runStage, bundleEnd] at h
      split at h
      · cases (Prod.mk.inj h).1
      · split at h
        · rw [← (Prod.mk.inj h).2] at hgood
          cases hgood
        · split at h
          · rw [← (Prod.mk.inj h).2] at hgood
            cases hgood
          · rw [← (Prod.mk.inj h).2] at hgood
            cases hgood

/-- Behind a stage, no other fields are unread than in front of it, and its own field is not. -/
theorem unread_next {stage : Stage} {st st' : Parser} {it' : CborValue}
    (h : runStage T stage st it = (.ok it', st')) (hgood : st'.status = .good)
    (hf : (st'.next.getD st'.parse).unread f = true) :
    stage.unread f = true ∧ stage.eidField ≠ some f := by
  by_cases hlate : ∀ f, stage.unread f = false
  · rw [late_next hlate h hgood f] at hf
    cases hf
  cases stage with
  | bundleStart => exact ⟨rfl, by simp [Stage.eidField]⟩
  | primaryBlockStart => exact ⟨rfl, by simp [Stage.eidField]⟩
  | protocolVersion => exact ⟨rfl, by simp [Stage.eidField]⟩
  | primaryProcFlags => exact ⟨rfl, by simp [Stage.eidField]⟩
  | crcType => exact ⟨rfl, by simp [Stage.eidField]⟩
  | destinationEid =>
      rw [runStage, destinationEid] at h
      rw [parseEid_next h] at hf
      cases f <;> simp [Stage.unread, Stage.eidField] at hf ⊢
  | sourceEid =>
      rw [runStage, sourceEid] at h
      rw [parseEid_next h] at hf
      cases f <;> simp [Stage.unread, Stage.eidField] at hf ⊢
  | reportToEid =>
      rw [runStage, reportToEid] at h
      rw [parseEid_next h] at hf
      cases f <;> simp [Stage.unread] at hf
  | _ => exact absurd (fun _ => rfl) hlate

theorem readUint_parse (next : Stage) (store : Draft → UInt64 → Draft) (st : Parser)
    (it : CborValue) : (readUint T next store st it).2.parse = st.parse := by
  unfold readUint
  split <;> rfl

theorem parseEid_parse (next : Stage) (store : Draft → CStr → Draft) (st : Parser)
    (it : CborValue) : (parseEid T next store st it).2.parse = st.parse := by
  unfold parseEid
  split <;> rfl

theorem primaryFieldsEnd_parse (st : Parser) (consumed : Nat) :
    (primaryFieldsEnd st consumed).parse = st.parse := by
  unfold primaryFieldsEnd
  split <;> rfl

/-- A stage that fails is run again. -/
theorem parse_of_error {stage : Stage} {st st' : Parser} {e : CborError}
    (h : runStage T stage st it = (.error e, st')) : st'.parse = st.parse := by
  have hst : st' = (runStage T stage st it).2 := by rw [h]
  rw [hst]
  cases stage with
  | bundleStart => simp only [runStage, bundleStart]; split <;> rfl
  | primaryBlockStart => simp only [runStage, primaryBlockStart]; split <;> rfl
  | protocolVersion => exact readUint_parse _ _ st it
  | primaryProcFlags => exact readUint_parse _ _ st it
  | crcType => simp only [runStage, crcType]; split <;> [split <;> rfl; rfl]
  | destinationEid => exact parseEid_parse _ _ st it
  | sourceEid => exact parseEid_parse _ _ st it
  | reportToEid => exact parseEid_parse _ _ st it
  | creationTimestamp => simp only [runStage, creationTimestamp]; split <;> rfl
  | lifetime =>
      simp only [runStage, lifetime]
      split
      · dsimp only
        split
        · rfl
        · exact primaryFieldsEnd_parse _ _
      · rfl
  | fragmentOffset => exact readUint_parse _ _ st it
  | totalAduLength =>
      simp only [runStage, totalAduLength]
      split
      · exact primaryFieldsEnd_parse _ _
      · rfl
  | primaryBlockCrc =>
      rw [← hst]
      simp only [runStage, primaryBlockCrc] at h
      split at h
      · split at h
        · rw [← (Prod.mk.inj h).2]
        · split at h
          · split at h
            · rw [← (Prod.mk.inj h).2]
            · cases (Prod.mk.inj h).1
          · split at h
            · rw [← (Prod.mk.inj h).2]
            · cases (Prod.mk.inj h).1
      · rw [← (Prod.mk.inj h).2]
  | blockStart => simp only [runStage, blockStart]; split <;> rfl
  | blockType => exact readUint_parse _ _ st it
  | blockNumber => exact readUint_parse _ _ st it
  | blockProcFlags => exact readUint_parse _ _ st it
  | blockCrcType => simp only [runStage, blockCrcType]; split <;> rfl
  | blockCrc =>
      rw [← hst]
      simp only [runStage, blockCrc] at h
      split at h
      · split at h
        · rw [← (Prod.mk.inj h).2]
        · split at h
          · split at h
            · rw [← (Prod.mk.inj h).2]
            · cases (Prod.mk.inj h).1
          · split at h
            · rw [← (Prod.mk.inj h).2]
            · cases (Prod.mk.inj h).1
      · rw [← (Prod.mk.inj h).2]
  | blockData =>
      simp only [runStage, blockData]
      split
      · split <;> rfl
      · rfl
  | blockEnd => cases (Prod.mk.inj h).1
  | bundleEnd =>
      simp only [runStage, bundleEnd]
      split
      · rfl
      · split
        · rfl
        · split <;> rfl

/-! ## Calls -/

/-- The strings are owned, and what is unread is `NULL`. -/
structure Keeps (st : Parser) (s : Strings) : Prop where
  owned : s.Owned
  unread : st.status = .good → ∀ f, st.parse.unread f = true → s.field f = none

/-- A stage reads an identifier and loses its text. -/
def losesAt (T : TinyCbor) (visit : Parser × CborValue) : Bool :=
  visit.1.parse.eidField.isSome && losesText T visit.2

/-- The stages of the identifiers. -/
theorem runStage_eid {st : Parser} (hf : st.parse.eidField = some f) (it : CborValue) :
    ∃ next store, runStage T st.parse st it = parseEid T next store st it := by
  cases hstage : st.parse with
  | destinationEid => exact ⟨.sourceEid, fun x eid => { x with destination := eid }, rfl⟩
  | sourceEid => exact ⟨.reportToEid, fun x eid => { x with source := eid }, rfl⟩
  | reportToEid => exact ⟨.creationTimestamp, fun x eid => { x with reportTo := eid }, rfl⟩
  | _ => rw [hstage] at hf; cases hf

theorem runStage_of_error {st : Parser} (hf : st.parse.eidField = some f) {e : CborError}
    (h : bundle7EidParseCbor T it = .error e) : runStage T st.parse st it = (.error e, st) := by
  obtain ⟨next, store, hrun⟩ := runStage_eid (T := T) hf it
  rw [hrun, parseEid, h]

theorem runStage_of_ok {st : Parser} (hf : st.parse.eidField = some f) {eid : CStr}
    {it' : CborValue} (h : bundle7EidParseCbor T it = .ok (eid, it')) :
    ∃ st', runStage T st.parse st it = (.ok it', st') := by
  obtain ⟨next, store, hrun⟩ := runStage_eid (T := T) hf it
  rw [hrun, parseEid, h]
  exact ⟨_, rfl⟩

/-- **A stage** that loses no text keeps the strings owned, and leaves the fields to be read `NULL`. -/
theorem stageStrings_keeps {st : Parser} (h : Keeps st s) (hgood : st.status = .good)
    (hkeep : losesAt T (st, it) = false) :
    ∃ s', stageStrings T s (st, it) = .ok s' ∧ s'.Owned ∧
      (∀ e st', runStage T st.parse st it = (.error e, st') → Keeps st' s') ∧
      ∀ it' st', runStage T st.parse st it = (.ok it', st') → st'.status = .good →
        ∀ f, (st'.next.getD st'.parse).unread f = true → s'.field f = none := by
  cases hfield : st.parse.eidField with
  | some f =>
      have hnull : s.field f = none := h.unread hgood f (Stage.unread_eidField hfield)
      have hlost : losesText T it = false := by simpa [losesAt, hfield] using hkeep
      have hinto : stageStrings T s (st, it) = parseEidInto T f it s := by
        rw [stageStrings]
        dsimp only
        rw [hfield]
      rw [hinto]
      rcases parseEidInto_cases T f it s with
        ⟨eid, next, s', hread, -, hstore, hstored⟩ | ⟨⟨e, hread⟩, ⟨-, hnothing⟩ | ⟨hyes, -⟩⟩
      · refine ⟨s', hstore, hstored.owned h.owned hnull, fun e st' hrun => ?_,
          fun it' st' hrun hgood' g hg => ?_⟩
        · obtain ⟨st'', hok⟩ := runStage_of_ok hfield hread
          cases (Prod.mk.inj (hok.symm.trans hrun)).1
        · obtain ⟨hunread, hother⟩ := unread_next hrun hgood' hg
          have hgf : g ≠ f := fun hgf => hother (hgf ▸ hfield)
          obtain ⟨a, -, -, -, hupdate⟩ := hstored
          rw [hupdate, Function.update_of_ne hgf]
          exact h.unread hgood g hunread
      · refine ⟨s, hnothing, h.owned, fun e' st' hrun => ?_, fun it' st' hrun => ?_⟩
        · have hpair := (runStage_of_error hfield hread).symm.trans hrun
          obtain rfl : st = st' := (Prod.mk.inj hpair).2
          exact h
        · cases (Prod.mk.inj ((runStage_of_error hfield hread).symm.trans hrun)).1
      · rw [hlost] at hyes
        cases hyes
  | none =>
      have hinto : stageStrings T s (st, it) =
          if st.parse = .bundleEnd ∧ it.rest.head? = some 0xff then
            if st.crcInvalid then s.bundleReset else pure s.handOver
          else pure s := by
        rw [stageStrings]
        dsimp only
        rw [hfield]
      -- nothing is unread when the bundle ends
      have hlast : st.parse = .bundleEnd → ∀ s', s'.Owned →
          (∀ e st', runStage T st.parse st it = (.error e, st') → Keeps st' s') ∧
          ∀ it' st', runStage T st.parse st it = (.ok it', st') → st'.status = .good →
            ∀ f, (st'.next.getD st'.parse).unread f = true → s'.field f = none := by
        intro hend s' howned
        refine ⟨fun e st' hrun => ⟨howned, fun _ f hf => ?_⟩, fun it' st' hrun hgood' f hf => ?_⟩
        · rw [parse_of_error hrun, hend] at hf
          cases hf
        · rw [late_next (by rw [hend]; exact fun _ => rfl) hrun hgood' f] at hf
          cases hf
      rw [hinto]
      split
      · next hend =>
        split
        · obtain ⟨s', hreset, howned, -⟩ := h.owned.bundleReset
          exact ⟨s', hreset, howned, hlast hend.1 s' howned⟩
        · exact ⟨_, rfl, h.owned.handOver, hlast hend.1 _ h.owned.handOver⟩
      · refine ⟨s, rfl, h.owned, fun e st' hrun => ⟨h.owned, fun hgood' f hf => ?_⟩,
          fun it' st' hrun hgood' f hf => ?_⟩
        · rw [parse_of_error hrun] at hf
          exact h.unread hgood f hf
        · exact h.unread hgood f (unread_next hrun hgood' hf).1

/-- **A stage** that loses a text fails, and its field points to a string that is released. -/
theorem stageStrings_loses {st : Parser} (s : Strings) (hlose : losesAt T (st, it) = true) :
    ∃ s', stageStrings T s (st, it) = .ok s' ∧ ¬ s'.Sound ∧
      ∃ e, runStage T st.parse st it = (.error e, st) := by
  obtain ⟨hsome, hlost⟩ := (Bool.and_eq_true _ _).mp hlose
  obtain ⟨f, hf⟩ := Option.isSome_iff_exists.mp hsome
  dsimp only at hf hlost
  rcases parseEidInto_cases T f it s with
    ⟨_, _, _, _, hkept, _⟩ | ⟨⟨e, he⟩, hkept | ⟨_, text, hinto⟩⟩
  · rw [hlost] at hkept
    cases hkept
  · rw [hlost] at hkept
    cases hkept.1
  · refine ⟨s.stale f text, ?_, s.not_sound_stale f text, e, runStage_of_error hf he⟩
    rw [stageStrings]
    dsimp only
    rw [hf]
    exact hinto

theorem Keeps.fail {st : Parser} (h : Keeps st s) : Keeps st.fail s :=
  ⟨h.owned, fun hgood => by cases hgood⟩

/-- The end of a block leaves no field unread. -/
theorem Keeps.readNull {st : Parser} (h : Keeps st s) : Keeps (readNull st) s := by
  unfold Bundle7.readNull
  split
  · refine ⟨h.owned, fun _ f hf => ?_⟩
    have hnext : ((blockEnd st).transition.parse).unread f = false := by
      rw [Parser.transition]
      rcases blockEnd_next st with hnext | hnext <;> rw [hnext] <;> rfl
    rw [hnext] at hf
    cases hf
  · exact h

theorem Keeps.fillBulk {st : Parser} (h : Keeps st s) (bytes : List UInt8) :
    Keeps (fillBulk st bytes) s := ⟨h.owned, h.unread⟩

/-- A pass of the loop that is not one of a bulk read. -/
theorem readLoop_pass {quota fuel parsed : Nat} {st : Parser} {rest : List UInt8}
    {iterator : Option CborValue} {err : Option CborError}
    (hgo : ¬ (rest = [] ∨ st.status ≠ .good)) (hbulk : ¬ st.bulkRead = true)
    (hpass : passIterator T rest iterator = (err, it)) :
    readLoop T quota (fuel + 1) st parsed rest iterator =
      if err = some .unexpectedEof then (st, parsed)
      else if err ≠ none ∧ err ≠ some .unexpectedBreak then (st.fail, parsed)
      else
        match runStage T st.parse st it with
        | (.error e, st) => (if e = .unexpectedEof then st else st.fail, parsed)
        | (.ok it, st) =>
            let consumed := rest.length - it.rest.length
            let st := { st with bundleSize := st.bundleSize + consumed }
            if quota < st.bundleSize then (st.fail, parsed)
            else
              readLoop T quota fuel (accountFor st (rest.take consumed)).transition
                (parsed + consumed) (rest.drop consumed) (if it.atEnd then none else some it) := by
  conv_lhs => unfold readLoop
  rw [if_neg hgo, if_neg hbulk]
  cases iterator with
  | some it' =>
      obtain ⟨rfl, rfl⟩ := Prod.mk.inj hpass
      rfl
  | none =>
      have hinit : T.parserInit rest = (err, it) := hpass
      obtain rfl : err = (T.parserInit rest).1 := by rw [hinit]
      obtain rfl : it = (T.parserInit rest).2 := by rw [hinit]
      rfl

/-- **The loop** keeps the strings owned as long as no text is lost; the first lost text ends it. -/
theorem visits_spec (T : TinyCbor) (quota fuel : Nat) {st : Parser} {s : Strings}
    (h : Keeps st s) (parsed : Nat) (rest : List UInt8) (iterator : Option CborValue) :
    ∃ s', (visits T quota fuel st rest iterator).foldlM (stageStrings T) s = .ok s' ∧
      ((∀ v ∈ visits T quota fuel st rest iterator, losesAt T v = false) →
        Keeps (readLoop T quota fuel st parsed rest iterator).1 s') ∧
      ((∃ v ∈ visits T quota fuel st rest iterator, losesAt T v = true) → ¬ s'.Sound) := by
  induction fuel generalizing st s parsed rest iterator with
  | zero => exact ⟨s, rfl, fun _ => h, by simp [visits]⟩
  | succ fuel ih =>
      have hnone : ∀ {st' : Parser}, Keeps st' s →
          ∃ s', List.foldlM (stageStrings T) s [] = .ok s' ∧
            ((∀ v ∈ ([] : List (Parser × CborValue)), losesAt T v = false) → Keeps st' s') ∧
            ((∃ v ∈ ([] : List (Parser × CborValue)), losesAt T v = true) → ¬ s'.Sound) :=
        fun hst' => ⟨s, rfl, fun _ => hst', by simp⟩
      by_cases hstop : rest = [] ∨ st.status ≠ .good
      · unfold visits readLoop
        rw [if_pos hstop, if_pos hstop]
        exact hnone h
      have hgood : st.status = .good := not_not.mp (not_or.mp hstop).2
      by_cases hbulk : st.bulkRead = true
      · unfold visits readLoop
        rw [if_neg hstop, if_neg hstop, if_pos hbulk, if_pos hbulk]
        split
        · exact hnone h
        · exact ih (h.fillBulk _).readNull _ _ _
      rcases hpass : passIterator T rest iterator with ⟨err, it⟩
      rw [readLoop_pass hstop hbulk hpass]
      unfold visits
      rw [if_neg hstop, if_neg hbulk, hpass]
      dsimp only
      split
      · exact hnone h
      · split
        · exact hnone h.fail
        · rw [List.foldlM_cons]
          cases hlose : losesAt T (st, it) with
          | true =>
              obtain ⟨s', hstage, hnot, e, hrun⟩ := stageStrings_loses s hlose
              rw [hstage, hrun, ok_bind]
              refine ⟨s', rfl, fun hall => ?_, fun _ => hnot⟩
              exact absurd (hall _ List.mem_cons_self) (by rw [hlose]; decide)
          | false =>
              obtain ⟨s', hstage, howned, herror, hunread⟩ := stageStrings_keeps h hgood hlose
              rw [hstage, ok_bind]
              -- what is visited afterwards decides
              have hrest : ∀ {vs : List (Parser × CborValue)} {st' : Parser},
                  (∃ s'', vs.foldlM (stageStrings T) s' = .ok s'' ∧
                    ((∀ v ∈ vs, losesAt T v = false) → Keeps st' s'') ∧
                    ((∃ v ∈ vs, losesAt T v = true) → ¬ s''.Sound)) →
                  ∃ s'', vs.foldlM (stageStrings T) s' = .ok s'' ∧
                    ((∀ v ∈ (st, it) :: vs, losesAt T v = false) → Keeps st' s'') ∧
                    ((∃ v ∈ (st, it) :: vs, losesAt T v = true) → ¬ s''.Sound) := by
                rintro vs st' ⟨s'', hfold, hkeeps, hnot⟩
                refine ⟨s'', hfold, fun hall => hkeeps fun v hv => hall v (by simp [hv]), ?_⟩
                rintro ⟨v, hv, hlost⟩
                rcases List.mem_cons.mp hv with rfl | hv
                · rw [hlose] at hlost
                  cases hlost
                · exact hnot ⟨v, hv, hlost⟩
              rcases hrun : runStage T st.parse st it with ⟨e | it', st'⟩
              · refine hrest ⟨s', rfl, fun _ => ?_, by simp⟩
                dsimp only
                split
                · exact herror e st' hrun
                · exact (herror e st' hrun).fail
              · dsimp only
                split
                · exact hrest ⟨s', rfl, fun _ => ⟨howned, fun hbad => by cases hbad⟩, by simp⟩
                · refine hrest (ih ⟨howned, fun hgood' f hf => ?_⟩ _ _ _)
                  exact hunread it' st' hrun hgood' f hf

/-- **A call** returns, with the strings owned unless a stage has lost a text. -/
theorem Reader.call_spec (T : TinyCbor) (quota : Nat) {x : Reader} (h : Keeps x.parser x.strings)
    (c : ParserCall) :
    ∃ x', x.call T quota c = .ok x' ∧ x'.parser = callParser T quota x.parser c ∧
      ((∀ v ∈ callVisits T quota x.parser c, losesAt T v = false) →
        Keeps x'.parser x'.strings) ∧
      ((∃ v ∈ callVisits T quota x.parser c, losesAt T v = true) → ¬ x'.strings.Sound) := by
  have hreturns : ∀ {strings : Strings}, callStrings T quota x c = .ok strings →
      x.call T quota c = .ok ⟨callParser T quota x.parser c, strings⟩ := fun hs =>
    bind_eq_ok.2 ⟨_, hs, rfl⟩
  have hnothing : ∀ (strings : Strings), callVisits T quota x.parser c = [] →
      callStrings T quota x c = .ok strings → Keeps (callParser T quota x.parser c) strings →
      ∃ x', x.call T quota c = .ok x' ∧ x'.parser = callParser T quota x.parser c ∧
        ((∀ v ∈ callVisits T quota x.parser c, losesAt T v = false) →
          Keeps x'.parser x'.strings) ∧
        ((∃ v ∈ callVisits T quota x.parser c, losesAt T v = true) → ¬ x'.strings.Sound) := by
    intro strings hvisits hs hkeeps
    exact ⟨_, hreturns hs, rfl, fun _ => hkeeps, by simp [hvisits]⟩
  cases c with
  | read buffer =>
      obtain ⟨strings, hfold, hkeeps, hlost⟩ :=
        visits_spec T quota (2 * buffer.length + 2) h 0 buffer none
      exact ⟨_, hreturns hfold, rfl, hkeeps, hlost⟩
  | bulkDone bytes =>
      refine hnothing x.strings rfl rfl ?_
      rw [callParser]
      split
      · exact (h.fillBulk bytes).readNull
      · exact h
  | reset =>
      by_cases hidle : x.parser.status = .good ∧ x.parser.next = some .bundleStart
      · refine hnothing x.strings rfl ?_ ?_
        · rw [callStrings, if_pos rfl, if_pos hidle]
          rfl
        · rw [callParser, bundle7ParserReset, if_pos hidle]
          exact h
      · obtain ⟨strings, hreset, howned, hnull⟩ := h.owned.bundleReset
        refine hnothing strings rfl ?_ ⟨howned, fun _ f _ => hnull f⟩
        rw [callStrings, if_pos rfl, if_neg hidle]
        exact hreset

/-- In every state of a run, between any two calls, the fields are sound. -/
def AlwaysSound (T : TinyCbor) (quota : Nat) : Reader → List ParserCall → Prop
  | x, [] => x.strings.Sound
  | x, c :: calls =>
      x.strings.Sound ∧ ∃ x', x.call T quota c = .ok x' ∧ AlwaysSound T quota x' calls

/-- No stage of a run loses a text. -/
def KeepsTexts (T : TinyCbor) (quota : Nat) : Parser → List ParserCall → Prop
  | _, [] => True
  | st, c :: calls =>
      (∀ v ∈ callVisits T quota st c, losesAt T v = false) ∧
        KeepsTexts T quota (callParser T quota st c) calls

theorem AlwaysSound.now {quota : Nat} {x : Reader} {calls : List ParserCall}
    (h : AlwaysSound T quota x calls) : x.strings.Sound := by
  cases calls with
  | nil => exact h
  | cons c calls => exact h.1

theorem alwaysSound_iff_keepsTexts (T : TinyCbor) (quota : Nat) (calls : List ParserCall)
    {x : Reader} (h : Keeps x.parser x.strings) :
    AlwaysSound T quota x calls ↔ KeepsTexts T quota x.parser calls := by
  induction calls generalizing x with
  | nil => exact iff_of_true h.owned.sound trivial
  | cons c calls ih =>
      obtain ⟨x', hcall, hparser, hkeeps, hlost⟩ := x.call_spec T quota h c
      constructor
      · rintro ⟨-, x'', hcall', hrest⟩
        obtain rfl := Except.ok.inj (hcall.symm.trans hcall')
        have hkept : ∀ v ∈ callVisits T quota x.parser c, losesAt T v = false := by
          intro v hv
          by_contra hlose
          exact hlost ⟨v, hv, by simpa using hlose⟩ hrest.now
        exact ⟨hkept, hparser ▸ (ih (hkeeps hkept)).mp hrest⟩
      · rintro ⟨hkept, hrest⟩
        exact ⟨h.owned.sound, x', hcall, (ih (hkeeps hkept)).mpr (hparser ▸ hrest)⟩

/-- **The identifiers of a half-parsed bundle** are `NULL` or allocated whenever a call returns, and
can be released once, exactly in the runs in which no stage loses a text. -/
theorem always_sound_iff (T : TinyCbor) (quota : Nat) (calls : List ParserCall) :
    AlwaysSound T quota Reader.init calls ↔ KeepsTexts T quota bundle7ParserInit calls :=
  alwaysSound_iff_keepsTexts T quota calls
    ⟨owned_empty (fun _ => rfl) fun _ => rfl, fun _ _ _ => rfl⟩

/-- The begin of a bundle, up to the end of its destination. -/
def cutBehindDestination : List UInt8 := [0x9f, 0x88, 7, 0, 0, 0x82, 1, 0]

/-- **A cut behind the destination** leaves a released string in the field. -/
theorem released_destination_kept :
    ¬ AlwaysSound reference 1000 Reader.init [.read cutBehindDestination] := by
  rintro ⟨-, x, hcall, hsound⟩
  have hrun : (Reader.init.call reference 1000 (.read cutBehindDestination)).map
      (fun x => (x.strings.field .destination, x.strings.heap.cells 0)) = .ok (some 0, none) := by
    rfl
  rw [hcall] at hrun
  obtain ⟨hfield, hgone⟩ := Prod.mk.inj (Except.ok.inj hrun)
  obtain ⟨text, hlive⟩ := hsound.live .destination 0 hfield
  rw [hgone] at hlive
  cases hlive

end

end Bundle7
