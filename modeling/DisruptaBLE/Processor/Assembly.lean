import DisruptaBLE.Lib.Splice
import DisruptaBLE.Processor.Reassembly

/-!
# The assembly of an ADU

`try_reassemble` walks over the fragments of a slot twice: a check looks for a gap, and a
loop copies their payloads.  Both depend on the fragments only, so they are functions of
these here: `gapless` is the check, and `copies` lists the calls of `memcpy`.

* No copy leaves the payload of its fragment or the buffer (`copies_within`).
* If the fragments are parts of one ADU and the check passes, the copies restore the ADU
  (`write_copies`).
* If the ranges of the fragments cover the buffer, in the order of their offsets, every
  byte of it is copied from a fragment that has it (`copied_of_covered`).
-/

namespace BundleProcessor

open PtrHeap BundleStorage Outcome Splice

/-! ## Definitions -/

/-- Where the payload of a fragment begins in the ADU. -/
def Bundle.begins (b : Bundle) : Nat := b.fragmentOffset.toNat

/-- Where the payload of a fragment ends in the ADU. -/
def Bundle.ends (b : Bundle) : Nat := b.fragmentOffset.toNat + b.payloadLength.toNat

/-- The check of `try_reassemble`, over the fragments themselves. -/
def gapless : UInt32 → List Bundle → Bool
  | _, [] => false
  | posInBundle, b :: bs =>
      if posInBundle < b.fragmentOffset then false
      else
        let posInBundle := b.fragmentOffset + b.payloadLength
        if b.totalAduLength ≤ posInBundle then true else gapless posInBundle bs

/-- A call of `memcpy` in `try_reassemble`. -/
structure Copy where
  source : Bundle
  pos : Nat
  offset : Nat
  count : Nat
  deriving DecidableEq, Repr

/-- The calls of `memcpy` in `try_reassemble`. -/
def copies (P : Params) (aduLength : Nat) : List Bundle → Nat → List Copy
  | [], _ => []
  | b :: bs, posInBundle =>
      let length := b.payloadLength.toNat
      let offsetInBundle := sizeSub P posInBundle b.fragmentOffset.toNat
      let bytesCopied := min (sizeSub P length offsetInBundle) (sizeSub P aduLength posInBundle)
      if offsetInBundle < length then
        ⟨b, posInBundle, offsetInBundle, bytesCopied⟩ ::
          copies P aduLength bs (posInBundle + bytesCopied)
      else copies P aduLength bs posInBundle

/-- The bytes that are copied. -/
def Copy.piece (c : Copy) : List UInt8 :=
  (c.source.payload.data.bytes.drop c.offset).take c.count

/-- The buffer after a copy. -/
def Copy.write (payload : List UInt8) (c : Copy) : List UInt8 :=
  payload.take c.pos ++ c.piece ++ payload.drop (c.pos + c.count)

/-- `try_reassemble` up to the delivery of the ADU. -/
def reassemble (P : Params) (env : Env) (s : Processor) (before : List (List Addr))
    (slot : List Addr) (after : List (List Addr)) : Except Fault (Option Adu × Processor) := do
  let s := { s with reassembly := before ++ slot :: after }
  let complete ← canReassemble s 0 slot
  match complete, slot with
  | true, first :: _ =>
      let b ← s.bundle first
      let aduLength := b.totalAduLength.toNat
      match malloc env s with
      | (none, s) => pure (none, s)
      | (some _, s) =>
          let s := bundleAddReassembledAsKnown env s b
          let (payload, s) ← copyFragments P aduLength slot 0
            ((List.range aduLength).map env.garbage) s
          pure (some { bundleAduInit b with payload }, { s with reassembly := before ++ after })
  | _, _ => pure (none, s)

/-- The delivery of an ADU, if there is one. -/
def deliverAny (P : Params) (r : Option Adu × Processor) : Except Fault Processor :=
  match r.1 with
  | none => .ok r.2
  | some adu => bundleDeliverAdu P r.2 adu

/-- **`try_reassemble`** is the assembly of an ADU and its delivery. -/
theorem tryReassemble_eq (P : Params) (env : Env) (s : Processor) (before : List (List Addr))
    (slot : List Addr) (after : List (List Addr)) :
    tryReassemble P env s before slot after =
      reassemble P env s before slot after >>= deliverAny P := by
  unfold tryReassemble reassemble
  dsimp only
  rw [bind_assoc]
  apply bind_congr_ok
  intro complete _
  cases complete with
  | false => rfl
  | true =>
      cases slot with
      | nil => rfl
      | cons first others =>
          dsimp only
          rw [bind_assoc]
          apply bind_congr_ok
          intro b _
          unfold malloc
          cases env.malloc s.requests with
          | none => rfl
          | some gap =>
              dsimp only
              rw [bind_assoc]
              apply bind_congr_ok
              intro r _
              rfl

/-- The bundles at the addresses of a slot. -/
def Occupied (h : Heap Bundle) (slot : List Addr) (frags : List Bundle) : Prop :=
  slot.map h.cells = frags.map some

section Loops

variable {P : Params} {env : Env} {s s' : Processor} {slot : List Addr} {frags : List Bundle}

theorem occupied_cons {h : Heap Bundle} {x : Addr} {xs : List Addr}
    (hocc : Occupied h (x :: xs) frags) :
    ∃ b bs, frags = b :: bs ∧ h.cells x = some b ∧ Occupied h xs bs := by
  cases frags with
  | nil => cases hocc
  | cons b bs =>
      obtain ⟨hx, hxs⟩ := List.cons.inj hocc
      exact ⟨b, bs, rfl, hx, hxs⟩

theorem occupied_nil {h : Heap Bundle} (hocc : Occupied h [] frags) : frags = [] := by
  cases frags with
  | nil => rfl
  | cons b bs => cases hocc

/-! ## The loops over the slot -/

theorem canReassemble_eq (h : Occupied s.bundles slot frags) (pos : UInt32) :
    canReassemble s pos slot = .ok (gapless pos frags) := by
  induction slot generalizing frags pos with
  | nil =>
      obtain rfl := occupied_nil h
      rfl
  | cons x xs ih =>
      obtain ⟨b, bs, rfl, hx, hxs⟩ := occupied_cons h
      unfold canReassemble gapless
      rw [bundle_of_cell hx, ok_bind]
      split
      · rfl
      · dsimp only
        split
        · rfl
        · exact ih hxs _

theorem bundles_of_discard {a : Addr} (h : bundleDiscard s a = .ok s') :
    s'.bundles = s.bundles.erase a := by
  unfold bundleDiscard at h
  obtain ⟨b, hb, h⟩ := ok_of_bind h
  obtain ⟨s₁, hdel, h⟩ := ok_of_bind h
  have hbun : s₁.bundles = s.bundles := by
    unfold storageDelete at hdel
    obtain ⟨found, _, hdel⟩ := ok_of_bind hdel
    cases found with
    | none =>
        obtain rfl := Except.ok.inj hdel
        rfl
    | some x =>
        obtain ⟨c, _, hdel⟩ := ok_of_bind hdel
        obtain ⟨r, _, hdel⟩ := ok_of_bind hdel
        obtain rfl := Except.ok.inj hdel
        rfl
  unfold bundleDrop at h
  obtain ⟨c, _, h⟩ := ok_of_bind h
  split at h
  · obtain rfl := Except.ok.inj h
    rw [← hbun]
  · cases h

/-- One round of the copying loop, for a run that ends well. -/
theorem copyFragments_cons {T pos : Nat} {payload : List UInt8} {x : Addr} {xs : List Addr}
    {b : Bundle} {r : List UInt8 × Processor} (hb : s.bundles.cells x = some b)
    (h : copyFragments P T (x :: xs) pos payload s = .ok r) :
    ∃ s₁, (∀ y, y ≠ x → s₁.bundles.cells y = s.bundles.cells y) ∧ s₁.bundles.cells x = none ∧
      copyFragments P T xs
        (if sizeSub P pos b.fragmentOffset.toNat < b.payloadLength.toNat then
          pos + min (sizeSub P b.payloadLength.toNat (sizeSub P pos b.fragmentOffset.toNat))
            (sizeSub P T pos) else pos)
        (if sizeSub P pos b.fragmentOffset.toNat < b.payloadLength.toNat then
          Copy.write payload ⟨b, pos, sizeSub P pos b.fragmentOffset.toNat,
            min (sizeSub P b.payloadLength.toNat (sizeSub P pos b.fragmentOffset.toNat))
              (sizeSub P T pos)⟩ else payload) s₁ = .ok r := by
  unfold copyFragments at h
  rw [bundle_of_cell hb, ok_bind, update_of_cell hb, ok_bind] at h
  obtain ⟨s₁, hdisc, h⟩ := ok_of_bind h
  have hbun := bundles_of_discard hdisc
  refine ⟨s₁, ?_, ?_, ?_⟩
  · intro y hy
    rw [hbun, Heap.cells_erase_ne _ hy, put_ne _ hy]
  · rw [hbun]
    exact Heap.cells_erase_self _ _
  · split at h
    · next hlt =>
      rw [if_pos hlt, if_pos hlt]
      exact h
    · next hlt =>
      rw [if_neg hlt, if_neg hlt]
      exact h

/-- The loop does not pass over a bundle that was freed. -/
theorem copyFragments_dead {T pos : Nat} {payload : List UInt8} {y : Addr} {l : List Addr}
    (hy : s.bundles.cells y = none) (hmem : y ∈ l) {r : List UInt8 × Processor} :
    copyFragments P T l pos payload s ≠ .ok r := by
  induction l generalizing s pos payload with
  | nil => cases hmem
  | cons x xs ih =>
      intro h
      cases hx : s.bundles.cells x with
      | none =>
          unfold copyFragments at h
          rw [bundle_of_none hx] at h
          cases h
      | some b =>
          have hne : y ≠ x := by
            rintro rfl
            rw [hy] at hx
            cases hx
          obtain ⟨s₁, hothers, _, hrest⟩ := copyFragments_cons hx h
          have hyxs : y ∈ xs := (List.mem_cons.mp hmem).resolve_left hne
          exact ih (by rw [hothers y hne]; exact hy) hyxs hrest

/-- **The copying loop** writes the copies into the buffer, one after the other. -/
theorem copyFragments_payload (h : Occupied s.bundles slot frags) {T pos : Nat}
    {payload payload' : List UInt8}
    (hrun : copyFragments P T slot pos payload s = .ok (payload', s')) :
    payload' = (copies P T frags pos).foldl Copy.write payload := by
  induction slot generalizing s frags pos payload with
  | nil =>
      obtain rfl := occupied_nil h
      obtain ⟨rfl, rfl⟩ := Prod.mk.inj (Except.ok.inj hrun)
      rfl
  | cons x xs ih =>
      obtain ⟨b, bs, rfl, hx, hxs⟩ := occupied_cons h
      obtain ⟨s₁, hothers, hself, hrest⟩ := copyFragments_cons hx hrun
      have hnew : x ∉ xs := fun hmem => copyFragments_dead hself hmem hrest
      have hocc : Occupied s₁.bundles xs bs := by
        rw [Occupied, ← hxs]
        apply List.map_congr_left
        intro y hy
        apply hothers
        rintro rfl
        exact hnew hy
      have hpayload := ih hocc hrest
      unfold copies
      dsimp only
      split
      · next hlt =>
        rw [if_pos hlt, if_pos hlt] at hpayload
        exact hpayload
      · next hlt =>
        rw [if_neg hlt, if_neg hlt] at hpayload
        exact hpayload

/-! ## Positions -/

theorem word_le (P : Params) : 2 ^ 32 ≤ 2 ^ (8 * P.ptrSize) := by
  apply Nat.pow_le_pow_right (by decide)
  have hsize := P.ptrSize_ge
  omega

/-- Subtraction of `size_t` without an underflow. -/
theorem sizeSub_of_le (P : Params) {x y : Nat} (hle : y ≤ x) (hx : x < 2 ^ 32) :
    sizeSub P x y = x - y := by
  have hword := word_le P
  have heq : x + 2 ^ (8 * P.ptrSize) - y = (x - y) + 2 ^ (8 * P.ptrSize) := by omega
  rw [sizeSub, heq, Nat.add_mod_right, Nat.mod_eq_of_lt (by omega)]

theorem Bundle.ends_eq (b : Bundle) : b.ends = b.begins + b.payload.data.bytes.length := by
  unfold Bundle.ends Bundle.begins Bundle.payloadLength
  rw [Buffer.toNat_length]

/-- What `copies` does with a fragment that begins at or before the position. -/
theorem copies_cons_of_le (P : Params) {T pos : Nat} {b : Bundle} (bs : List Bundle)
    (hb : b.begins ≤ pos) (hpos : pos ≤ T) (hT : T < 2 ^ 32) :
    copies P T (b :: bs) pos =
      if pos < b.ends then
        ⟨b, pos, pos - b.begins, min b.ends T - pos⟩ :: copies P T bs (min b.ends T)
      else copies P T bs pos := by
  have hlen : b.payloadLength.toNat < 2 ^ 32 := b.payloadLength.toNat_lt
  have hoffset : sizeSub P pos b.fragmentOffset.toNat = pos - b.begins :=
    sizeSub_of_le P hb (by omega)
  have hends : b.ends = b.begins + b.payloadLength.toNat := rfl
  rw [copies, hoffset]
  by_cases hlt : pos < b.ends
  · have hin : pos - b.begins < b.payloadLength.toNat := by omega
    have hcount : min (sizeSub P b.payloadLength.toNat (pos - b.begins)) (sizeSub P T pos) =
        min b.ends T - pos := by
      rw [sizeSub_of_le P (by omega) hlen, sizeSub_of_le P hpos hT]
      omega
    rw [if_pos hin, if_pos hlt, hcount]
    rw [show pos + (min b.ends T - pos) = min b.ends T by omega]
  · rw [if_neg (by omega), if_neg hlt]

/-- **Copies stay within bounds**, whatever the fragments are. -/
theorem copies_within (P : Params) {T pos : Nat} (bs : List Bundle) (hpos : pos ≤ T)
    (hT : T < 2 ^ 32) :
    ∀ c ∈ copies P T bs pos, c.source ∈ bs ∧
      c.offset + c.count ≤ c.source.payload.data.bytes.length ∧ c.pos + c.count ≤ T := by
  induction bs generalizing pos with
  | nil => simp [copies]
  | cons b bs ih =>
      have hlen : b.payloadLength.toNat < 2 ^ 32 := b.payloadLength.toNat_lt
      have hbytes : b.payloadLength.toNat = b.payload.data.bytes.length := Buffer.toNat_length _
      intro c hc
      unfold copies at hc
      dsimp only at hc
      split at hc
      · next hlt =>
        rw [sizeSub_of_le P (Nat.le_of_lt hlt) hlen, sizeSub_of_le P hpos hT] at hc
        rcases List.mem_cons.mp hc with rfl | hc
        · dsimp only
          exact ⟨List.mem_cons_self, by omega, by omega⟩
        · obtain ⟨hmem, hrest⟩ := ih (by omega) c hc
          exact ⟨List.mem_cons_of_mem _ hmem, hrest⟩
      · obtain ⟨hmem, hrest⟩ := ih hpos c hc
        exact ⟨List.mem_cons_of_mem _ hmem, hrest⟩

theorem Copy.write_eq_splice {c : Copy} (payload : List UInt8)
    (hin : c.offset + c.count ≤ c.source.payload.data.bytes.length) :
    c.piece.length = c.count ∧ Copy.write payload c = splice payload c.pos c.piece := by
  have hlen : c.piece.length = c.count := by
    simp only [Copy.piece, List.length_take, List.length_drop]
    omega
  exact ⟨hlen, by rw [Copy.write, splice, hlen]⟩

/-! ## Parts of one ADU -/

/-- A fragment of an ADU. -/
structure PartOf (adu : List UInt8) (b : Bundle) : Prop where
  total : b.totalAduLength.toNat = adu.length
  inside : b.ends ≤ adu.length
  bytes : b.payload.data.bytes = (adu.drop b.begins).take b.payloadLength.toNat

variable {adu : List UInt8} {b : Bundle}

theorem PartOf.length_lt (h : PartOf adu b) : adu.length < 2 ^ 32 := by
  rw [← h.total]
  exact b.totalAduLength.toNat_lt

/-- The position after a fragment, without an overflow. -/
theorem PartOf.toNat_add (h : PartOf adu b) :
    (b.fragmentOffset + b.payloadLength).toNat = b.ends := by
  have hlt := h.length_lt
  have hin := h.inside
  unfold Bundle.ends at hin
  rw [UInt32.toNat_add, Nat.mod_eq_of_lt (by omega)]
  rfl

/-- The part of an ADU that a fragment still has at a position. -/
theorem PartOf.drop (h : PartOf adu b) {pos count : Nat} (hlo : b.begins ≤ pos)
    (hhi : pos + count ≤ b.ends) :
    (b.payload.data.bytes.drop (pos - b.begins)).take count = (adu.drop pos).take count := by
  have hends : b.ends = b.begins + b.payloadLength.toNat := rfl
  rw [h.bytes, List.drop_take, List.take_take, List.drop_drop,
    show min count (b.payloadLength.toNat - (pos - b.begins)) = count by omega,
    show b.begins + (pos - b.begins) = pos by omega]

/-- At the end of the ADU nothing more is copied. -/
theorem copies_at_end (P : Params) (hparts : ∀ b ∈ frags, PartOf adu b) :
    copies P adu.length frags adu.length = [] := by
  induction frags with
  | nil => rfl
  | cons b bs ih =>
      have hb := hparts b List.mem_cons_self
      have hin := hb.inside
      have hends : b.ends = b.begins + b.payloadLength.toNat := rfl
      rw [copies_cons_of_le P bs (by omega) (Nat.le_refl _) hb.length_lt,
        if_neg (Nat.not_lt.mpr hin)]
      exact ih fun c hc => hparts c (List.mem_cons_of_mem _ hc)

/-- **The copies restore the ADU**, if the check finds no gap.  The loop is never behind
the check: its position is the furthest end so far, that of the check the last one. -/
theorem write_copies (P : Params) (hparts : ∀ b ∈ frags, PartOf adu b) {checked : UInt32}
    (hgap : gapless checked frags = true) {pos : Nat} (hchecked : checked.toNat ≤ pos)
    (hpos : pos ≤ adu.length) {payload : List UInt8} (hlen : payload.length = adu.length)
    (hagree : payload.take pos = adu.take pos) :
    (copies P adu.length frags pos).foldl Copy.write payload = adu := by
  induction frags generalizing checked pos payload with
  | nil => cases hgap
  | cons b bs ih =>
      have hb := hparts b List.mem_cons_self
      have hbs : ∀ c ∈ bs, PartOf adu c := fun c hc => hparts c (List.mem_cons_of_mem _ hc)
      have hin := hb.inside
      have hends : b.ends = b.begins + b.payload.data.bytes.length := b.ends_eq
      unfold gapless at hgap
      split at hgap
      · cases hgap
      next hnlt =>
      have hle : b.begins ≤ pos := by
        rw [UInt32.not_lt, UInt32.le_iff_toNat_le] at hnlt
        exact hnlt.trans hchecked
      -- the rest of the loop, from a position that is not behind the end of the fragment
      have hrest : ∀ {pos' : Nat} {payload' : List UInt8}, b.ends ≤ pos' → pos' ≤ adu.length →
          payload'.length = adu.length → payload'.take pos' = adu.take pos' →
          (copies P adu.length bs pos').foldl Copy.write payload' = adu := by
        intro pos' payload' hend hpos' hlen' hagree'
        dsimp only at hgap
        split at hgap
        · next htotal =>
          rw [UInt32.le_iff_toNat_le, hb.total, hb.toNat_add] at htotal
          obtain rfl : pos' = adu.length := by omega
          rw [copies_at_end P hbs, List.foldl_nil]
          rw [List.take_of_length_le (Nat.le_of_eq hlen'), List.take_length] at hagree'
          exact hagree'
        · exact ih hbs hgap (by rw [hb.toNat_add]; exact hend) hpos' hlen' hagree'
      rw [copies_cons_of_le P bs hle hpos hb.length_lt]
      split
      · next hlt =>
        rw [Nat.min_eq_left hin, List.foldl_cons]
        obtain ⟨hpiece, hwrite⟩ := Copy.write_eq_splice
          (c := ⟨b, pos, pos - b.begins, b.ends - pos⟩) payload (by dsimp only; omega)
        rw [hwrite]
        have hbytes : (b.payload.data.bytes.drop (pos - b.begins)).take (b.ends - pos) =
            (adu.drop pos).take (b.ends - pos) := hb.drop hle (by omega)
        have hto : pos + (Copy.piece ⟨b, pos, pos - b.begins, b.ends - pos⟩).length = b.ends := by
          rw [hpiece]
          exact Nat.add_sub_cancel' (Nat.le_of_lt hlt)
        apply hrest (Nat.le_refl _) hin
        · rw [length_splice]
          · exact hlen
          · rw [hto, hlen]
            exact hin
        · have htake := take_splice hagree (by rw [hlen]; exact hpos)
            (by rw [hpiece]; exact hbytes)
          rw [hto] at htake
          exact htake
      · next hnlt => exact hrest (Nat.not_lt.mp hnlt) hpos hlen hagree

/-! ## Any fragments -/

/-- A byte of the buffer is copied from a fragment that has it. -/
def CopiedFrom (cs : List Copy) (i : Nat) : Prop :=
  ∃ c ∈ cs, c.pos ≤ i ∧ i < c.pos + c.count ∧ c.source.begins ≤ i ∧ i < c.source.ends ∧
    c.offset + (i - c.pos) = i - c.source.begins

/-- A fragment has a byte of the ADU. -/
def Covered (frags : List Bundle) (i : Nat) : Prop := ∃ b ∈ frags, b.begins ≤ i ∧ i < b.ends

/-- **Every byte is copied**, if the fragments cover the buffer from the position on: the
first fragment in the order of the offsets begins at or before it. -/
theorem copied_of_covered (P : Params)
    (hsorted : frags.Pairwise fun b c => b.fragmentOffset ≤ c.fragmentOffset) {T pos : Nat}
    (hT : T < 2 ^ 32) (hcov : ∀ i, pos ≤ i → i < T → Covered frags i) :
    ∀ i, pos ≤ i → i < T → CopiedFrom (copies P T frags pos) i := by
  induction frags generalizing pos with
  | nil =>
      intro i hlo hhi
      obtain ⟨b, hb, _⟩ := hcov i hlo hhi
      cases hb
  | cons b bs ih =>
      intro i hlo hhi
      obtain ⟨hfirst, hbs⟩ := List.pairwise_cons.mp hsorted
      have hle : b.begins ≤ pos := by
        obtain ⟨c, hc, hbegin, _⟩ := hcov pos (Nat.le_refl _) (Nat.lt_of_le_of_lt hlo hhi)
        rcases List.mem_cons.mp hc with rfl | hc
        · exact hbegin
        · exact (UInt32.le_iff_toNat_le.mp (hfirst c hc)).trans hbegin
      -- what the first fragment does not have, another one has
      have hother : ∀ {pos' : Nat}, pos ≤ pos' → min b.ends T ≤ pos' →
          ∀ i, pos' ≤ i → i < T → Covered bs i := by
        intro pos' hpos' hend i hlo' hhi'
        obtain ⟨c, hc, hbegin, hlt⟩ := hcov i (hpos'.trans hlo') hhi'
        rcases List.mem_cons.mp hc with rfl | hc
        · omega
        · exact ⟨c, hc, hbegin, hlt⟩
      rw [copies_cons_of_le P bs hle (by omega) hT]
      split
      · next hlt =>
        by_cases hin : i < min b.ends T
        · refine ⟨_, List.mem_cons_self, ?_⟩
          dsimp only
          omega
        · obtain ⟨c, hc, hrest⟩ := ih hbs (hother (by omega) (Nat.le_refl _)) i (by omega) hhi
          exact ⟨c, List.mem_cons_of_mem _ hc, hrest⟩
      · next hnlt =>
        exact ih hbs (hother (Nat.le_refl _) (by omega)) i hlo hhi

end Loops

end BundleProcessor
