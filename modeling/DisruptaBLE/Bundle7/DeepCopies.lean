import DisruptaBLE.Bundle7.FragmentBlocks
import DisruptaBLE.Lib.Chain

/-!
# Deep copies

`bundle_dup`, `bundle_block_list_dup` and the functions below them in
`components/ud3tn/bundle.c`, with the three kinds of linked structures they walk: entries of the
block list, blocks and references to EIDs.  Requests for memory are served.

`bundle_block_dup` puts every reference in front of those it has copied, so their order is
reversed.  The loop of `bundle_dup` that looks for the payload block never leaves the first entry.
`deep_copies_iff` says when the copies are right nevertheless.
-/

namespace DeepCopies

open PtrHeap
open BundleProcessor hiding Fault
open Bundle7 (bundleBlockDup map_bundleBlockDup_iff)

/-! ## Memory -/

/-- `struct endpoint_list`. -/
structure EidRef where
  eid : CStr
  next : Ptr
  deriving DecidableEq, Repr

/-- `struct bundle_block`, without its checksum. -/
structure BlockCell where
  type : UInt32
  number : UInt8
  flags : UInt32
  data : Buffer
  eidRefs : Ptr
  crcType : CrcType
  deriving DecidableEq, Repr

/-- `struct bundle_block_list`. -/
structure BlockEntry where
  data : Ptr
  next : Ptr
  deriving DecidableEq, Repr

/-- `struct bundle` without the pointers to its blocks.  An EID may be missing. -/
structure BundleHeader where
  id : UInt16
  protocolVersion : UInt8
  procFlags : UInt32
  ret : RetConstraints
  crcType : CrcType
  destination : Option CStr
  source : Option CStr
  reportTo : Option CStr
  currentCustodian : Option CStr
  creationTimestampMs : UInt64
  sequenceNumber : UInt64
  lifetimeMs : UInt64
  crc : UInt32
  fragmentOffset : UInt32
  totalAduLength : UInt32
  primaryBlockLength : UInt16
  deriving DecidableEq, Repr

/-- `struct bundle`. -/
structure BundleCell extends BundleHeader where
  blocks : Ptr
  payloadBlock : Ptr
  deriving DecidableEq, Repr

structure Memory where
  refs : Heap EidRef
  blocks : Heap BlockCell
  entries : Heap BlockEntry

/-- `malloc`: where the next structure of each kind is put. -/
structure Allocator where
  ref : Memory → Addr
  block : Memory → Addr
  entry : Memory → Addr
  ref_fresh : ∀ m : Memory, m.refs.cells (ref m) = none
  block_fresh : ∀ m : Memory, m.blocks.cells (block m) = none
  entry_fresh : ∀ m : Memory, m.entries.cells (entry m) = none

/-! ## Definitions -/

namespace Memory

/-- The loop of `bundle_block_dup` over the references. -/
def dupRefs (A : Allocator) : Nat → Memory → Ptr → Ptr → Except Fault (Memory × Ptr)
  | 0, _, _, _ => .error .diverged
  | _ + 1, m, none, refs => .ok (m, refs)
  | fuel + 1, m, some curRef, refs => do
      let r ← m.refs.load (some curRef)
      let new := A.ref m
      dupRefs A fuel { m with refs := m.refs.set new ⟨r.eid, refs⟩ } r.next (some new)

/-- `bundle_block_dup`. -/
def bundleBlockDup (A : Allocator) (fuel : Nat) (m : Memory) (b : Ptr) :
    Except Fault (Memory × Addr) := do
  assertC b.isSome
  let c ← m.blocks.load b
  let dup := A.block m
  let m := { m with blocks := m.blocks.set dup { c with eidRefs := none } }
  let (m, refs) ← dupRefs A fuel m c.eidRefs none
  pure ({ m with blocks := m.blocks.set dup { c with eidRefs := refs } }, dup)

/-- `bundle_block_entry_dup`, with `bundle_block_entry_create`. -/
def bundleBlockEntryDup (A : Allocator) (fuel : Nat) (m : Memory) (e : Addr) :
    Except Fault (Memory × Addr) := do
  let entry ← m.entries.load (some e)
  let (m, dup) ← bundleBlockDup A fuel m entry.data
  let result := A.entry m
  pure ({ m with entries := m.entries.set result ⟨some dup, none⟩ }, result)

/-- `*cur = new`: the first entry, or the link of the last one. -/
def link (m : Memory) (dup : Ptr) (new : Addr) : Ptr → Except Fault (Memory × Ptr)
  | none => .ok (m, some new)
  | some last => do
      let entries ← m.entries.modify (some last) ({ · with next := some new })
      pure ({ m with entries }, dup)

/-- The loop of `bundle_block_list_dup`: `cur` is the entry whose link is written next. -/
def dupEntries (A : Allocator) (limit : Nat) :
    Nat → Memory → Ptr → Ptr → Ptr → Except Fault (Memory × Ptr)
  | 0, _, _, _, _ => .error .diverged
  | _ + 1, m, dup, _, none => .ok (m, dup)
  | fuel + 1, m, dup, cur, some e => do
      let (m, new) ← bundleBlockEntryDup A limit m e
      let (m, dup) ← link m dup new cur
      let entry ← m.entries.load (some e)
      dupEntries A limit fuel m dup (some new) entry.next

/-- `bundle_block_list_dup`. -/
def bundleBlockListDup (A : Allocator) (fuel : Nat) (m : Memory) (e : Ptr) :
    Except Fault (Memory × Ptr) :=
  dupEntries A fuel fuel m none none e

/-- The loop of `bundle_dup`, which does not move `cur_block`. -/
def searchPayload (m : Memory) : Nat → Ptr → BundleCell → Except Fault BundleCell
  | 0, _, _ => .error .diverged
  | _ + 1, none, dup => .ok dup
  | fuel + 1, some curBlock, dup => do
      let entry ← m.entries.load (some curBlock)
      let block ← m.blocks.load entry.data
      if block.type = blockTypePayload then pure { dup with payloadBlock := entry.data }
      else searchPayload m fuel (some curBlock) dup

/-- `bundle_dup`.  The strings of the header are values here, and `strdup` keeps them. -/
def bundleDup (A : Allocator) (fuel : Nat) (m : Memory) (b : BundleCell) :
    Except Fault (Memory × BundleCell) := do
  let (m, blocks) ← bundleBlockListDup A fuel m b.blocks
  let dup ← searchPayload m fuel blocks { b with blocks }
  pure (m, dup)

end Memory

/-! ## What lies in memory -/

/-- A list of references. -/
def EidList (h : Heap EidRef) : Ptr → List CStr → Prop
  | p, [] => p = none
  | p, e :: es => ∃ a r, p = some a ∧ h.cells a = some r ∧ r.eid = e ∧ EidList h r.next es

/-- A block with its references. -/
def BlockAt (m : Memory) (a : Addr) (x : Block) : Prop :=
  ∃ refs, m.blocks.cells a = some ⟨x.type, x.number, x.flags, x.data, refs, x.crcType⟩ ∧
    EidList m.refs refs x.eidRefs

/-- An entry of a block list with its block. -/
def EntryAt (m : Memory) (e : Addr) (y : Addr × Block) : Prop :=
  ∃ c, m.entries.cells e = some c ∧ c.data = some y.1 ∧ BlockAt m y.1 y.2

/-- A block list: the blocks, each with its address. -/
def Holds (m : Memory) (p : Ptr) (l : List (Addr × Block)) : Prop :=
  ∃ es, IsSeg m.entries BlockEntry.next p es none ∧ List.Forall₂ (EntryAt m) es l

/-- `payload_block` is one of the payload blocks of the list, or `NULL` if there is none. -/
def PayloadSet (l : List (Addr × Block)) (p : Ptr) : Prop :=
  (p = none ∧ ∀ y ∈ l, y.2.type ≠ blockTypePayload) ∨
    ∃ y ∈ l, y.2.type = blockTypePayload ∧ p = some y.1

/-- With enough steps for its loops, a program ends with a result. -/
def EndsWith {α : Type} (run : Nat → Except Fault α) (r : α) : Prop :=
  ∃ n, ∀ fuel, n ≤ fuel → run fuel = .ok r

/-- Copies of the blocks of a list: equal block by block, and new blocks. -/
structure CopyOf (m : Memory) (l l' : List (Addr × Block)) : Prop where
  equal : l'.map Prod.snd = l.map Prod.snd
  fresh : ∀ y ∈ l', m.blocks.cells y.1 = none
  distinct : (l'.map Prod.fst).Nodup

/-- **The property** of `bundle_block_list_dup`. -/
def ListCopied (A : Allocator) (m : Memory) (p : Ptr) (l : List (Addr × Block)) : Prop :=
  ∃ m' p' l', EndsWith (fun fuel => m.bundleBlockListDup A fuel p) (m', p') ∧
    Holds m' p' l' ∧ CopyOf m l l' ∧ Holds m' p l

/-- `payload_block` of the copy is the copy of `payload_block`. -/
def PayloadCopied (l l' : List (Addr × Block)) (p p' : Ptr) : Prop :=
  (p = none ∧ p' = none) ∨ ∃ z ∈ l.zip l', p = some z.1.1 ∧ p' = some z.2.1

/-- **The property** of `bundle_dup`. -/
def BundleCopied (A : Allocator) (m : Memory) (b : BundleCell) (l : List (Addr × Block)) : Prop :=
  ∃ m' dup l', EndsWith (fun fuel => m.bundleDup A fuel b) (m', dup) ∧
    dup.toBundleHeader = b.toBundleHeader ∧ Holds m' dup.blocks l' ∧ CopyOf m l l' ∧
    PayloadCopied l l' b.payloadBlock dup.payloadBlock ∧ Holds m' b.blocks l

/-! ## Memory that grows -/

/-- What was in memory is still there. -/
structure Keeps (m m' : Memory) : Prop where
  refs : ∀ a r, m.refs.cells a = some r → m'.refs.cells a = some r
  blocks : ∀ a c, m.blocks.cells a = some c → m'.blocks.cells a = some c
  entries : ∀ a c, m.entries.cells a = some c → m'.entries.cells a = some c

/-- What was in memory is still there, up to links between entries. -/
structure KeepsBlocks (m m' : Memory) : Prop where
  refs : ∀ a r, m.refs.cells a = some r → m'.refs.cells a = some r
  blocks : ∀ a c, m.blocks.cells a = some c → m'.blocks.cells a = some c
  entries : ∀ a c, m.entries.cells a = some c →
    ∃ c', m'.entries.cells a = some c' ∧ c'.data = c.data

variable {A : Allocator} {m m₀ m' : Memory} {b : BundleCell} {l l' : List (Addr × Block)}
  {p p' : Ptr}

theorem Keeps.refl (m : Memory) : Keeps m m := ⟨fun _ _ h => h, fun _ _ h => h, fun _ _ h => h⟩

theorem Keeps.trans {m₁ : Memory} (h : Keeps m m₁) (h' : Keeps m₁ m') : Keeps m m' :=
  ⟨fun a r hr => h'.refs a r (h.refs a r hr), fun a c hc => h'.blocks a c (h.blocks a c hc),
    fun a c hc => h'.entries a c (h.entries a c hc)⟩

theorem free_of_keep {α : Type} {h h' : Heap α} {a : Addr}
    (hkeep : ∀ a v, h.cells a = some v → h'.cells a = some v) (hfree : h'.cells a = none) :
    h.cells a = none := by
  cases hcell : h.cells a with
  | none => rfl
  | some v => exact absurd ((hkeep a v hcell).symm.trans hfree) (Option.some_ne_none v)

theorem Keeps.keepsBlocks (h : Keeps m m') : KeepsBlocks m m' :=
  ⟨h.refs, h.blocks, fun a c hc => ⟨c, h.entries a c hc, rfl⟩⟩

/-- A new cell leaves the cells of a heap alone. -/
theorem cells_set_fresh {α : Type} {h : Heap α} {new a : Addr} {v w : α}
    (hfree : h.cells new = none) (ha : h.cells a = some v) : (h.set new w).cells a = some v := by
  have hne : a ≠ new := by
    rintro rfl
    rw [hfree] at ha
    cases ha
  rw [Heap.cells_set_ne h hne]
  exact ha

theorem eidList_nil (h : Heap EidRef) : EidList h none [] := rfl

theorem EidList.mono {h h' : Heap EidRef} {es : List CStr}
    (hkeep : ∀ a r, h.cells a = some r → h'.cells a = some r) (hlist : EidList h p es) :
    EidList h' p es := by
  induction es generalizing p with
  | nil => exact hlist
  | cons e es ih =>
      obtain ⟨a, r, hp, hr, he, hrest⟩ := hlist
      exact ⟨a, r, hp, hkeep a r hr, he, ih hrest⟩

theorem BlockAt.mono {a : Addr} {x : Block} (hkeep : KeepsBlocks m m') (hx : BlockAt m a x) :
    BlockAt m' a x := by
  obtain ⟨refs, hcell, hlist⟩ := hx
  exact ⟨refs, hkeep.blocks a _ hcell, hlist.mono hkeep.refs⟩

theorem EntryAt.mono {e : Addr} {y : Addr × Block} (hkeep : KeepsBlocks m m')
    (hy : EntryAt m e y) : EntryAt m' e y := by
  obtain ⟨c, hcell, hdata, hblock⟩ := hy
  obtain ⟨c', hcell', hdata'⟩ := hkeep.entries e c hcell
  exact ⟨c', hcell', hdata'.trans hdata, hblock.mono hkeep⟩

theorem Holds.mono (hkeep : Keeps m m') (hl : Holds m p l) : Holds m' p l := by
  obtain ⟨es, hseg, hentries⟩ := hl
  refine ⟨es, hseg.frame fun a _ c hc => ⟨c, hkeep.entries a c hc, rfl⟩, ?_⟩
  exact hentries.imp fun _ _ hy => hy.mono hkeep.keepsBlocks

/-! ## Memory holds one list -/

theorem EidList.unique {h : Heap EidRef} {es fs : List CStr} (hes : EidList h p es)
    (hfs : EidList h p fs) : es = fs := by
  induction es generalizing p fs with
  | nil =>
      obtain rfl : p = none := hes
      cases fs with
      | nil => rfl
      | cons f fs =>
          obtain ⟨a, _, hp, _⟩ := hfs
          cases hp
  | cons e es ih =>
      obtain ⟨a, r, rfl, hr, rfl, hrest⟩ := hes
      cases fs with
      | nil => exact absurd hfs (Option.some_ne_none a)
      | cons f fs =>
          obtain ⟨a', r', hp, hr', rfl, hrest'⟩ := hfs
          obtain rfl := Option.some.inj hp
          obtain rfl := Option.some.inj (hr.symm.trans hr')
          rw [ih hrest hrest']

theorem BlockAt.unique {a : Addr} {x y : Block} (hx : BlockAt m a x) (hy : BlockAt m a y) :
    x = y := by
  obtain ⟨refs, hcell, hlist⟩ := hx
  obtain ⟨refs', hcell', hlist'⟩ := hy
  have hsame := Option.some.inj (hcell.symm.trans hcell')
  obtain ⟨⟨number, flags, data, eidRefs, crcType⟩, type⟩ := x
  obtain ⟨⟨number', flags', data', eidRefs', crcType'⟩, type'⟩ := y
  simp only [BlockCell.mk.injEq] at hsame
  obtain ⟨rfl, rfl, rfl, rfl, rfl, rfl⟩ := hsame
  obtain rfl : eidRefs = eidRefs' := hlist.unique hlist'
  rfl

theorem EntryAt.unique {e : Addr} {y z : Addr × Block} (hy : EntryAt m e y)
    (hz : EntryAt m e z) : y = z := by
  obtain ⟨c, hcell, hdata, hblock⟩ := hy
  obtain ⟨c', hcell', hdata', hblock'⟩ := hz
  obtain rfl := Option.some.inj (hcell.symm.trans hcell')
  have haddr : y.1 = z.1 := Option.some.inj (hdata.symm.trans hdata')
  exact Prod.ext haddr (hblock.unique (haddr ▸ hblock'))

theorem Holds.unique (hl : Holds m p l) (hl' : Holds m p l') : l = l' := by
  obtain ⟨es, hseg, hentries⟩ := hl
  obtain ⟨es', hseg', hentries'⟩ := hl'
  obtain rfl := hseg.unique hseg'
  clear hseg hseg'
  induction hentries generalizing l' with
  | nil =>
      cases hentries'
      rfl
  | cons hy _ ih =>
      cases hentries' with
      | cons hz hrest => rw [hy.unique hz, ih hrest]

/-- A pointer to a list is `NULL` only for the empty list. -/
theorem Holds.cons_inv {y : Addr × Block} (hl : Holds m p (y :: l)) :
    ∃ e c, p = some e ∧ m.entries.cells e = some c ∧ c.data = some y.1 ∧ BlockAt m y.1 y.2 := by
  obtain ⟨es, hseg, hentries⟩ := hl
  cases hentries with
  | cons hy _ =>
      obtain ⟨c, hcell, hdata, hblock⟩ := hy
      exact ⟨_, c, hseg.1, hcell, hdata, hblock⟩

theorem Holds.nil_inv (hl : Holds m p []) : p = none := by
  obtain ⟨es, hseg, hentries⟩ := hl
  cases hentries
  exact hseg

/-- Two occurrences of a block in a list are the same. -/
theorem Holds.blockAt (hl : Holds m p l) {y : Addr × Block} (hy : y ∈ l) : BlockAt m y.1 y.2 := by
  obtain ⟨es, _, hentries⟩ := hl
  obtain ⟨i, hi, rfl⟩ := List.getElem_of_mem hy
  obtain ⟨_, _, _, hblock⟩ := hentries.get (hentries.length_eq ▸ hi) hi
  exact hblock

/-! ## Copying one block -/

/-- **The references**: those that are left come in reverse order before those copied already. -/
theorem dupRefs_spec {cur refs : Ptr} {es fs : List CStr} (hcur : EidList m.refs cur es)
    (hrefs : EidList m.refs refs fs) :
    ∃ m' p, (∀ fuel, es.length < fuel → m.dupRefs A fuel cur refs = .ok (m', p)) ∧
      EidList m'.refs p (es.reverse ++ fs) ∧
      (∀ a r, m.refs.cells a = some r → m'.refs.cells a = some r) ∧
      m'.blocks = m.blocks ∧ m'.entries = m.entries := by
  induction es generalizing m cur refs fs with
  | nil =>
      obtain rfl : cur = none := hcur
      refine ⟨m, refs, fun fuel hfuel => ?_, hrefs, fun _ _ h => h, rfl, rfl⟩
      obtain ⟨fuel, rfl⟩ := Nat.exists_eq_add_of_lt hfuel
      rfl
  | cons e es ih =>
      obtain ⟨a, r, rfl, hr, rfl, hrest⟩ := hcur
      have hkeep : ∀ x v, m.refs.cells x = some v →
          (m.refs.set (A.ref m) ⟨r.eid, refs⟩).cells x = some v :=
        fun _ _ hx => cells_set_fresh (A.ref_fresh m) hx
      have hnew : EidList (m.refs.set (A.ref m) ⟨r.eid, refs⟩) (some (A.ref m)) (r.eid :: fs) :=
        ⟨A.ref m, _, rfl, Heap.cells_set_self _ _ _, rfl, hrefs.mono hkeep⟩
      obtain ⟨m', q, hrun, hlist, hkept, hblocks, hentries⟩ :=
        ih (m := { m with refs := m.refs.set (A.ref m) ⟨r.eid, refs⟩ }) (hrest.mono hkeep) hnew
      refine ⟨m', q, fun fuel hfuel => ?_, ?_, fun x v hx => hkept x v (hkeep x v hx), hblocks,
        hentries⟩
      · obtain ⟨fuel, rfl⟩ := Nat.exists_eq_succ_of_ne_zero (Nat.ne_zero_of_lt hfuel)
        rw [Memory.dupRefs, Heap.load_cell hr, ok_bind]
        exact hrun fuel (Nat.lt_of_succ_lt_succ hfuel)
      · rw [List.reverse_cons, List.append_assoc]
        exact hlist

/-- **One block**: the copy has the references in reverse order. -/
theorem bundleBlockDup_spec {a : Addr} {x : Block} (hx : BlockAt m a x) :
    ∃ m' dup, (∀ fuel, x.eidRefs.length < fuel →
        m.bundleBlockDup A fuel (some a) = .ok (m', dup)) ∧
      BlockAt m' dup (bundleBlockDup x) ∧ m.blocks.cells dup = none ∧ Keeps m m' ∧
      m'.entries = m.entries := by
  obtain ⟨refs, hcell, hlist⟩ := hx
  have hfresh := A.block_fresh m
  obtain ⟨m', p, hrun, hcopy, hkept, hblocks, hentries⟩ :=
    dupRefs_spec (A := A)
      (m := ⟨m.refs, m.blocks.set (A.block m)
        ⟨x.type, x.number, x.flags, x.data, none, x.crcType⟩, m.entries⟩)
      hlist (eidList_nil _)
  refine ⟨{ m' with
      blocks := m'.blocks.set (A.block m) ⟨x.type, x.number, x.flags, x.data, p, x.crcType⟩ },
    A.block m, fun fuel hfuel => ?_, ⟨p, Heap.cells_set_self _ _ _, ?_⟩, hfresh,
    ⟨hkept, fun y c hc => ?_, ?_⟩, hentries⟩
  · unfold Memory.bundleBlockDup
    rw [Option.isSome_some, assertC_true, ok_bind, Heap.load_cell hcell, ok_bind]
    dsimp only
    rw [hrun fuel hfuel]
    rfl
  · rw [List.append_nil] at hcopy
    exact hcopy
  · have hne : y ≠ A.block m := by
      rintro rfl
      rw [hfresh] at hc
      cases hc
    rw [Heap.cells_set_ne _ hne, hblocks, Heap.cells_set_ne _ hne]
    exact hc
  · rw [hentries]
    exact fun _ _ h => h

/-- **One entry.** -/
theorem bundleBlockEntryDup_spec {e : Addr} {y : Addr × Block} (hy : EntryAt m e y) :
    ∃ m' new dup, (∀ fuel, y.2.eidRefs.length < fuel →
        m.bundleBlockEntryDup A fuel e = .ok (m', new)) ∧
      m'.entries.cells new = some ⟨some dup, none⟩ ∧ m.entries.cells new = none ∧
      BlockAt m' dup (bundleBlockDup y.2) ∧ m.blocks.cells dup = none ∧ Keeps m m' := by
  obtain ⟨c, hcell, hdata, hblock⟩ := hy
  obtain ⟨m₁, dup, hrun, hcopy, hfree, hkeep, hentries⟩ := bundleBlockDup_spec (A := A) hblock
  have hfresh := A.entry_fresh m₁
  have hkeep' : Keeps m₁ { m₁ with entries := m₁.entries.set (A.entry m₁) ⟨some dup, none⟩ } :=
    ⟨fun _ _ h => h, fun _ _ h => h, fun _ _ h => cells_set_fresh hfresh h⟩
  refine ⟨_, A.entry m₁, dup, fun fuel hfuel => ?_, Heap.cells_set_self _ _ _, ?_,
    hcopy.mono hkeep'.keepsBlocks, hfree,
    ⟨hkeep.refs, hkeep.blocks, fun a v hv => hkeep'.entries a v (hkeep.entries a v hv)⟩⟩
  · unfold Memory.bundleBlockEntryDup
    rw [Heap.load_cell hcell, ok_bind, hdata, hrun fuel hfuel]
    rfl
  · rw [← hentries]
    exact hfresh

/-! ## Copying a list -/

/-- The loop of `bundle_block_list_dup` has copied some blocks: the new entries are a list whose last
link is written next, and they are none of the entries that were in memory before. -/
structure Copied (m₀ m : Memory) (dup cur : Ptr) (l' : List (Addr × Block)) : Prop where
  built : ∃ es, IsSeg m.entries BlockEntry.next dup es none ∧ List.Forall₂ (EntryAt m) es l' ∧
    cur = es.getLast? ∧ ∀ e ∈ es, m₀.entries.cells e = none
  keeps : Keeps m₀ m
  fresh : ∀ y ∈ l', m₀.blocks.cells y.1 = none
  distinct : (l'.map Prod.fst).Nodup

theorem Copied.init (m : Memory) : Copied m m none none [] :=
  ⟨⟨[], rfl, .nil, rfl, nofun⟩, .refl m, nofun, List.nodup_nil⟩

/-- The blocks copied so far are live. -/
theorem Copied.live {dup cur : Ptr} (h : Copied m₀ m dup cur l') {y : Addr × Block}
    (hy : y ∈ l') : ∃ c, m.blocks.cells y.1 = some c := by
  obtain ⟨es, _, hentries, _⟩ := h.built
  obtain ⟨i, hi, rfl⟩ := List.getElem_of_mem hy
  obtain ⟨_, _, _, _, hcell, _⟩ := hentries.get (hentries.length_eq ▸ hi) hi
  exact ⟨_, hcell⟩

/-- A new link of an entry. -/
def Memory.setNext (m : Memory) (a : Addr) (c : BlockEntry) (next : Ptr) : Memory :=
  { m with entries := m.entries.set a { c with next } }

theorem link_some {last new : Addr} {c : BlockEntry} (hc : m.entries.cells last = some c)
    (dup : Ptr) : m.link dup new (some last) = .ok (m.setNext last c (some new), dup) := by
  rw [Memory.link, Heap.modify_cell hc]
  rfl

theorem keepsBlocks_setNext {a : Addr} {c : BlockEntry} (hc : m.entries.cells a = some c)
    (next : Ptr) : KeepsBlocks m (m.setNext a c next) := by
  refine ⟨fun _ _ h => h, fun _ _ h => h, fun x v hv => ?_⟩
  by_cases hx : x = a
  · rw [hx, hc] at hv
    obtain rfl := Option.some.inj hv
    exact ⟨{ c with next }, by rw [hx]; exact Heap.cells_set_self _ _ _, rfl⟩
  · exact ⟨v, (Heap.cells_set_ne _ hx _).trans hv, rfl⟩

/-- A new link of an entry that was not in memory before. -/
theorem Keeps.setNext {a : Addr} (h : Keeps m₀ m) (hfree : m₀.entries.cells a = none)
    (c : BlockEntry) (next : Ptr) : Keeps m₀ (m.setNext a c next) := by
  refine ⟨h.refs, h.blocks, fun x v hv => ?_⟩
  have hx : x ≠ a := by
    rintro rfl
    rw [hfree] at hv
    cases hv
  exact (Heap.cells_set_ne _ hx _).trans (h.entries x v hv)

/-- **One step of the loop.** -/
theorem Copied.step {dup cur : Ptr} {e : Addr} {y : Addr × Block}
    (h : Copied m₀ m dup cur l') (hy : EntryAt m₀ e y) :
    ∃ m₁ new m' dup' a, (∀ limit, y.2.eidRefs.length < limit →
        m.bundleBlockEntryDup A limit e = .ok (m₁, new)) ∧
      m₁.link dup new cur = .ok (m', dup') ∧
      Copied m₀ m' dup' (some new) (l' ++ [(a, bundleBlockDup y.2)]) := by
  obtain ⟨m₁, new, a, hrun, hnew, hnewFree, hcopy, hfree, hkeep⟩ :=
    bundleBlockEntryDup_spec (A := A) (hy.mono h.keeps.keepsBlocks)
  obtain ⟨es, hseg, hentries, hcur, hes⟩ := h.built
  have hseg₁ : IsSeg m₁.entries BlockEntry.next dup es none :=
    hseg.frame fun x _ c hc => ⟨c, hkeep.entries x c hc, rfl⟩
  have hkeep₀ : Keeps m₀ m₁ := h.keeps.trans hkeep
  have hes' : ∀ x ∈ es ++ [new], m₀.entries.cells x = none := by
    intro x hx
    rcases List.mem_append.mp hx with hx | hx
    · exact hes x hx
    · obtain rfl := List.mem_singleton.mp hx
      exact free_of_keep h.keeps.entries hnewFree
  have hfresh : ∀ z ∈ l' ++ [(a, bundleBlockDup y.2)], m₀.blocks.cells z.1 = none := by
    intro z hz
    rcases List.mem_append.mp hz with hz | hz
    · exact h.fresh z hz
    · obtain rfl := List.mem_singleton.mp hz
      exact free_of_keep h.keeps.blocks hfree
  have hdistinct : ((l' ++ [(a, bundleBlockDup y.2)]).map Prod.fst).Nodup := by
    rw [List.map_append, List.map_singleton]
    refine List.Nodup.append h.distinct (List.nodup_singleton a) fun x hx hxa => ?_
    obtain rfl := List.mem_singleton.mp hxa
    obtain ⟨z, hz, rfl⟩ := List.mem_map.mp hx
    obtain ⟨c, hc⟩ := h.live hz
    rw [hfree] at hc
    cases hc
  rcases List.eq_nil_or_concat' es with rfl | ⟨front, last, rfl⟩
  · -- the first entry
    cases hentries
    obtain rfl : cur = none := hcur
    exact ⟨m₁, new, m₁, some new, a, hrun, rfl, ⟨[new], ⟨rfl, _, hnew, rfl⟩,
      .cons ⟨_, hnew, rfl, hcopy⟩ .nil, rfl, hes'⟩, hkeep₀, hfresh, hdistinct⟩
  · -- the link of the last entry
    obtain rfl : cur = some last := by
      rw [hcur, List.getLast?_append_cons, List.getLast?_singleton]
    have hlast := List.mem_append_right front (List.mem_singleton_self last)
    obtain ⟨c, hc⟩ := hseg.live hlast
    have hc₁ := hkeep.entries last c hc
    have hset := keepsBlocks_setNext hc₁ (some new)
    have hnewLast : new ≠ last := by
      rintro rfl
      rw [hnewFree] at hc
      cases hc
    have hlastFront : last ∉ front := fun hmem =>
      (List.nodup_append'.mp hseg.nodup).2.2 hmem (List.mem_singleton_self last)
    have hnew' : (m₁.setNext last c (some new)).entries.cells new = some ⟨some a, none⟩ :=
      (Heap.cells_set_ne _ hnewLast _).trans hnew
    refine ⟨m₁, new, m₁.setNext last c (some new), dup, a, hrun, link_some hc₁ dup,
      ⟨front ++ [last] ++ [new], ?_, ?_, ?_, hes'⟩, hkeep₀.setNext (hes last hlast) c _,
      hfresh, hdistinct⟩
    · exact IsSeg.append.mpr ⟨some new, hseg₁.redirect hlastFront rfl, rfl, _, hnew', rfl⟩
    · refine List.rel_append (hentries.imp fun _ _ hz => (hz.mono hkeep.keepsBlocks).mono hset) ?_
      exact .cons ⟨_, hnew', rfl, hcopy.mono hset⟩ .nil
    · rw [List.getLast?_append_cons, List.getLast?_singleton]

/-- **The loop** copies what is left of the list. -/
theorem dupEntries_spec {dup cur : Ptr} {es : List Addr} (h : Copied m₀ m dup cur l')
    (hseg : IsSeg m₀.entries BlockEntry.next p es none)
    (hentries : List.Forall₂ (EntryAt m₀) es l) :
    ∃ m' dup' cur' copies, (∀ limit fuel, (∀ y ∈ l, y.2.eidRefs.length < limit) →
        l.length < fuel → m.dupEntries A limit fuel dup cur p = .ok (m', dup')) ∧
      Copied m₀ m' dup' cur' (l' ++ copies) ∧
      copies.map Prod.snd = l.map fun y => bundleBlockDup y.2 := by
  induction hentries generalizing m dup cur p l' with
  | nil =>
      obtain rfl : p = none := hseg
      refine ⟨m, dup, cur, [], fun limit fuel _ hfuel => ?_, by rw [List.append_nil]; exact h, rfl⟩
      obtain ⟨fuel, rfl⟩ := Nat.exists_eq_add_of_lt hfuel
      rfl
  | @cons e y es l hy _ ih =>
      obtain ⟨rfl, c, hc, hrest⟩ := hseg
      obtain ⟨m₁, new, m₂, dup₂, a, hdup, hlink, hstep⟩ := h.step (A := A) hy
      obtain ⟨m', dup', cur', copies, hrun, hcopied, hequal⟩ := ih hstep hrest
      refine ⟨m', dup', cur', (a, bundleBlockDup y.2) :: copies, fun limit fuel hlimit hfuel => ?_,
        ?_, ?_⟩
      · obtain ⟨fuel, rfl⟩ := Nat.exists_eq_succ_of_ne_zero (Nat.ne_zero_of_lt hfuel)
        rw [Memory.dupEntries, hdup limit (hlimit y List.mem_cons_self), ok_bind]
        dsimp only
        rw [hlink, ok_bind]
        dsimp only
        rw [Heap.load_cell (hstep.keeps.entries e c hc), ok_bind]
        exact hrun limit fuel (fun z hz => hlimit z (List.mem_cons_of_mem _ hz))
          (Nat.lt_of_succ_lt_succ hfuel)
      · rw [List.append_assoc] at hcopied
        exact hcopied
      · rw [List.map_cons, List.map_cons, hequal]

theorem EndsWith.unique {α : Type} {run : Nat → Except Fault α} {r r' : α} (h : EndsWith run r)
    (h' : EndsWith run r') : r = r' := by
  obtain ⟨n, hn⟩ := h
  obtain ⟨n', hn'⟩ := h'
  have hr := hn (max n n') (Nat.le_max_left _ _)
  rw [hn' (max n n') (Nat.le_max_right _ _)] at hr
  exact (Except.ok.inj hr).symm

/-- A number above all the lengths of the reference lists. -/
theorem exists_limit (l : List (Addr × Block)) : ∃ n, ∀ y ∈ l, y.2.eidRefs.length < n := by
  induction l with
  | nil => exact ⟨0, nofun⟩
  | cons y l ih =>
      obtain ⟨n, hn⟩ := ih
      refine ⟨max n (y.2.eidRefs.length + 1), fun z hz => ?_⟩
      rcases List.mem_cons.mp hz with rfl | hz
      · exact Nat.lt_of_lt_of_le (Nat.lt_succ_self _) (Nat.le_max_right _ _)
      · exact Nat.lt_of_lt_of_le (hn z hz) (Nat.le_max_left _ _)

/-- **`bundle_block_list_dup` refines the copies of the fragmenter**: it always ends, and every copy
has its references in reverse order. -/
theorem bundleBlockListDup_spec (A : Allocator) (hl : Holds m p l) :
    ∃ m' p' l', EndsWith (fun fuel => m.bundleBlockListDup A fuel p) (m', p') ∧
      Holds m' p' l' ∧ l'.map Prod.snd = (l.map Prod.snd).map bundleBlockDup ∧
      (∀ y ∈ l', m.blocks.cells y.1 = none) ∧ (l'.map Prod.fst).Nodup ∧ Keeps m m' := by
  obtain ⟨es, hseg, hentries⟩ := hl
  obtain ⟨m', p', cur', l', hrun, hcopied, hequal⟩ :=
    dupEntries_spec (A := A) (Copied.init m) hseg hentries
  obtain ⟨es', hseg', hentries', _⟩ := hcopied.built
  obtain ⟨n, hn⟩ := exists_limit l
  refine ⟨m', p', l', ⟨n + (l.length + 1), fun fuel hfuel => ?_⟩, ⟨es', hseg', hentries'⟩, ?_,
    hcopied.fresh, hcopied.distinct, hcopied.keeps⟩
  · exact hrun fuel fuel (fun y hy => Nat.lt_of_lt_of_le (hn y hy) (by omega)) (by omega)
  · rw [hequal, List.map_map]
    rfl

/-! ## When the copies are right -/

/-- The references of every block read the same backwards. -/
def RefsSymmetric (l : List (Addr × Block)) : Prop := ∀ y ∈ l, y.2.eidRefs.reverse = y.2.eidRefs

theorem copies_equal_iff (hcopies : l'.map Prod.snd = (l.map Prod.snd).map bundleBlockDup) :
    l'.map Prod.snd = l.map Prod.snd ↔ RefsSymmetric l := by
  rw [hcopies, map_bundleBlockDup_iff, List.forall_mem_map]
  rfl

/-- **`bundle_block_list_dup`** keeps all blocks exactly when no list of references changes in
reverse order. -/
theorem listCopied_iff (A : Allocator) (hl : Holds m p l) :
    ListCopied A m p l ↔ RefsSymmetric l := by
  obtain ⟨m', p', l', hrun, hl', hcopies, hfresh, hdistinct, hkeep⟩ := bundleBlockListDup_spec A hl
  constructor
  · rintro ⟨m₂, p₂, l₂, hrun₂, hl₂, hcopy, _⟩
    obtain ⟨rfl, rfl⟩ := Prod.mk.inj (hrun₂.unique hrun)
    obtain rfl := hl₂.unique hl'
    exact (copies_equal_iff hcopies).mp hcopy.equal
  · intro hsym
    exact ⟨m', p', l', hrun, hl', ⟨(copies_equal_iff hcopies).mpr hsym, hfresh, hdistinct⟩,
      hl.mono hkeep⟩

/-- The search stays at a first block that is not the payload block. -/
theorem searchPayload_stays {y : Addr × Block} (hl : Holds m p (y :: l))
    (htype : y.2.type ≠ blockTypePayload) (dup : BundleCell) (fuel : Nat) :
    m.searchPayload fuel p dup = .error .diverged := by
  obtain ⟨e, c, rfl, hc, hdata, refs, hcell, _⟩ := hl.cons_inv
  induction fuel with
  | zero => rfl
  | succ fuel ih =>
      rw [Memory.searchPayload, Heap.load_cell hc, ok_bind, hdata, Heap.load_cell hcell, ok_bind,
        if_neg htype]
      exact ih

/-- The search finds a payload block in the first place. -/
theorem searchPayload_first {y : Addr × Block} (hl : Holds m p (y :: l))
    (htype : y.2.type = blockTypePayload) (dup : BundleCell) (fuel : Nat) :
    m.searchPayload (fuel + 1) p dup = .ok { dup with payloadBlock := some y.1 } := by
  obtain ⟨e, c, rfl, hc, hdata, refs, hcell, _⟩ := hl.cons_inv
  rw [Memory.searchPayload, Heap.load_cell hc, ok_bind, hdata, Heap.load_cell hcell, ok_bind,
    if_pos htype]
  rfl

/-- **The search** for the payload block ends without blocks or with the first one. -/
theorem endsWith_searchPayload (hl : Holds m p l) (dup r : BundleCell) :
    EndsWith (fun fuel => m.searchPayload fuel p dup) r ↔
      (l = [] ∧ r = dup) ∨ ∃ y, l.head? = some y ∧ y.2.type = blockTypePayload ∧
        r = { dup with payloadBlock := some y.1 } := by
  cases l with
  | nil =>
      obtain rfl := hl.nil_inv
      have hends : EndsWith (fun fuel => m.searchPayload fuel none dup) dup := by
        refine ⟨1, fun fuel hfuel => ?_⟩
        obtain ⟨fuel, rfl⟩ := Nat.exists_eq_add_of_lt hfuel
        rfl
      constructor
      · exact fun h => .inl ⟨rfl, h.unique hends⟩
      · rintro (⟨_, rfl⟩ | ⟨y, hy, _⟩)
        · exact hends
        · cases hy
  | cons y l =>
      have hends : y.2.type = blockTypePayload →
          EndsWith (fun fuel => m.searchPayload fuel p dup)
            { dup with payloadBlock := some y.1 } := by
        intro htype
        refine ⟨1, fun fuel hfuel => ?_⟩
        obtain ⟨fuel, rfl⟩ := Nat.exists_eq_succ_of_ne_zero (Nat.ne_zero_of_lt hfuel)
        exact searchPayload_first hl htype dup fuel
      constructor
      · intro h
        by_cases htype : y.2.type = blockTypePayload
        · exact .inr ⟨y, rfl, htype, h.unique (hends htype)⟩
        · obtain ⟨n, hn⟩ := h
          have hrun := hn n (Nat.le_refl n)
          dsimp only at hrun
          rw [searchPayload_stays hl htype] at hrun
          cases hrun
      · rintro (⟨hnil, _⟩ | ⟨z, hz, htype, rfl⟩)
        · cases hnil
        · obtain rfl := Option.some.inj hz
          exact hends htype

/-- `bundle_dup` after the blocks were copied. -/
theorem endsWith_bundleDup {q : Memory × BundleCell}
    (hrun : EndsWith (fun fuel => m.bundleBlockListDup A fuel b.blocks) (m', p')) :
    EndsWith (fun fuel => m.bundleDup A fuel b) q ↔ ∃ dup, q = (m', dup) ∧
      EndsWith (fun fuel => m'.searchPayload fuel p' { b with blocks := p' }) dup := by
  obtain ⟨n, hn⟩ := hrun
  have hdup : ∀ fuel, n ≤ fuel → m.bundleDup A fuel b =
      (m'.searchPayload fuel p' { b with blocks := p' }).map (m', ·) := by
    intro fuel hfuel
    have hlist : m.bundleBlockListDup A fuel b.blocks = .ok (m', p') := hn fuel hfuel
    unfold Memory.bundleDup
    rw [hlist, ok_bind]
    rfl
  constructor
  · rintro ⟨k, hk⟩
    have hfound : ∀ fuel, max n k ≤ fuel → ∃ dup,
        m'.searchPayload fuel p' { b with blocks := p' } = .ok dup ∧ (m', dup) = q := by
      intro fuel hfuel
      have hq := hk fuel ((Nat.le_max_right n k).trans hfuel)
      dsimp only at hq
      rw [hdup fuel ((Nat.le_max_left n k).trans hfuel)] at hq
      cases hsearch : m'.searchPayload fuel p' { b with blocks := p' } with
      | error f =>
          rw [hsearch] at hq
          cases hq
      | ok dup =>
          rw [hsearch] at hq
          exact ⟨dup, rfl, Except.ok.inj hq⟩
    obtain ⟨dup, _, rfl⟩ := hfound (max n k) (Nat.le_refl _)
    refine ⟨dup, rfl, max n k, fun fuel hfuel => ?_⟩
    obtain ⟨dup', hsearch, hsame⟩ := hfound fuel hfuel
    rw [← (Prod.mk.inj hsame).2]
    exact hsearch
  · rintro ⟨dup, rfl, k, hk⟩
    refine ⟨max n k, fun fuel hfuel => ?_⟩
    have hfound := hk fuel ((Nat.le_max_right n k).trans hfuel)
    dsimp only at hfound ⊢
    rw [hdup fuel ((Nat.le_max_left n k).trans hfuel), hfound]
    rfl

/-- The first copy is the copy of `payload_block` exactly if this is the first block. -/
theorem payloadCopied_first {y z : Addr × Block} (hdistinct : ((z :: l').map Prod.fst).Nodup) :
    PayloadCopied (y :: l) (z :: l') p (some z.1) ↔ p = some y.1 := by
  constructor
  · rintro (⟨_, hnone⟩ | ⟨w, hw, hp, hp'⟩)
    · cases hnone
    · rcases List.mem_cons.mp hw with rfl | hw
      · exact hp
      · have hmem : z.1 ∈ l'.map Prod.fst :=
          Option.some.inj hp' ▸ List.mem_map_of_mem (List.of_mem_zip hw).2
        exact absurd hmem (List.nodup_cons.mp hdistinct).1
  · exact fun hp => .inr ⟨(y, z), List.mem_cons_self, hp, rfl⟩

/-- `payload_block` is a payload block. -/
theorem PayloadSet.type_eq {y : Addr × Block} (h : PayloadSet (y :: l) (some y.1))
    (hl : Holds m p (y :: l)) : y.2.type = blockTypePayload := by
  rcases h with ⟨hnone, _⟩ | ⟨w, hw, htype, hp⟩
  · cases hnone
  · have haddr : y.1 = w.1 := Option.some.inj hp
    rw [(hl.blockAt List.mem_cons_self).unique (haddr ▸ hl.blockAt hw)]
    exact htype

/-- **`bundle_dup`** is right exactly when moreover `payload_block` is the first block. -/
theorem bundleCopied_iff (A : Allocator) (hl : Holds m b.blocks l)
    (hpayload : PayloadSet l b.payloadBlock) :
    BundleCopied A m b l ↔ b.payloadBlock = l.head?.map Prod.fst ∧ RefsSymmetric l := by
  obtain ⟨m', p', l', hrun, hl', hcopies, hfresh, hdistinct, hkeep⟩ := bundleBlockListDup_spec A hl
  have hsearch : BundleCopied A m b l ↔ RefsSymmetric l ∧ ∃ dup : BundleCell,
      EndsWith (fun fuel => m'.searchPayload fuel p' { b with blocks := p' }) dup ∧
      dup.toBundleHeader = b.toBundleHeader ∧ Holds m' dup.blocks l' ∧
      PayloadCopied l l' b.payloadBlock dup.payloadBlock := by
    constructor
    · rintro ⟨m₂, dup, l₂, hends, hheader, hl₂, hcopy, hcopied, _⟩
      obtain ⟨dup', hq, hends'⟩ := (endsWith_bundleDup hrun).mp hends
      obtain ⟨rfl, rfl⟩ := Prod.mk.inj hq
      have hblocks : dup.blocks = p' := by
        rcases (endsWith_searchPayload hl' _ _).mp hends' with ⟨_, rfl⟩ | ⟨_, _, _, rfl⟩ <;> rfl
      obtain rfl := hl₂.unique (hblocks ▸ hl')
      exact ⟨(copies_equal_iff hcopies).mp hcopy.equal, dup, hends', hheader, hl₂, hcopied⟩
    · rintro ⟨hsym, dup, hends, hheader, hblocks, hcopied⟩
      exact ⟨m', dup, l', (endsWith_bundleDup hrun).mpr ⟨dup, rfl, hends⟩, hheader, hblocks,
        ⟨(copies_equal_iff hcopies).mpr hsym, hfresh, hdistinct⟩, hcopied, hl.mono hkeep⟩
  rw [hsearch, and_comm]
  refine and_congr_left fun _ => ?_
  cases l with
  | nil =>
      obtain rfl : l' = [] := by simpa using congrArg List.length hcopies
      have hnone : b.payloadBlock = none := by
        rcases hpayload with ⟨hnone, _⟩ | ⟨y, hy, _⟩
        · exact hnone
        · cases hy
      exact iff_of_true ⟨_, (endsWith_searchPayload hl' _ _).mpr (.inl ⟨rfl, rfl⟩), rfl, hl',
        .inl ⟨hnone, hnone⟩⟩ hnone
  | cons y l =>
      obtain ⟨z, l', rfl⟩ : ∃ z zs, l' = z :: zs := by
        cases l' with
        | nil => simp at hcopies
        | cons z zs => exact ⟨z, zs, rfl⟩
      have htype : z.2.type = y.2.type := by
        rw [(List.cons.inj hcopies).1]
        rfl
      constructor
      · rintro ⟨dup, hends, _, _, hcopied⟩
        rcases (endsWith_searchPayload hl' _ _).mp hends with ⟨hnil, _⟩ | ⟨w, hw, _, rfl⟩
        · cases hnil
        · obtain rfl := Option.some.inj hw
          exact (payloadCopied_first hdistinct).mp hcopied
      · intro hp
        have hfirst : y.2.type = blockTypePayload := by
          rw [hp] at hpayload
          exact hpayload.type_eq hl
        exact ⟨_, (endsWith_searchPayload hl' _ _).mpr (.inr ⟨z, rfl, htype.trans hfirst, rfl⟩),
          rfl, hl', (payloadCopied_first hdistinct).mpr hp⟩

/-- **Deep copies.** -/
theorem deep_copies_iff (A : Allocator) (hl : Holds m b.blocks l)
    (hpayload : PayloadSet l b.payloadBlock) :
    (BundleCopied A m b l ↔ b.payloadBlock = l.head?.map Prod.fst ∧ RefsSymmetric l) ∧
      (ListCopied A m b.blocks l ↔ RefsSymmetric l) :=
  ⟨bundleCopied_iff A hl hpayload, listCopied_iff A hl⟩

/-- Structures are put above all others. -/
def bump : Allocator where
  ref m := m.refs.bound
  block m := m.blocks.bound
  entry m := m.entries.bound
  ref_fresh m := m.refs.free_above _ (Nat.le_refl _)
  block_fresh m := m.blocks.free_above _ (Nat.le_refl _)
  entry_fresh m := m.entries.free_above _ (Nat.le_refl _)

/-- A block without references. -/
def plainBlock (type : UInt32) (number : UInt8) : Block :=
  ⟨⟨number, 0, ⟨[7], Buffer.seven_fits⟩, [], .none⟩, type⟩

/-- Two blocks without references, each with its entry. -/
def twoBlocks (x y : Block) : Memory where
  refs := Heap.empty
  blocks := (Heap.empty.set 0 ⟨x.type, x.number, x.flags, x.data, none, x.crcType⟩).set 1
    ⟨y.type, y.number, y.flags, y.data, none, y.crcType⟩
  entries := (Heap.empty.set 0 ⟨some 0, some 1⟩).set 1 ⟨some 1, none⟩

/-- A bundle of version 7 whose block list begins at the first entry. -/
def bundleOf (payloadBlock : Addr) : BundleCell where
  id := 1
  protocolVersion := 7
  procFlags := 0
  ret := .none
  crcType := .crc32
  destination := some "dtn://c/d".toList
  source := some "dtn://a/b".toList
  reportTo := some "dtn:none".toList
  currentCustodian := none
  creationTimestampMs := 5000
  sequenceNumber := 1
  lifetimeMs := 60000
  crc := 0
  fragmentOffset := 0
  totalAduLength := 0
  primaryBlockLength := 0
  blocks := some 0
  payloadBlock := some payloadBlock

theorem holds_twoBlocks {x y : Block} (hx : x.eidRefs = []) (hy : y.eidRefs = []) :
    Holds (twoBlocks x y) (some 0) [(0, x), (1, y)] := by
  refine ⟨[0, 1], ⟨rfl, _, rfl, rfl, _, rfl, rfl⟩, ?_⟩
  have hfirst : EntryAt (twoBlocks x y) 0 (0, x) := ⟨_, rfl, rfl, none, rfl, by rw [hx]; rfl⟩
  have hsecond : EntryAt (twoBlocks x y) 1 (1, y) := ⟨_, rfl, rfl, none, rfl, by rw [hy]; rfl⟩
  exact .cons hfirst (.cons hsecond .nil)

/-- A bundle whose payload block comes first, and a copy of it. -/
theorem deep_copies_payload_first :
    BundleCopied bump (twoBlocks (plainBlock 1 1) (plainBlock 10 2)) (bundleOf 0)
        [(0, plainBlock 1 1), (1, plainBlock 10 2)] ∧
      ListCopied bump (twoBlocks (plainBlock 1 1) (plainBlock 10 2)) (some 0)
        [(0, plainBlock 1 1), (1, plainBlock 10 2)] := by
  have hsym : RefsSymmetric [(0, plainBlock 1 1), (1, plainBlock 10 2)] := by
    intro y hy
    simp only [List.mem_cons, List.not_mem_nil, or_false] at hy
    rcases hy with rfl | rfl <;> rfl
  have hcopies := deep_copies_iff (b := bundleOf 0) bump
    (holds_twoBlocks (x := plainBlock 1 1) (y := plainBlock 10 2) rfl rfl)
    (.inr ⟨_, List.mem_cons_self, rfl, rfl⟩)
  exact ⟨hcopies.1.mpr ⟨rfl, hsym⟩, hcopies.2.mpr hsym⟩

/-- **A copy that never ends.**  The payload block comes after a hop count block, as in every bundle
of version 7 with extension blocks. -/
theorem copy_diverges : ¬ ∀ A m b l, Holds m b.blocks l → PayloadSet l b.payloadBlock →
    BundleCopied A m b l ∧ ListCopied A m b.blocks l := by
  intro hall
  have hholds := holds_twoBlocks (x := plainBlock 10 2) (y := plainBlock 1 1) rfl rfl
  have hpayload : PayloadSet [(0, plainBlock 10 2), (1, plainBlock 1 1)] (some 1) :=
    .inr ⟨_, List.mem_cons_of_mem _ List.mem_cons_self, rfl, rfl⟩
  have hcopied := (hall bump _ (bundleOf 1) _ hholds hpayload).1
  have hfirst := ((bundleCopied_iff bump hholds hpayload).mp hcopied).1
  exact absurd hfirst (by decide)

end DeepCopies
