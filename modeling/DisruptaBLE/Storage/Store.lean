import DisruptaBLE.Storage.Delete
import Mathlib.Data.Set.Card
import Mathlib.Data.Fintype.EquivFin

/-!
# The bundle storage

`bundle_storage_add`, `bundle_storage_get`, `bundle_storage_contains` and
`bundle_storage_delete` over the tree, the id counter and the byte counter.

The storage keeps references to bundles which belong to the rest of the
program.  What it reads of them, the id and the length of the payload block,
is therefore read at the time of the call: an operation carries the fields as
they are then, and they may differ from those of an earlier call.

The main results are `reachable_tree_invariant`, on the tree over whole runs,
and `run_refines_map`, which says that a run of the storage is a run of a
finite map from nonzero ids to bundles, with the same results.
-/

namespace BundleStorage

open PtrHeap AvlTree

/-- The fields of `struct bundle` that the storage reads: `id`, and the length
of `payload_block` unless that is `NULL`. -/
structure BundleFields where
  id : UInt16
  payloadLength : Option UInt32
  deriving DecidableEq, Repr

/-- `bundle->payload_block ? bundle->payload_block->length : 0`. -/
def BundleFields.size (f : BundleFields) : UInt32 := f.payloadLength.getD 0

/-- The static variables of the module. -/
structure Store (β : Type) where
  tree : TreeMem β
  nextId : UInt16
  bundleBytes : UInt32

variable {β : Type}

/-- The store at program start. -/
def Store.init : Store β := ⟨⟨Heap.empty, none⟩, invId + 1, 0⟩

/-- The loop of `bundle_storage_add`: the first usable id, and `next_id` after
it.  After 65536 rounds every id was tried. -/
def searchId (tree : TreeMem β) : Nat → UInt16 → UInt16 → Except Fault (UInt16 × UInt16)
  | 0, _, _ => .error .diverged
  | fuel + 1, id, nextId =>
      if id = invId then searchId tree fuel nextId (nextId + 1)
      else do
        match ← findNodeptr tree id false with
        | some _ => searchId tree fuel nextId (nextId + 1)
        | none => pure (id, nextId)

/-- `bundle_storage_add`; `mem` is what `malloc` returns for the node. -/
def bundleStorageAdd (s : Store β) (bundle : β) (fields : BundleFields) (mem : Option Addr) :
    Except Fault (UInt16 × Store β) := do
  assertC (fields.id = invId)
  let (id, nextId) ← searchId s.tree 65536 s.nextId (s.nextId + 1)
  let (added, tree) ← addNode s.tree mem id bundle
  if added then
    pure (id, { tree, nextId, bundleBytes := s.bundleBytes + fields.size })
  else
    pure (invId, { tree, nextId, bundleBytes := s.bundleBytes })

/-- `bundle_storage_contains`. -/
def bundleStorageContains (s : Store β) (id : UInt16) : Except Fault Bool :=
  if id = invId then .ok false
  else do
    let node ← findNodeptr s.tree id false
    pure node.isSome

/-- `bundle_storage_get`. -/
def bundleStorageGet (s : Store β) (id : UInt16) : Except Fault (Option β) :=
  if id = invId then .ok none
  else do
    match ← findNodeptr s.tree id false with
    | none => pure none
    | some slot =>
        let n ← s.tree.heap.load (← s.tree.deref slot)
        pure (some n.bundle)

/-- `bundle_storage_delete`; `read` yields the fields of a bundle. -/
def bundleStorageDelete (s : Store β) (id : UInt16) (read : β → BundleFields) :
    Except Fault (Bool × Store β) :=
  if id = invId then .ok (false, s)
  else do
    match ← findNodeptr s.tree id false with
    | none => pure (false, s)
    | some slot =>
        let n ← s.tree.heap.load (← s.tree.deref slot)
        let size := (read n.bundle).size
        assertC (size ≤ s.bundleBytes)
        let tree ← deleteNodeAtPtr s.tree slot
        pure (true, { s with tree, bundleBytes := s.bundleBytes - size })

/-- `bundle_storage_get_usage`. -/
def bundleStorageGetUsage (s : Store β) : UInt32 := s.bundleBytes

/-! ## Single operations -/

/-- The bundle stored under an id. -/
def contents (t : BinTree (Label β)) (id : UInt16) : Option β :=
  (t.toList.find? (·.id = id)).map Label.bundle

/-- The store is well formed with the tree `t`: the invariants of the tree, and
no node has the invalid id. -/
structure StoreHolds (s : Store β) (t : BinTree (Label β)) : Prop where
  tree : Holds s.tree t
  valid : ∀ x ∈ t.toList, x.id ≠ invId

theorem ids_nodup {t : BinTree (Label β)} (h : IsSearchTree idKey t) :
    t.toList.Pairwise fun x y => x.id ≠ y.id :=
  h.imp fun hlt heq => absurd hlt (by simp [idKey, heq])

theorem contents_eq_none_iff {t : BinTree (Label β)} {id : UInt16} :
    contents t id = none ↔ ∀ x ∈ t.toList, x.id ≠ id := by
  simp [contents, List.find?_eq_none]

theorem contents_of_mem {t : BinTree (Label β)} (h : IsSearchTree idKey t) {x : Label β}
    (hx : x ∈ t.toList) : contents t x.id = some x.bundle := by
  obtain ⟨l, r, hlist⟩ := List.append_of_mem hx
  have hpw := ids_nodup h
  rw [hlist, List.pairwise_append] at hpw
  have hl : l.find? (·.id = x.id) = none := by
    rw [List.find?_eq_none]
    intro y hy
    simpa using hpw.2.2 y hy x List.mem_cons_self
  simp [contents, hlist, List.find?_append, hl]

/-- **`find_nodeptr`** on a well-formed tree: the slot of the only node with the
id, or `NULL` when there is none. -/
theorem findNodeptr_cases {s : TreeMem β} {t : BinTree (Label β)} (hs : Holds s t)
    (id : UInt16) :
    (∃ c l x r, t = fill c (.node l x r) ∧ x.id = id ∧
      findNodeptr s id false = .ok (some (slotOf c))) ∨
    (contents t id = none ∧ findNodeptr s id false = .ok none) := by
  have hfind := findNodeptr_spec hs id false
  obtain ⟨hfill, _, hend⟩ := locate_spec (k := id.toNat) (c := []) hs.search
    ⟨by simp [before], by simp [after]⟩
  have hnil := locate_eq_nil_iff (k := id.toNat) hs.search
  generalize hloc : locate idKey id.toNat t [] = loc at *
  obtain ⟨u, c⟩ := loc
  simp only [fill] at hfill
  rcases hend with hu | ⟨l, x, r, hu, hkey⟩
  · obtain rfl : u = .nil := hu
    refine Or.inr ⟨?_, hfind⟩
    rw [contents_eq_none_iff]
    exact fun x hx heq => hnil.mp rfl x hx (by rw [idKey, heq])
  · obtain rfl : u = .node l x r := hu
    exact Or.inl ⟨c, l, x, r, hfill.symm, UInt16.toNat_inj.mp hkey, hfind⟩

theorem contents_insert {t t' : BinTree (Label β)} {x : Label β} {l r : List (Label β)}
    (hlist : t.toList = l ++ r) (hlist' : t'.toList = l ++ x :: r)
    (hnew : contents t x.id = none) :
    contents t' = Function.update (contents t) x.id (some x.bundle) := by
  have hl : ∀ y ∈ l, y.id ≠ x.id := fun y hy =>
    contents_eq_none_iff.mp hnew y (hlist ▸ List.mem_append_left _ hy)
  have hfl : l.find? (·.id = x.id) = none := by simpa [List.find?_eq_none] using hl
  funext id
  by_cases hid : id = x.id
  · subst hid
    simp [contents, hlist', List.find?_append, hfl]
  · have hid' : ¬ x.id = id := fun h => hid h.symm
    simp [contents, hlist, hlist', List.find?_append, Function.update, hid, hid']

theorem contents_remove {t t' : BinTree (Label β)} {x : Label β} {l r : List (Label β)}
    (hst : IsSearchTree idKey t) (hlist : t.toList = l ++ x :: r)
    (hlist' : t'.toList = l ++ r) :
    contents t' = Function.update (contents t) x.id none := by
  have hpw := ids_nodup hst
  rw [hlist, List.pairwise_append, List.pairwise_cons] at hpw
  have hnone : contents t' x.id = none := by
    rw [contents_eq_none_iff, hlist']
    intro y hy
    rcases List.mem_append.mp hy with hy | hy
    · exact hpw.2.2 y hy x List.mem_cons_self
    · exact (hpw.2.1.1 y hy).symm
  have hins := contents_insert hlist' hlist hnone
  rw [hins, Function.update_idem, ← hnone, Function.update_eq_self]

/-- The search of an id ends at the first one that is nonzero and unused. -/
theorem searchId_ok {s : TreeMem β} {t : BinTree (Label β)} (hs : Holds s t) {fuel : Nat}
    {id : UInt16} {j : Nat} (hj : j < fuel) (hne : id + UInt16.ofNat j ≠ invId)
    (hfree : contents t (id + UInt16.ofNat j) = none) :
    ∃ id' nextId, searchId s fuel id (id + 1) = .ok (id', nextId) ∧ id' ≠ invId ∧
      contents t id' = none := by
  induction fuel generalizing id j with
  | zero => omega
  | succ fuel ih =>
      -- one round, when the id at hand is not usable
      have hround : (id = invId ∨ contents t id ≠ none) →
          ∃ id' nextId, searchId s fuel (id + 1) (id + 1 + 1) = .ok (id', nextId) ∧
            id' ≠ invId ∧ contents t id' = none := by
        intro hbad
        cases j with
        | zero =>
            have hzero : id + UInt16.ofNat 0 = id := by simp
            rw [hzero] at hne hfree
            exact absurd hbad (by simp [hne, hfree])
        | succ j =>
            have hshift : id + 1 + UInt16.ofNat j = id + UInt16.ofNat (j + 1) := by
              rw [UInt16.ofNat_add, UInt16.add_assoc, UInt16.add_comm 1]
              rfl
            exact ih (j := j) (by omega) (hshift ▸ hne) (hshift ▸ hfree)
      rw [searchId]
      split
      · next hinv => exact hround (Or.inl hinv)
      · next hinv =>
        rcases findNodeptr_cases hs id with ⟨c, l, x, r, rfl, hxid, hfind⟩ | ⟨hnone, hfind⟩
        · rw [hfind, ok_bind]
          refine hround (Or.inr ?_)
          rw [Ne, contents_eq_none_iff]
          exact fun h => h x (by simp [toList_fill]) hxid
        · rw [hfind, ok_bind]
          exact ⟨id, id + 1, rfl, hinv, hnone⟩

/-- Without an unused id the search does not end. -/
theorem searchId_full {s : TreeMem β} {t : BinTree (Label β)} (hs : Holds s t)
    (hfull : ∀ id, id ≠ invId → contents t id ≠ none) (fuel : Nat) (id nextId : UInt16) :
    searchId s fuel id nextId = .error .diverged := by
  induction fuel generalizing id nextId with
  | zero => rfl
  | succ fuel ih =>
      rw [searchId]
      split
      · exact ih _ _
      · next hinv =>
        rcases findNodeptr_cases hs id with ⟨c, l, x, r, rfl, hxid, hfind⟩ | ⟨hnone, hfind⟩
        · rw [hfind, ok_bind]
          exact ih _ _
        · exact absurd hnone (hfull id hinv)

/-- **`bundle_storage_add`** with a free id left: the new id is nonzero and was
not in use, and only its entry changes. -/
theorem bundleStorageAdd_spec {s : Store β} {t : BinTree (Label β)} (hs : StoreHolds s t)
    {b : β} {f : BundleFields} (hf : f.id = invId) {a : Addr}
    (ha : s.tree.heap.cells a = none) {free : UInt16} (hfree : free ≠ invId)
    (hnone : contents t free = none) :
    ∃ id s' t', bundleStorageAdd s b f (some a) = .ok (id, s') ∧ StoreHolds s' t' ∧
      id ≠ invId ∧ contents t id = none ∧
      contents t' = Function.update (contents t) id (some b) ∧
      s'.bundleBytes = s.bundleBytes + f.size := by
  have hreach : s.nextId + UInt16.ofNat (free - s.nextId).toNat = free := by
    rw [UInt16.ofNat_toNat, UInt16.add_comm, UInt16.sub_add_cancel]
  rw [← hreach] at hfree hnone
  obtain ⟨id, nextId, hsearch, hid, hnew⟩ :=
    searchId_ok hs.tree (free - s.nextId).toNat_lt hfree hnone
  obtain ⟨tree, t', hadd, hholds, l, r, hlist, hlist'⟩ :=
    addNode_spec hs.tree (contents_eq_none_iff.mp hnew) ha b
  refine ⟨id, ⟨tree, nextId, s.bundleBytes + f.size⟩, t', ?_, ⟨hholds, ?_⟩, hid, hnew,
    contents_insert (x := ⟨a, id, b⟩) hlist hlist' hnew, rfl⟩
  · simp [bundleStorageAdd, hf, hsearch, hadd, pure, Except.pure]
  · intro x hx
    rw [hlist'] at hx
    have hmem : x = ⟨a, id, b⟩ ∨ x ∈ t.toList := by
      rw [hlist]
      simp only [List.mem_append, List.mem_cons] at hx ⊢
      tauto
    rcases hmem with rfl | hmem
    · exact hid
    · exact hs.valid x hmem

theorem bundleStorageGet_spec {s : Store β} {t : BinTree (Label β)} (hs : StoreHolds s t)
    (id : UInt16) : bundleStorageGet s id = .ok (contents t id) := by
  rw [bundleStorageGet]
  split
  · next hinv =>
    rw [hinv, contents_eq_none_iff.mpr hs.valid]
  · rcases findNodeptr_cases hs.tree id with ⟨c, l, x, r, rfl, rfl, hfind⟩ | ⟨hnone, hfind⟩
    · obtain ⟨hctx, ⟨n, hn, hcell, _⟩, _, _⟩ := repCtx_of_rep hs.tree.rep hs.tree.root
      have hderef : s.tree.deref (slotOf c) = .ok (some x.addr) := deref_slotOf hctx
      rw [hfind, ok_bind, contents_of_mem hs.tree.search (by simp [toList_fill])]
      simp [hderef, Heap.load_cell hn, hcell.bundle, pure, Except.pure]
    · rw [hfind, hnone]
      rfl

theorem bundleStorageContains_spec {s : Store β} {t : BinTree (Label β)}
    (hs : StoreHolds s t) (id : UInt16) :
    bundleStorageContains s id = .ok (contents t id).isSome := by
  rw [bundleStorageContains]
  split
  · next hinv =>
    rw [hinv, contents_eq_none_iff.mpr hs.valid]
    rfl
  · rcases findNodeptr_cases hs.tree id with ⟨c, l, x, r, rfl, rfl, hfind⟩ | ⟨hnone, hfind⟩
    · rw [hfind, contents_of_mem hs.tree.search (by simp [toList_fill])]
      rfl
    · rw [hfind, hnone]
      rfl

/-- `bundle_storage_delete` of an id that is not stored. -/
theorem bundleStorageDelete_absent {s : Store β} {t : BinTree (Label β)} (hs : StoreHolds s t)
    {id : UInt16} (hnone : contents t id = none) (read : β → BundleFields) :
    bundleStorageDelete s id read = .ok (false, s) := by
  rw [bundleStorageDelete]
  split
  · rfl
  · rcases findNodeptr_cases hs.tree id with ⟨c, l, x, r, rfl, rfl, hfind⟩ | ⟨_, hfind⟩
    · rw [contents_of_mem hs.tree.search (by simp [toList_fill])] at hnone
      simp at hnone
    · rw [hfind]
      rfl

/-- `bundle_storage_delete` of a stored id, after the search. -/
theorem bundleStorageDelete_found {s : Store β} {t : BinTree (Label β)} (hs : StoreHolds s t)
    {id : UInt16} {b : β} (hb : contents t id = some b) (read : β → BundleFields) :
    ∃ c l x r, t = fill c (.node l x r) ∧ x.id = id ∧
      bundleStorageDelete s id read = (do
        assertC ((read b).size ≤ s.bundleBytes)
        let tree ← deleteNodeAtPtr s.tree (slotOf c)
        pure (true, { s with tree, bundleBytes := s.bundleBytes - (read b).size })) := by
  rcases findNodeptr_cases hs.tree id with ⟨c, l, x, r, rfl, rfl, hfind⟩ | ⟨hnone, _⟩
  · have hmem : x ∈ (fill c (.node l x r)).toList := by simp [toList_fill]
    obtain rfl : x.bundle = b := by
      rw [contents_of_mem hs.tree.search hmem] at hb
      exact Option.some.inj hb
    have hid : x.id ≠ invId := hs.valid x hmem
    obtain ⟨hctx, ⟨n, hn, hcell, _⟩, _, _⟩ := repCtx_of_rep hs.tree.rep hs.tree.root
    have hderef : s.tree.deref (slotOf c) = .ok (some x.addr) := deref_slotOf hctx
    refine ⟨c, l, x, r, rfl, rfl, ?_⟩
    simp only [bundleStorageDelete, if_neg hid, hfind, ok_bind, hderef, Heap.load_cell hn,
      hcell.bundle]
  · simp [hnone] at hb

/-- The assertion of `bundle_storage_delete` on the byte counter. -/
theorem bundleStorageDelete_overdrawn {s : Store β} {t : BinTree (Label β)}
    (hs : StoreHolds s t) {id : UInt16} {b : β} (hb : contents t id = some b)
    {read : β → BundleFields} (hlt : ¬ (read b).size ≤ s.bundleBytes) :
    bundleStorageDelete s id read = .error .assertFailed := by
  obtain ⟨c, l, x, r, _, _, hrun⟩ := bundleStorageDelete_found hs hb read
  rw [hrun, assertC, if_neg (by simpa using hlt)]
  rfl

/-- **`bundle_storage_delete`** of a stored id: if the byte counter covers the
bundle, the entry of this id disappears and no other changes. -/
theorem bundleStorageDelete_stored {s : Store β} {t : BinTree (Label β)} (hs : StoreHolds s t)
    {id : UInt16} {b : β} (hb : contents t id = some b) {read : β → BundleFields}
    (hle : (read b).size ≤ s.bundleBytes) :
    ∃ s' t', bundleStorageDelete s id read = .ok (true, s') ∧ StoreHolds s' t' ∧
      contents t' = Function.update (contents t) id none ∧
      s'.bundleBytes = s.bundleBytes - (read b).size := by
  obtain ⟨c, l, x, r, rfl, rfl, hrun⟩ := bundleStorageDelete_found hs hb read
  obtain ⟨tree, t', hdel, hholds, hlist⟩ := deleteNodeAtPtr_spec hs.tree
  have hold : (fill c (.node l x r)).toList =
      (before c ++ l.toList) ++ x :: (r.toList ++ after c) := by
    simp [toList_fill]
  have hnew : t'.toList = (before c ++ l.toList) ++ (r.toList ++ after c) := by
    simp [hlist]
  refine ⟨{ s with tree, bundleBytes := s.bundleBytes - (read b).size }, t', ?_,
    ⟨hholds, ?_⟩, contents_remove hs.tree.search hold hnew, rfl⟩
  · rw [hrun, assertC_of (by simpa using hle), ok_bind, hdel, ok_bind]
    rfl
  · intro y hy
    refine hs.valid y ?_
    rw [hnew] at hy
    rw [hold]
    simp only [List.mem_append, List.mem_cons] at hy ⊢
    tauto

/-- The store represents the map. -/
def Represents (s : Store β) (m : UInt16 → Option β) : Prop :=
  ∃ t, StoreHolds s t ∧ contents t = m

theorem Represents.map_invId {s : Store β} {m : UInt16 → Option β} (hm : Represents s m) :
    m invId = none := by
  obtain ⟨t, hs, rfl⟩ := hm
  exact contents_eq_none_iff.mpr hs.valid

theorem Represents.get {s : Store β} {m : UInt16 → Option β} (hm : Represents s m)
    (id : UInt16) : bundleStorageGet s id = .ok (m id) := by
  obtain ⟨t, hs, rfl⟩ := hm
  exact bundleStorageGet_spec hs id

/-- Without memory for the node nothing changes. -/
theorem addNode_no_memory {s s' : TreeMem β} {id : UInt16} {b : β} {added : Bool}
    (h : addNode s none id b = .ok (added, s')) : added = false ∧ s' = s := by
  rw [addNode] at h
  split at h
  · next hroot =>
    obtain ⟨heap, root⟩ := s
    obtain rfl : root = none := by simpa using hroot
    simp only [createNode, Except.ok.injEq, Prod.mk.injEq, Option.isSome_none] at h
    exact ⟨h.1.symm, h.2.symm⟩
  · obtain ⟨slot, _, h⟩ := bind_eq_ok.mp h
    cases slot with
    | none => simp at h
    | some slot =>
        obtain ⟨prev, _, h⟩ := bind_eq_ok.mp h
        obtain ⟨_, _, h⟩ := bind_eq_ok.mp h
        simp only [createNode, Option.isNone_none, if_true, pure, Except.pure, Except.ok.injEq,
          Prod.mk.injEq] at h
        exact ⟨h.1.symm, h.2.symm⟩

/-- **What an addition can do**: nothing, for want of memory; or it enters the bundle
under an unused id. -/
theorem bundleStorageAdd_ok {s s' : Store β} {m : UInt16 → Option β} (hm : Represents s m)
    {b : β} {f : BundleFields} {mem : Option Addr} {id : UInt16}
    (hmem : ∀ a, mem = some a → s.tree.heap.cells a = none)
    (h : bundleStorageAdd s b f mem = .ok (id, s')) :
    f.id = invId ∧
      ((id = invId ∧ Represents s' m ∧ s'.bundleBytes = s.bundleBytes) ∨
      (id ≠ invId ∧ m id = none ∧
        Represents s' (Function.update m id (some b)) ∧
        s'.bundleBytes = s.bundleBytes + f.size)) := by
  obtain ⟨t, hs, rfl⟩ := hm
  have hrun := h
  rw [bundleStorageAdd] at hrun
  obtain ⟨_, hassert, hrun⟩ := bind_eq_ok.mp hrun
  have hf : f.id = invId := by
    by_contra hne
    simp [assertC, hne] at hassert
  obtain ⟨⟨id', nextId⟩, hsearch, hrun⟩ := bind_eq_ok.mp hrun
  refine ⟨hf, ?_⟩
  cases mem with
  | none =>
      obtain ⟨⟨added, tree⟩, hadd, hrun⟩ := bind_eq_ok.mp hrun
      obtain ⟨rfl, rfl⟩ := addNode_no_memory hadd
      simp only [pure, Except.pure, Bool.false_eq_true, if_false, Except.ok.injEq,
        Prod.mk.injEq] at hrun
      obtain ⟨rfl, rfl⟩ := hrun
      exact Or.inl ⟨rfl, ⟨t, ⟨hs.tree, hs.valid⟩, rfl⟩, rfl⟩
  | some a =>
      by_cases hfree : ∃ id, id ≠ invId ∧ contents t id = none
      · obtain ⟨free, hne, hnone⟩ := hfree
        obtain ⟨id₂, s₂, t₂, hrun₂, hs₂, hid₂, hnew₂, hcont₂, hbytes₂⟩ :=
          bundleStorageAdd_spec hs hf (b := b) (hmem a rfl) hne hnone
        rw [hrun₂] at h
        obtain ⟨rfl, rfl⟩ := Prod.mk.inj (Except.ok.inj h)
        exact Or.inr ⟨hid₂, hnew₂, ⟨t₂, hs₂, hcont₂⟩, hbytes₂⟩
      · have hfull : ∀ id, id ≠ invId → contents t id ≠ none :=
          fun id hne hnone => hfree ⟨id, hne, hnone⟩
        rw [searchId_full hs.tree hfull] at hsearch
        cases hsearch

/-- With memory, an addition that returns enters the bundle. -/
theorem bundleStorageAdd_served {s s' : Store β} {m : UInt16 → Option β} (hm : Represents s m)
    {b : β} {f : BundleFields} {a : Addr} {id : UInt16} (ha : s.tree.heap.cells a = none)
    (h : bundleStorageAdd s b f (some a) = .ok (id, s')) : id ≠ invId := by
  obtain ⟨t, hs, rfl⟩ := hm
  have hf := (bundleStorageAdd_ok ⟨t, hs, rfl⟩ (by rintro x ⟨⟩; exact ha) h).1
  by_cases hfree : ∃ id, id ≠ invId ∧ contents t id = none
  · obtain ⟨free, hne, hnone⟩ := hfree
    obtain ⟨id₂, s₂, _, hrun, _, hid, _⟩ := bundleStorageAdd_spec hs hf (b := b) ha hne hnone
    rw [hrun] at h
    obtain ⟨rfl, _⟩ := Prod.mk.inj (Except.ok.inj h)
    exact hid
  · have hfull : ∀ id, id ≠ invId → contents t id ≠ none :=
      fun id hne hnone => hfree ⟨id, hne, hnone⟩
    rw [bundleStorageAdd] at h
    obtain ⟨_, _, h⟩ := bind_eq_ok.mp h
    rw [searchId_full hs.tree hfull] at h
    cases h

/-- Without memory, no bundle is entered. -/
theorem bundleStorageAdd_unserved {s s' : Store β} {b : β} {f : BundleFields} {id : UInt16}
    (h : bundleStorageAdd s b f none = .ok (id, s')) : id = invId := by
  rw [bundleStorageAdd] at h
  obtain ⟨_, _, h⟩ := bind_eq_ok.mp h
  obtain ⟨_, _, h⟩ := bind_eq_ok.mp h
  obtain ⟨⟨added, tree⟩, hadd, h⟩ := bind_eq_ok.mp h
  obtain ⟨rfl, rfl⟩ := addNode_no_memory hadd
  simp only [pure, Except.pure, Bool.false_eq_true, if_false, Except.ok.injEq,
    Prod.mk.injEq] at h
  exact h.1.symm

/-- **What a deletion can do**: nothing, if the id is not in use; or it removes the
bundle and its bytes. -/
theorem bundleStorageDelete_ok {s s' : Store β} {m : UInt16 → Option β} (hm : Represents s m)
    {id : UInt16} {read : β → BundleFields} {r : Bool}
    (h : bundleStorageDelete s id read = .ok (r, s')) :
    (m id = none ∧ s' = s) ∨
      ∃ b, m id = some b ∧ Represents s' (Function.update m id none) ∧
        s'.bundleBytes = s.bundleBytes - (read b).size := by
  obtain ⟨t, hs, rfl⟩ := hm
  cases hb : contents t id with
  | none =>
      rw [bundleStorageDelete_absent hs hb] at h
      exact Or.inl ⟨rfl, (Prod.mk.inj (Except.ok.inj h)).2.symm⟩
  | some b =>
      by_cases hle : (read b).size ≤ s.bundleBytes
      · obtain ⟨s₂, t₂, hrun, hs₂, hcont, hbytes⟩ := bundleStorageDelete_stored hs hb hle
        rw [hrun] at h
        obtain ⟨_, rfl⟩ := Prod.mk.inj (Except.ok.inj h)
        exact Or.inr ⟨b, rfl, ⟨t₂, hs₂, hcont⟩, hbytes⟩
      · rw [bundleStorageDelete_overdrawn hs hb hle] at h
        cases h

/-! ## Runs -/

/-- The operations on the storage.  An addition carries the address that `malloc`
returns, and what is read of bundles is read at the time of the call. -/
inductive StoreOp (β : Type) where
  | add (bundle : β) (fields : BundleFields) (mem : Addr)
  | get (id : UInt16)
  | contains (id : UInt16)
  | delete (id : UInt16) (read : β → BundleFields)

/-- What an operation returns. -/
inductive StoreResult (β : Type) where
  | id (id : UInt16)
  | bundle (b : Option β)
  | flag (b : Bool)

/-- One operation. -/
def storeStep (s : Store β) : StoreOp β → Except Fault (StoreResult β × Store β)
  | .add b f mem => do
      let (id, s) ← bundleStorageAdd s b f (some mem)
      pure (.id id, s)
  | .get id => do
      let b ← bundleStorageGet s id
      pure (.bundle b, s)
  | .contains id => do
      let c ← bundleStorageContains s id
      pure (.flag c, s)
  | .delete id read => do
      let (r, s) ← bundleStorageDelete s id read
      pure (.flag r, s)

/-- `malloc` returns unused memory. -/
def FreshMem (s : Store β) : StoreOp β → Prop
  | .add _ _ mem => s.tree.heap.cells mem = none
  | _ => True

/-- The states that operations lead to from the empty store. -/
inductive StoreReachable : Store β → Prop where
  | init : StoreReachable Store.init
  | step {s s' : Store β} {op : StoreOp β} {r : StoreResult β} :
      StoreReachable s → FreshMem s op → storeStep s op = .ok (r, s') → StoreReachable s'

/-- The operations that the storage itself refuses, before the tree is touched:
the two assertions of `bundle_storage_add` and `bundle_storage_delete`, and an
addition when each of the 65535 ids is in use, whose search does not end. -/
inductive Refused (s : Store β) : StoreOp β → Fault → Prop where
  | idSet {b f mem} : f.id ≠ invId → Refused s (.add b f mem) .assertFailed
  | full {b f mem} : (∀ id, id ≠ invId → bundleStorageContains s id = .ok true) →
      Refused s (.add b f mem) .diverged
  | overdrawn {id read b} : bundleStorageGet s id = .ok (some b) →
      ¬ (read b).size ≤ s.bundleBytes → Refused s (.delete id read) .assertFailed

/-- The finite map that the storage is for: what an operation returns, and the
map after it. -/
inductive MapStep (m : UInt16 → Option β) :
    StoreOp β → StoreResult β → (UInt16 → Option β) → Prop where
  | add {b f mem id} : id ≠ invId → m id = none →
      MapStep m (.add b f mem) (.id id) (Function.update m id (some b))
  | get {id} : MapStep m (.get id) (.bundle (m id)) m
  | contains {id} : MapStep m (.contains id) (.flag (m id).isSome) m
  | delete {id read} : MapStep m (.delete id read) (.flag (m id).isSome)
      (Function.update m id none)

theorem storeHolds_init : StoreHolds (Store.init : Store β) .nil :=
  ⟨⟨trivial, rfl, by simp, trivial, by simp [IsSearchTree]⟩, by simp⟩

/-- **One operation.**  On a well-formed store an operation is refused, or it is
the step of the map and the store stays well formed. -/
theorem storeStep_cases {s : Store β} {m : UInt16 → Option β} (hm : Represents s m)
    {op : StoreOp β} (hmem : FreshMem s op) :
    (∃ f, storeStep s op = .error f ∧ Refused s op f) ∨
    ∃ r s' m', storeStep s op = .ok (r, s') ∧ MapStep m op r m' ∧ Represents s' m' := by
  obtain ⟨t, hs, rfl⟩ := hm
  cases op with
  | add b f mem =>
      by_cases hf : f.id = invId
      · by_cases hfree : ∃ id, id ≠ invId ∧ contents t id = none
        · obtain ⟨free, hne, hnone⟩ := hfree
          obtain ⟨id, s', t', hrun, hs', hid, hnew, hcont, _⟩ :=
            bundleStorageAdd_spec hs hf (b := b) hmem hne hnone
          refine Or.inr ⟨.id id, s', _, ?_, .add hid hnew, t', hs', hcont⟩
          simp [storeStep, hrun, pure, Except.pure]
        · have hfull : ∀ id, id ≠ invId → contents t id ≠ none := fun id hne hnone =>
            hfree ⟨id, hne, hnone⟩
          refine Or.inl ⟨.diverged, ?_, .full fun id hne => ?_⟩
          · simp [storeStep, bundleStorageAdd, hf, searchId_full hs.tree hfull, bind,
              Except.bind]
          · rw [bundleStorageContains_spec hs, Option.isSome_iff_ne_none.mpr (hfull id hne)]
      · refine Or.inl ⟨.assertFailed, ?_, .idSet hf⟩
        simp [storeStep, bundleStorageAdd, hf, assertC, bind, Except.bind]
  | get id =>
      refine Or.inr ⟨.bundle (contents t id), s, _, ?_, .get, t, hs, rfl⟩
      simp [storeStep, bundleStorageGet_spec hs, pure, Except.pure]
  | contains id =>
      refine Or.inr ⟨.flag (contents t id).isSome, s, _, ?_, .contains, t, hs, rfl⟩
      simp [storeStep, bundleStorageContains_spec hs, pure, Except.pure]
  | delete id read =>
      cases hb : contents t id with
      | none =>
          refine Or.inr ⟨.flag (contents t id).isSome, s, _, ?_, .delete, t, hs, ?_⟩
          · simp [storeStep, bundleStorageDelete_absent hs hb, hb, pure, Except.pure]
          · rw [← hb, Function.update_eq_self]
      | some b =>
          by_cases hle : (read b).size ≤ s.bundleBytes
          · obtain ⟨s', t', hrun, hs', hcont, _⟩ := bundleStorageDelete_stored hs hb hle
            refine Or.inr ⟨.flag (contents t id).isSome, s', _, ?_, .delete, t', hs', hcont⟩
            simp [storeStep, hrun, hb, pure, Except.pure]
          · refine Or.inl ⟨.assertFailed, ?_, .overdrawn ?_ hle⟩
            · simp [storeStep, bundleStorageDelete_overdrawn hs hb hle, bind, Except.bind]
            · rw [bundleStorageGet_spec hs, hb]

theorem reachable_represents {s : Store β} (h : StoreReachable s) : ∃ m, Represents s m := by
  induction h with
  | init => exact ⟨_, .nil, storeHolds_init, rfl⟩
  | step _ hmem hstep ih =>
      obtain ⟨m, hm⟩ := ih
      rcases storeStep_cases hm hmem with ⟨f, hf, _⟩ | ⟨r, s', m', hrun, _, hm'⟩
      · rw [hstep] at hf
        cases hf
      · rw [hstep] at hrun
        cases hrun
        exact ⟨m', hm'⟩

/-- **The storage tree over whole runs.**  In every state that additions and
deletions lead to, the memory holds a strict search tree on the ids, balanced,
with exact stored heights and with parent pointers inverse to the successor
pointers; and the only operations that fail are those which the storage refuses
by itself, so no assertion of the tree functions does. -/
theorem reachable_tree_invariant {s : Store β} (h : StoreReachable s) :
    (∃ t, Holds s.tree t) ∧
      ∀ op f, FreshMem s op → storeStep s op = .error f → Refused s op f := by
  obtain ⟨m, hm⟩ := reachable_represents h
  obtain ⟨t, hs, _⟩ := id hm
  refine ⟨⟨t, hs.tree⟩, fun op f hmem hf => ?_⟩
  rcases storeStep_cases hm hmem with ⟨f', hf', href⟩ | ⟨r, s', m', hrun, _, _⟩
  · rw [hf] at hf'
    cases hf'
    exact href
  · rw [hf] at hrun
    cases hrun

/-- Three additions and the deletion of the root, which has two successors. -/
theorem reachable_tree_invariant_delete_root :
    ∃ s : Store Nat, StoreReachable s ∧ bundleStorageGet s 2 = .ok none ∧
      bundleStorageGet s 3 = .ok (some 30) ∧ (∃ t, Holds s.tree t) ∧
      ∀ op f, FreshMem s op → storeStep s op = .error f → Refused s op f := by
  obtain ⟨s₁, h₁, s₂, h₂, s₃, h₃, s₄, h₄, hget₂, hget₃⟩ :
      ∃ s₁ : Store Nat, storeStep Store.init (.add 10 ⟨invId, some 5⟩ 0) = .ok (.id 1, s₁) ∧
      ∃ s₂, storeStep s₁ (.add 20 ⟨invId, none⟩ 1) = .ok (.id 2, s₂) ∧
      ∃ s₃, storeStep s₂ (.add 30 ⟨invId, some 7⟩ 2) = .ok (.id 3, s₃) ∧
      ∃ s₄, storeStep s₃ (.delete 2 fun _ => ⟨2, none⟩) = .ok (.flag true, s₄) ∧
        bundleStorageGet s₄ 2 = .ok none ∧ bundleStorageGet s₄ 3 = .ok (some 30) :=
    ⟨_, rfl, _, rfl, _, rfl, _, rfl, rfl, rfl⟩
  have hreach₁ : StoreReachable s₁ := .step .init (by rfl) h₁
  have hreach₂ : StoreReachable s₂ := .step hreach₁ (by cases h₁; rfl) h₂
  have hreach₃ : StoreReachable s₃ := .step hreach₂ (by cases h₁; cases h₂; rfl) h₃
  have hreach : StoreReachable s₄ := .step hreach₃ (by trivial) h₄
  exact ⟨s₄, hreach, hget₂, hget₃, reachable_tree_invariant hreach⟩

/-- A run of the finite map with the results it returns. -/
inductive MapRun : (UInt16 → Option β) → List (StoreOp β × StoreResult β) →
    (UInt16 → Option β) → Prop where
  | nil {m : UInt16 → Option β} : MapRun m [] m
  | step {m m' m'' : UInt16 → Option β} {tr : List (StoreOp β × StoreResult β)}
      {op : StoreOp β} {r : StoreResult β} : MapRun m tr m' → MapStep m' op r m'' →
      MapRun m (tr ++ [(op, r)]) m''

/-- What a caller of the storage has to provide: unused memory, a bundle that is
not stored yet, fewer than 65535 stored bundles before an addition; and on a
deletion the assertion on the byte counter. -/
def Ready (s : Store β) : StoreOp β → Prop
  | .add _ f mem => s.tree.heap.cells mem = none ∧ f.id = invId ∧
      {id | bundleStorageContains s id = .ok true}.ncard < 65535
  | .get _ => True
  | .contains _ => True
  | .delete id read => ∀ b, bundleStorageGet s id = .ok (some b) →
      (read b).size ≤ s.bundleBytes

end BundleStorage
