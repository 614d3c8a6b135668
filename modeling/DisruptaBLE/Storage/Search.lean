import DisruptaBLE.Storage.Rebalance

/-!
# Searching and adding

`Holds s t` collects the invariants of the storage tree: the memory `s` stores
the tree `t`, which is a strict search tree on the bundle ids, height-balanced
and with exact stored heights and parent fields.

`findNodeptr_spec` says which slot `find_nodeptr` returns, and `addNode_spec`
that `add_node` inserts the new id and keeps the invariants.
-/

namespace BundleStorage

open PtrHeap AvlTree

variable {β : Type}

/-- The sort key of a node. -/
def idKey (x : Label β) : Nat := x.id.toNat

/-- **The invariants of the storage tree.** -/
structure Holds (s : TreeMem β) (t : BinTree (Label β)) : Prop where
  rep : Rep s.heap t none
  root : s.storageTree = rootPtr t
  nodup : (addrs t).Nodup
  balanced : t.Balanced
  search : IsSearchTree idKey t

theorem comp_eq_eq {a b : UInt16} : comp a b = .eq ↔ a = b := by
  simp only [comp, UInt16.lt_iff_toNat_lt, ← UInt16.toNat_inj]
  split
  · simp; omega
  · split
    · simp; omega
    · simp; omega

theorem compToSuccessor_left {a b : UInt16} (h : a.toNat < b.toNat) :
    compToSuccessor (comp a b) = .left := by
  simp [comp, compToSuccessor, UInt16.lt_iff_toNat_lt, h]

theorem compToSuccessor_right {a b : UInt16} (h : b.toNat < a.toNat) :
    compToSuccessor (comp a b) = .right := by
  have hn : ¬ a.toNat < b.toNat := by omega
  simp [comp, compToSuccessor, UInt16.lt_iff_toNat_lt, h, hn]

/-- Distinct 16-bit ids bound the number of nodes. -/
theorem length_le_of_isSearchTree {t : BinTree (Label β)} (h : IsSearchTree idKey t) :
    t.toList.length ≤ 65536 := by
  have hnd : (t.toList.map idKey).Nodup := by
    rw [List.Nodup, List.pairwise_map]
    exact h.imp fun hlt => Nat.ne_of_lt hlt
  have hsub : (t.toList.map idKey).toFinset ⊆ Finset.range 65536 := by
    intro k hk
    obtain ⟨x, _, rfl⟩ := List.mem_map.mp (List.mem_toFinset.mp hk)
    exact Finset.mem_range.mpr x.id.toNat_lt
  have hcard := Finset.card_le_card hsub
  rwa [List.toFinset_card_of_nodup hnd, List.length_map, Finset.card_range] at hcard

theorem length_le_bound {s : TreeMem β} {t : BinTree (Label β)} (hs : Holds s t) :
    t.toList.length ≤ s.heap.bound := by
  have := Heap.length_le_bound_of_nodup hs.nodup hs.rep.repTop.live
  rwa [addrs, List.length_map] at this

theorem height_le_length (t : BinTree (Label β)) : t.height ≤ t.toList.length := by
  induction t with
  | nil => simp
  | node l x r ihl ihr =>
      rw [BinTree.height_node, BinTree.toList_node, List.length_append, List.length_cons]
      omega

/-- The slot in which the search of an id ends. -/
def foundSlot (insert : Bool) : BinTree (Label β) × List (Frame (Label β)) → Option Slot
  | (.nil, c) => if insert then parentSlot c else none
  | (.node _ _ _, c) => some (slotOf c)

/-- The loop of `find_nodeptr` follows `locate`. -/
theorem findLoop_spec {s : TreeMem β} {id : UInt16} {insert : Bool} {t : BinTree (Label β)}
    {c : List (Frame (Label β))} {fuel : Nat} (hfuel : t.height ≤ fuel) (hne : t ≠ .nil)
    (hctx : RepCtx s c (rootPtr t)) (ht : Rep s.heap t (ctxParent c)) :
    findLoop s id insert fuel (slotOf c) =
      .ok (foundSlot insert (locate idKey id.toNat t c)) := by
  induction t generalizing c fuel with
  | nil => exact absurd rfl hne
  | node l x r ihl ihr =>
      rw [BinTree.height_node] at hfuel
      obtain ⟨fuel, rfl⟩ : ∃ k, fuel = k + 1 := ⟨fuel - 1, by omega⟩
      obtain ⟨⟨n, hn, hcell, _⟩, hl, hr⟩ := ht
      -- one step of the descent, to the child on side `d`
      have hstep : ∀ (d : Side) (u v : BinTree (Label β)),
          Cell n x (ctxParent c) d (rootPtr u) (rootPtr v) →
          comp id n.id ≠ .eq → compToSuccessor (comp id n.id) = d →
          (u ≠ .nil → findLoop s id insert fuel (slotOf (⟨d, x, v⟩ :: c)) =
            .ok (foundSlot insert (locate idKey id.toNat u (⟨d, x, v⟩ :: c)))) →
          findLoop s id insert (fuel + 1) (slotOf c) =
            .ok (foundSlot insert (locate idKey id.toNat u (⟨d, x, v⟩ :: c))) := by
        intro d u v hc hcmp hside hih
        have hderef : s.deref (.successor x.addr d) = .ok (rootPtr u) := by
          simp [TreeMem.deref, Heap.load_cell hn, hc.near, pure, Except.pure]
        simp only [findLoop, deref_slotOf hctx, ok_bind, rootPtr, Heap.load_cell hn, hside,
          if_neg hcmp, hderef]
        cases u with
        | nil => simp [locate, foundSlot, parentSlot, pure, Except.pure]
        | node u₁ y u₂ => exact hih (by simp)
      rw [locate]
      split
      · next hlt =>
        have hlt' : id.toNat < n.id.toNat := by rw [hcell.id]; exact hlt
        refine hstep .left l r hcell ?_ (compToSuccessor_left hlt') ?_
        · rw [Ne, comp_eq_eq]; rintro rfl; exact absurd hlt' (Nat.lt_irrefl _)
        · intro hne'
          exact ihl (by omega) hne' ⟨⟨n, hn, hcell⟩, hr, hctx⟩ hl
      · split
        · next _ hgt =>
          have hgt' : n.id.toNat < id.toNat := by rw [hcell.id]; exact hgt
          refine hstep .right r l hcell.mirror ?_ (compToSuccessor_right hgt') ?_
          · rw [Ne, comp_eq_eq]; rintro rfl; exact absurd hgt' (Nat.lt_irrefl _)
          · intro hne'
            exact ihr (by omega) hne' ⟨⟨n, hn, hcell.mirror⟩, hl, hctx⟩ hr
        · next hnlt hngt =>
          have heq : comp id n.id = .eq := by
            rw [comp_eq_eq, ← UInt16.toNat_inj, hcell.id]
            simp only [idKey] at hnlt hngt
            omega
          simp [findLoop, deref_slotOf hctx, rootPtr, Heap.load_cell hn, heq, foundSlot, pure,
            Except.pure]

/-- **`find_nodeptr`** returns the slot of the node with the id; if there is
none it returns `NULL`, or on insertion the slot of the parent-to-be. -/
theorem findNodeptr_spec {s : TreeMem β} {t : BinTree (Label β)} (hs : Holds s t)
    (id : UInt16) (insert : Bool) :
    findNodeptr s id insert = .ok (foundSlot insert (locate idKey id.toNat t [])) := by
  cases t with
  | nil =>
      have hroot : s.storageTree = none := hs.root
      cases insert <;> simp [findNodeptr, hroot, locate, foundSlot, parentSlot]
  | node l x r =>
      have hroot : s.storageTree = some x.addr := hs.root
      have hfuel := (height_le_length (.node l x r)).trans (length_le_bound hs)
      rw [findNodeptr, hroot]
      exact findLoop_spec (c := []) hfuel (by simp) hs.root hs.rep

/-- A tree in memory, seen from one of its positions. -/
theorem repCtx_of_rep {s : TreeMem β} {c : List (Frame (Label β))} {t : BinTree (Label β)}
    (hrep : Rep s.heap (fill c t) none) (hroot : s.storageTree = rootPtr (fill c t)) :
    RepCtx s c (rootPtr t) ∧ Rep s.heap t (ctxParent c) := by
  induction c generalizing t with
  | nil => exact ⟨hroot, hrep⟩
  | cons f c ih =>
      obtain ⟨hctx, hfill⟩ := ih (t := f.fill t) hrep hroot
      obtain ⟨⟨n, hn, hcell, _⟩, ht, hsib⟩ := rep_join.mp hfill
      rw [Frame.fill, rootPtr_join] at hctx
      exact ⟨⟨⟨n, hn, hcell⟩, hsib, hctx⟩, ht⟩

/-! ## Adding -/

/-- The labels around a hole and a new label whose id the hole encloses. -/
theorem isSearchTree_insert {x : Label β} {c : List (Frame (Label β))}
    {t t' : BinTree (Label β)} (hst : IsSearchTree idKey t)
    (hlist : t.toList = before c ++ after c) (henc : Encloses idKey (idKey x) c)
    (hlist' : t'.toList = before c ++ x :: after c) : IsSearchTree idKey t' := by
  rw [IsSearchTree, hlist, List.pairwise_append] at hst
  rw [IsSearchTree, hlist', List.pairwise_append, List.pairwise_cons]
  refine ⟨hst.1, ⟨henc.2, hst.2.1⟩, ?_⟩
  intro y hy z hz
  rcases List.mem_cons.mp hz with rfl | hz
  · exact henc.1 y hy
  · exact hst.2.2 y hy z hz

/-- **`add_node`** inserts an id that is not in the tree: no assertion fails, and
the invariants hold again for a tree with exactly one more label. -/
theorem addNode_spec {s : TreeMem β} {t : BinTree (Label β)} (hs : Holds s t) {id : UInt16}
    (hid : ∀ x ∈ t.toList, x.id ≠ id) {a : Addr} (ha : s.heap.cells a = none) (b : β) :
    ∃ s' t', addNode s (some a) id b = .ok (true, s') ∧ Holds s' t' ∧
      ∃ l r, t.toList = l ++ r ∧ t'.toList = l ++ ⟨a, id, b⟩ :: r := by
  have hanew : a ∉ addrs t := by
    intro hmem
    have := hs.rep.repTop.live a hmem
    simp [ha] at this
  obtain ⟨hfill, henc, _⟩ := locate_spec (k := id.toNat) (c := []) hs.search
    ⟨by simp [before], by simp [after]⟩
  have hnil : (locate idKey id.toNat t []).1 = .nil := by
    rw [locate_eq_nil_iff hs.search]
    intro x hx heq
    exact hid x hx (UInt16.toNat_inj.mp heq)
  have hfind := findNodeptr_spec hs id true
  generalize hloc : locate idKey id.toNat t [] = loc at *
  obtain ⟨u, c⟩ := loc
  obtain rfl : u = .nil := hnil
  simp only [fill] at hfill
  let new : Label β := ⟨a, id, b⟩
  let leaf : BinTree (Label β) := .node .nil new .nil
  let cell : Ptr → Node β := fun p =>
    { id := id, successor := fun _ => none, parent := p, bundle := b, height := 1 }
  cases c with
  | nil =>
      -- the tree was empty
      obtain rfl : t = .nil := hfill.symm
      have hroot : s.storageTree = none := hs.root
      refine ⟨⟨s.heap.set a (cell none), some a⟩, leaf, ?_, ?_, [], [], rfl, rfl⟩
      · simp [addNode, hroot, createNode, cell]
      · refine ⟨⟨⟨cell none, by simp [new], ⟨rfl, rfl, rfl, rfl, rfl⟩, by simp [cell]⟩,
          trivial, trivial⟩, rfl, ?_, ?_, ?_⟩
        · simp [addrs, leaf]
        · simp [leaf, BinTree.Balanced]
        · simp [IsSearchTree, leaf]
  | cons f c =>
      have hfill' : fill c (f.fill .nil) = t := hfill
      have hrep := hs.rep
      have hroot := hs.root
      have hbal := hs.balanced
      have hnd := hs.nodup
      rw [← hfill'] at hrep hroot hbal hnd hanew
      obtain ⟨hctx, hprev⟩ := repCtx_of_rep hrep hroot
      rw [Frame.fill, rootPtr_join] at hctx
      obtain ⟨⟨pn, hpn, hpcell, _⟩, _, hsib⟩ := rep_join.mp hprev
      obtain ⟨hndp, hndc, hdisj⟩ := nodup_addrs_fill.mp hnd
      obtain ⟨_, hfsib, _, hndsib, _⟩ := nodup_addrs_join.mp hndp
      have hfmem : f.label.addr ∈ addrs (f.fill .nil) := mem_addrs_join.mpr (Or.inl rfl)
      have hfc : f.label.addr ∉ ctxAddrs c := hdisj _ hfmem
      have hanot : ∀ e, e ∈ addrs (f.fill .nil) ∨ e ∈ ctxAddrs c → e ≠ a := by
        rintro e he rfl
        exact hanew (mem_addrs_fill.mpr he)
      have haf : f.label.addr ≠ a := hanot _ (Or.inl hfmem)
      -- the comparison with the parent picks the empty side
      have hside : compToSuccessor (comp id pn.id) = f.side := by
        rw [hpcell.id]
        cases hd : f.side with
        | left =>
            refine compToSuccessor_left (henc.2 f.label ?_)
            simp [after, hd]
        | right =>
            refine compToSuccessor_right (henc.1 f.label ?_)
            simp [before, hd]
      let h₁ := s.heap.set a (cell (some f.label.addr))
      let h₂ := h₁.set f.label.addr (pn.setSuccessor f.side (some a))
      have hpn₁ : h₁.cells f.label.addr = some pn := by simp [h₁, haf, hpn]
      have hsame : ∀ e, e ≠ a → e ≠ f.label.addr → h₂.cells e = s.heap.cells e := by
        intro e hea hef
        simp [h₁, h₂, hea, hef]
      have hctx₂ : RepCtx { s with heap := h₂ } c (some f.label.addr) :=
        hctx.frame rfl fun e he => hsame e (hanot e (Or.inr he)) fun h => hfc (h ▸ he)
      have hleaf₂ : Rep h₂ leaf (some f.label.addr) :=
        ⟨⟨cell (some f.label.addr), by simp [h₁, h₂, haf.symm, new], ⟨rfl, rfl, rfl, rfl, rfl⟩,
          by simp [cell]⟩, trivial, trivial⟩
      have hsib₂ : Rep h₂ f.sibling (some f.label.addr) := hsib.frame fun e he =>
        hsame e (hanot e (Or.inl (mem_addrs_join.mpr (Or.inr (Or.inr he)))))
          fun h => hfsib (h ▸ he)
      have htop₂ : RepTop h₂ (f.fill leaf) (ctxParent c) := by
        refine repTop_join.mpr ⟨⟨pn.setSuccessor f.side (some a), by simp [h₂], ?_⟩, hleaf₂,
          hsib₂⟩
        refine ⟨hpcell.id, hpcell.bundle, hpcell.parent, by simp [Node.setSuccessor, leaf,
          rootPtr, new], ?_⟩
        simpa [Node.setSuccessor] using hpcell.far
      have hnd₂ : (addrs (fill c (f.fill leaf))).Nodup := by
        have hlist : addrs (fill (f :: c) leaf) =
            (before (f :: c)).map Label.addr ++ a :: (after (f :: c)).map Label.addr := by
          simp [addrs, toList_fill, leaf, new]
        have hold : addrs (fill (f :: c) (.nil : BinTree (Label β))) =
            (before (f :: c)).map Label.addr ++ (after (f :: c)).map Label.addr := by
          simp [addrs, toList_fill]
        have hnd' : (addrs (fill (f :: c) (.nil : BinTree (Label β)))).Nodup := hnd
        have ha' : a ∉ addrs (fill (f :: c) (.nil : BinTree (Label β))) := hanew
        rw [show fill c (f.fill leaf) = fill (f :: c) leaf from rfl, hlist]
        rw [hold] at hnd' ha'
        exact (List.nodup_middle).mpr (List.nodup_cons.mpr ⟨ha', hnd'⟩)
      obtain ⟨hbalp, hfit⟩ := (balanced_fill_iff c (f.fill .nil)).mp hbal
      rw [Frame.fill, BinTree.balanced_join] at hbalp
      obtain ⟨_, hbsib, hle, hge⟩ := hbalp
      rw [Frame.fill, BinTree.height_join] at hfit
      have hleafb : leaf.Balanced := by simp [leaf, BinTree.Balanced]
      have hleafr : leaf.rebalance = leaf := BinTree.rebalance_of_balanced hleafb
      have hleafh : leaf.height = 1 := by simp [leaf]
      have hstep := climb_step (f := f) hbsib hle hge hleafb.nearlyBalanced
        (by rw [hleafr, hleafh]; simp) (by rw [hleafr, hleafh]; simp)
      rw [hleafr] at hstep
      have hlist : (fill c (f.fill leaf)).toList =
          before (f :: c) ++ new :: after (f :: c) := by
        rw [show fill c (f.fill leaf) = fill (f :: c) leaf from rfl, toList_fill]
        simp [leaf]
      have hold : t.toList = before (f :: c) ++ after (f :: c) := by
        rw [← hfill, toList_fill]
        simp
      have hst₂ : IsSearchTree idKey (fill c (f.fill leaf)) :=
        isSearchTree_insert (x := new) hs.search hold henc hlist
      have hfuel : c.length + 2 ≤ h₂.bound + 1 := by
        have hlen := length_toList_fill c (f.fill .nil)
        rw [hfill'] at hlen
        have hpos : 1 ≤ (f.fill (.nil : BinTree (Label β))).toList.length := by
          cases hd : f.side <;> simp [Frame.fill, hd, BinTree.join]
        have hb := length_le_bound hs
        have hb₁ := Heap.bound_le_bound_set s.heap a (cell (some f.label.addr))
        have hb₂ := Heap.bound_le_bound_set h₁ f.label.addr (pn.setSuccessor f.side (some a))
        have : s.heap.bound ≤ h₂.bound := hb₁.trans hb₂
        omega
      obtain ⟨s', hrun, hrep', hroot', _⟩ := rebalanceFromNodeptr_spec
        (s := { s with heap := h₂ }) hfuel
        (by rw [Frame.fill, rootPtr_join]; exact hctx₂) htop₂ (BinTree.join_ne_nil _ _ _ _) hnd₂
        (length_le_of_isSearchTree hst₂) hfit hstep.1 hstep.2.1 hstep.2.2
      have hnext : getParentFwdPtr ({ s with heap := h₂ } : TreeMem β) (some a) =
          .ok (some (slotOf c)) :=
        getParentFwdPtr_of_parent (n := cell (some f.label.addr))
          (m := pn.setSuccessor f.side (some a)) (by simp [h₁, h₂, haf.symm]) rfl
          (by simp [h₂]) hpcell.parent hctx₂ hfc
      refine ⟨s', climb c (f.fill leaf), ?_, ⟨hrep', hroot', ?_, ?_, ?_⟩,
        before (f :: c), after (f :: c), hold, ?_⟩
      · have hsome : s.storageTree.isNone = false := by
          rw [hroot]
          exact rootPtr_isNone (fill_ne_nil c (BinTree.join_ne_nil _ _ _ _))
        have hnear : pn.successor f.side = none := hpcell.near
        simp only [addNode, hsome, Bool.false_eq_true, if_false, hfind, foundSlot, parentSlot,
          if_true, ok_bind, deref_slotOf hctx, Option.isSome_some, assertC_true, createNode,
          Option.isNone_some]
        change h₁.load (some f.label.addr) >>= _ = _
        rw [Heap.load_cell hpn₁, ok_bind, hside, hnear, Option.isNone_none, assertC_true,
          ok_bind, Heap.modify_cell hpn₁, ok_bind]
        change getParentFwdPtr ({ s with heap := h₂ } : TreeMem β) (some a) >>= _ = _
        rw [hnext, ok_bind]
        change rebalanceFromNodeptr (h₂.bound + 1) { s with heap := h₂ } _ >>= _ = _
        rw [hrun]
        rfl
      · rwa [addrs, toList_climb]
      · exact balanced_climb hfit hstep.1 hstep.2.1 hstep.2.2
      · rw [IsSearchTree, toList_climb]
        exact hst₂
      · rw [toList_climb, hlist]

end BundleStorage
