import DisruptaBLE.Storage.TreeRep

/-!
# Rebalancing in memory

A position of the tree in memory is a slot together with the frames above it.
`RepCtx s c p` says that the frames `c` are stored as they should be and that
the slot at the position holds `p`.

The main result is `rebalanceFromNodeptr_spec`: from a position whose subtree
is nearly balanced, `rebalance_from_nodeptr` ends without a failed assertion
and leaves the tree that `AvlTree.climb` computes.
-/

namespace BundleStorage

open PtrHeap AvlTree

variable {β : Type}

/-- The parent field of the node at a position. -/
def ctxParent : List (Frame (Label β)) → Ptr
  | [] => none
  | f :: _ => some f.label.addr

/-- The forward slot of a position. -/
def slotOf : List (Frame (Label β)) → Slot
  | [] => .storageTree
  | f :: _ => .successor f.label.addr f.side

/-- The addresses of the nodes outside a position. -/
def ctxAddrs : List (Frame (Label β)) → List Addr
  | [] => []
  | f :: c => f.label.addr :: (addrs f.sibling ++ ctxAddrs c)

/-- The memory stores the frames of a position, and its slot holds `p`. -/
def RepCtx (s : TreeMem β) : List (Frame (Label β)) → Ptr → Prop
  | [], p => s.storageTree = p
  | f :: c, p =>
      (∃ n, s.heap.cells f.label.addr = some n ∧
        Cell n f.label (ctxParent c) f.side p (rootPtr f.sibling)) ∧
      Rep s.heap f.sibling (some f.label.addr) ∧ RepCtx s c (some f.label.addr)

theorem mem_addrs_fill {c : List (Frame (Label β))} {t : BinTree (Label β)} {a : Addr} :
    a ∈ addrs (fill c t) ↔ a ∈ addrs t ∨ a ∈ ctxAddrs c := by
  induction c generalizing t with
  | nil => simp [fill, ctxAddrs]
  | cons f c ih =>
      rw [fill, ih, Frame.fill, mem_addrs_join, ctxAddrs, List.mem_cons, List.mem_append]
      tauto

theorem nodup_addrs_fill {c : List (Frame (Label β))} {t : BinTree (Label β)} :
    (addrs (fill c t)).Nodup ↔
      (addrs t).Nodup ∧ (ctxAddrs c).Nodup ∧ ∀ a ∈ addrs t, a ∉ ctxAddrs c := by
  induction c generalizing t with
  | nil => simp [fill, ctxAddrs]
  | cons f c ih =>
      rw [fill, ih, Frame.fill, nodup_addrs_join, ctxAddrs]
      simp only [mem_addrs_join, List.nodup_cons, List.nodup_append, List.mem_cons,
        List.mem_append]
      constructor
      · rintro ⟨⟨h1, h2, h3, h4, h5⟩, h6, h7⟩
        refine ⟨h3, ⟨?_, h4, h6, ?_⟩, ?_⟩
        · rintro (h | h)
          exacts [h2 h, h7 _ (Or.inl rfl) h]
        · rintro a ha b hb rfl
          exact h7 _ (Or.inr (Or.inr ha)) hb
        · rintro a ha (rfl | h | h)
          exacts [h1 ha, h5 a ha h, h7 a (Or.inr (Or.inl ha)) h]
      · rintro ⟨h3, ⟨h1, h4, h6, h8⟩, h7⟩
        refine ⟨⟨fun h => h7 _ h (Or.inl rfl), fun h => h1 (Or.inl h), h3, h4,
          fun a ha h => h7 a ha (Or.inr (Or.inl h))⟩, h6, ?_⟩
        rintro a (rfl | h | h) hc
        exacts [h1 (Or.inr hc), h7 a h (Or.inr (Or.inr hc)), h8 a h a hc rfl]

theorem length_toList_fill (c : List (Frame (Label β))) (t : BinTree (Label β)) :
    c.length + t.toList.length ≤ (fill c t).toList.length := by
  induction c generalizing t with
  | nil => simp [fill]
  | cons f c ih =>
      have hstep : t.toList.length + 1 ≤ (f.fill t).toList.length := by
        cases hd : f.side <;> simp [Frame.fill, hd, BinTree.join]
      have := ih (f.fill t)
      rw [fill, List.length_cons]
      omega

/-- **Frame.**  A context in memory depends on the root pointer and on its own
cells only. -/
theorem RepCtx.frame {s s' : TreeMem β} {c : List (Frame (Label β))} {p : Ptr}
    (hc : RepCtx s c p) (hroot : s'.storageTree = s.storageTree)
    (hsame : ∀ a ∈ ctxAddrs c, s'.heap.cells a = s.heap.cells a) : RepCtx s' c p := by
  induction c generalizing p with
  | nil => exact hroot.trans hc
  | cons f c ih =>
      obtain ⟨⟨n, hn, hcell⟩, hsib, hrest⟩ := hc
      refine ⟨⟨n, ?_, hcell⟩, hsib.frame fun a ha => hsame a ?_, ih hrest fun a ha => hsame a ?_⟩
      · rw [hsame _ List.mem_cons_self, hn]
      · exact List.mem_cons_of_mem _ (List.mem_append_left _ ha)
      · exact List.mem_cons_of_mem _ (List.mem_append_right _ ha)

theorem deref_slotOf {s : TreeMem β} {c : List (Frame (Label β))} {p : Ptr}
    (hc : RepCtx s c p) : s.deref (slotOf c) = .ok p := by
  cases c with
  | nil => exact congrArg Except.ok hc
  | cons f c =>
      obtain ⟨⟨n, hn, hcell⟩, _, _⟩ := hc
      simp [slotOf, TreeMem.deref, Heap.load_cell hn, hcell.near, pure, Except.pure]

/-- Assigning to the slot of a position changes what the slot holds and
nothing else. -/
theorem assign_slotOf {s : TreeMem β} {c : List (Frame (Label β))} {p : Ptr} (q : Ptr)
    (hc : RepCtx s c p) (hnd : (ctxAddrs c).Nodup) :
    ∃ s', s.assign (slotOf c) q = .ok s' ∧ RepCtx s' c q ∧
      ∀ a, a ∉ ctxAddrs c → s'.heap.cells a = s.heap.cells a := by
  cases c with
  | nil => exact ⟨_, rfl, rfl, fun _ _ => rfl⟩
  | cons f c =>
      obtain ⟨⟨n, hn, hcell⟩, hsib, hrest⟩ := hc
      obtain ⟨hnot, _⟩ := List.nodup_cons.mp hnd
      have hfs : f.label.addr ∉ addrs f.sibling := fun h => hnot (List.mem_append_left _ h)
      have hfc : f.label.addr ∉ ctxAddrs c := fun h => hnot (List.mem_append_right _ h)
      refine ⟨{ s with heap := s.heap.set f.label.addr (n.setSuccessor f.side q) },
        ?_, ⟨⟨n.setSuccessor f.side q, by simp, ?_⟩, hsib.set hfs, hrest.frame rfl ?_⟩, ?_⟩
      · simp [slotOf, TreeMem.assign, Heap.modify_cell hn, pure, Except.pure]
      · refine ⟨hcell.id, hcell.bundle, hcell.parent, by simp [Node.setSuccessor], ?_⟩
        simpa [Node.setSuccessor] using hcell.far
      · intro a ha
        have hne : a ≠ f.label.addr := fun h => hfc (h ▸ ha)
        simp [hne]
      · intro a ha
        have hne : a ≠ f.label.addr := fun h => ha (h ▸ List.mem_cons_self)
        simp [hne]

/-- The slot that `get_parent_fwd_ptr` yields for the node at a position. -/
def parentSlot : List (Frame (Label β)) → Option Slot
  | [] => none
  | _ :: c => some (slotOf c)

/-- For a node whose parent `p` hangs under a frame, `get_parent_fwd_ptr` yields
the slot of that frame. -/
theorem getParentFwdPtr_of_frame {s : TreeMem β} {g : Frame (Label β)} {a p : Addr}
    {n m k : Node β} (hn : s.heap.cells a = some n) (hpar : n.parent = some p)
    (hm : s.heap.cells p = some m) (hmpar : m.parent = some g.label.addr)
    (hk : s.heap.cells g.label.addr = some k) (hnear : k.successor g.side = some p)
    (hfar : k.successor g.side.flip ≠ some p) :
    getParentFwdPtr s (some a) = .ok (some (.successor g.label.addr g.side)) := by
  cases hside : g.side with
  | left =>
      rw [hside] at hnear
      simp [getParentFwdPtr, Heap.load_cell hn, hpar, Heap.load_cell hm, hmpar,
        Heap.load_cell hk, hnear, pure, Except.pure]
  | right =>
      rw [hside] at hnear hfar
      simp only [Side.flip] at hfar
      simp [getParentFwdPtr, Heap.load_cell hn, hpar, Heap.load_cell hm, hmpar,
        Heap.load_cell hk, hnear, hfar.symm, pure, Except.pure]

/-- For a node whose parent `p` stands at a position, `get_parent_fwd_ptr` yields
the slot of that position. -/
theorem getParentFwdPtr_of_parent {s : TreeMem β} {c : List (Frame (Label β))}
    {a p : Addr} {n m : Node β} (hn : s.heap.cells a = some n) (hpar : n.parent = some p)
    (hm : s.heap.cells p = some m) (hmpar : m.parent = ctxParent c)
    (hc : RepCtx s c (some p)) (hp : p ∉ ctxAddrs c) :
    getParentFwdPtr s (some a) = .ok (some (slotOf c)) := by
  cases c with
  | nil =>
      have hm' : m.parent = none := hmpar
      simp [getParentFwdPtr, Heap.load_cell hn, hpar, Heap.load_cell hm, hm', slotOf, pure,
        Except.pure]
  | cons g c =>
      obtain ⟨⟨k, hk, hkcell⟩, _, _⟩ := hc
      refine getParentFwdPtr_of_frame hn hpar hm hmpar hk hkcell.near ?_
      -- the parent is not the root of the other subtree of the grandparent
      rw [hkcell.far]
      exact fun h => hp (List.mem_cons_of_mem _ (List.mem_append_left _ (rootPtr_eq_some_mem h)))

theorem getParentFwdPtr_spec {s : TreeMem β} {c : List (Frame (Label β))} {a : Addr}
    {n : Node β} {q : Ptr} (hn : s.heap.cells a = some n) (hpar : n.parent = ctxParent c)
    (hc : RepCtx s c q) (hnd : (ctxAddrs c).Nodup) :
    getParentFwdPtr s (some a) = .ok (parentSlot c) := by
  cases c with
  | nil =>
      have hpar' : n.parent = none := hpar
      simp [getParentFwdPtr, Heap.load_cell hn, hpar', parentSlot, pure, Except.pure]
  | cons f c =>
      obtain ⟨⟨m, hm, hcell⟩, _, hrest⟩ := hc
      obtain ⟨hnot, _⟩ := List.nodup_cons.mp hnd
      exact getParentFwdPtr_of_parent hn hpar hm hcell.parent hrest
        fun h => hnot (List.mem_append_right _ h)

/-! ## One round of the loop -/

/-- The inner rotation is made exactly when the successor leans inwards. -/
theorem rotateInner_spec {h : Heap (Node β)} {d : Side} {s : BinTree (Label β)}
    {x : Label β} {c : BinTree (Label β)} {par : Ptr} {inward : Int → Bool}
    (ht : RepTop h (BinTree.join d s x c) par) (hnd : (addrs (BinTree.join d s x c)).Nodup)
    (hhi : (BinTree.join d s x c).height ≤ 100) (hs : s ≠ .nil)
    (hin : inward (((s.child .left).height : Int) - (s.child .right).height) =
      decide (s.LeansTo d.flip)) :
    ∃ h', rotateInner d inward h (some x.addr) = .ok h' ∧
      RepTop h' (BinTree.join d (if s.LeansTo d.flip then s.rotate d.flip else s) x c) par ∧
      ∀ a, a ∉ addrs (BinTree.join d s x c) → h'.cells a = h.cells a := by
  obtain ⟨⟨n, hn, hcell⟩, hrs, hrc⟩ := repTop_join.mp ht
  obtain ⟨hxs, hxc, hnds, hndc, hsc⟩ := nodup_addrs_join.mp hnd
  rw [BinTree.height_join] at hhi
  have hbal : getBalance h (rootPtr s) =
      .ok (((s.child .left).height : Int) - (s.child .right).height) := by
    cases s with
    | nil => exact absurd rfl hs
    | node l y r => exact getBalance_repTop hrs.repTop
  by_cases hlean : s.LeansTo d.flip
  · -- the successor has an inner child, which the rotation lifts
    obtain ⟨b, y, a, hsj⟩ := BinTree.exists_join d.flip hs
    have hpos : 0 < b.height := by
      have := hlean
      simp only [BinTree.LeansTo, hsj, BinTree.child_join_self, BinTree.child_join_flip] at this
      omega
    obtain ⟨b₂, z, b₁, hbj⟩ := BinTree.exists_join d.flip (BinTree.ne_nil_of_height_pos hpos)
    rw [hbj] at hsj
    rw [hsj] at hrs hnds hcell
    obtain ⟨h₁, hrun₁, hrep₁, hsame₁⟩ :=
      rotate_spec hrs.repTop hnds (by rw [← hsj]; omega)
    rw [rootPtr_join] at hcell
    have hxs' : x.addr ∉ addrs (BinTree.join d.flip (BinTree.join d.flip b₂ z b₁) y a) := hsj ▸ hxs
    have hn₁ : h₁.cells x.addr = some n := (hsame₁ _ hxs').trans hn
    have hrot : s.rotate d.flip = BinTree.join d.flip b₂ z (BinTree.join d.flip b₁ y a) := by
      rw [hsj, BinTree.rotate_join_join]
    have hxrot : x.addr ∉ addrs (BinTree.join d.flip b₂ z (BinTree.join d.flip b₁ y a)) := by
      rw [mem_addrs_join, mem_addrs_join] at hxs' ⊢
      tauto
    refine ⟨h₁.set x.addr (n.setSuccessor d (some z.addr)), ?_, ?_, ?_⟩
    · rw [hsj, rootPtr_join] at hbal
      simp only [rotateInner, Heap.load_cell hn, ok_bind, hcell.near, hbal]
      rw [← hsj, hin, decide_eq_true hlean]
      simp [hrun₁, Heap.modify_cell hn₁]
    · rw [if_pos hlean, hrot]
      refine repTop_join.mpr ⟨⟨n.setSuccessor d (some z.addr), by simp, ?_⟩,
        hrep₁.set hxrot, ?_⟩
      · refine ⟨hcell.id, hcell.bundle, hcell.parent, by simp [Node.setSuccessor], ?_⟩
        simpa [Node.setSuccessor] using hcell.far
      · refine Rep.set (hrc.frame fun e he => hsame₁ e fun h => ?_) hxc
        exact hsc e (hsj ▸ h) he
    · intro e he
      rw [mem_addrs_join] at he
      have hex : e ≠ x.addr := fun h => he (Or.inl h)
      have hes : e ∉ addrs (BinTree.join d.flip (BinTree.join d.flip b₂ z b₁) y a) :=
        fun h => he (Or.inr (Or.inl (hsj ▸ h)))
      simp [hex, hsame₁ e hes]
  · refine ⟨h, ?_, by rw [if_neg hlean]; exact ht, fun _ _ => rfl⟩
    simp only [rotateInner, Heap.load_cell hn, ok_bind, hcell.near, hbal]
    rw [hin, decide_eq_false hlean]
    rfl

/-- The node at a position is too high on side `d`; its two rotations are those
of `BinTree.restore`. -/
theorem repairSide_spec {s : TreeMem β} {ctx : List (Frame (Label β))} {d : Side}
    {t : BinTree (Label β)} {x : Label β} {c : BinTree (Label β)} {inward : Int → Bool}
    (hctx : RepCtx s ctx (some x.addr))
    (ht : Rep s.heap (BinTree.join d t x c) (ctxParent ctx))
    (hnd : (addrs (fill ctx (BinTree.join d t x c))).Nodup)
    (hhi : (BinTree.join d t x c).height ≤ 100)
    (hbt : t.Balanced) (hh : t.height = c.height + 2)
    (hin : inward (((t.child .left).height : Int) - (t.child .right).height) =
      decide (t.LeansTo d.flip)) :
    ∃ s', repairSide d inward s (slotOf ctx) = .ok s' ∧
      RepCtx s' ctx (rootPtr (BinTree.restore d (BinTree.join d t x c))) ∧
      Rep s'.heap (BinTree.restore d (BinTree.join d t x c)) (ctxParent ctx) ∧
      ∀ a, a ∉ addrs (fill ctx (BinTree.join d t x c)) → s'.heap.cells a = s.heap.cells a := by
  obtain ⟨hndt, hndc, hdisj⟩ := nodup_addrs_fill.mp hnd
  have htne : t ≠ .nil := BinTree.ne_nil_of_height_pos (by omega)
  obtain ⟨h₁, hrun₁, hrep₁, hsame₁⟩ := rotateInner_spec ht.repTop hndt hhi htne hin
  -- the successor on side `d`, rotated or not, has a child on side `d`
  let t' := if t.LeansTo d.flip then t.rotate d.flip else t
  have hlist' : t'.toList = t.toList := by
    by_cases hlean : t.LeansTo d.flip
    · simp [t', hlean, BinTree.toList_rotate]
    · simp [t', hlean]
  have hrest : BinTree.restore d (BinTree.join d t x c) = (BinTree.join d t' x c).rotate d := by
    rw [BinTree.restore_join]
    by_cases hlean : t.LeansTo d.flip <;> simp [t', hlean]
  have haddrs : ∀ e, e ∈ addrs (BinTree.join d t' x c) ↔ e ∈ addrs (BinTree.join d t x c) := by
    intro e
    rw [mem_addrs_join, mem_addrs_join]
    simp only [addrs, hlist']
  have hndt' : (addrs (BinTree.join d t' x c)).Nodup := by
    rw [nodup_addrs_join] at hndt ⊢
    simpa only [addrs, hlist'] using hndt
  obtain ⟨a, y, b, hj⟩ := BinTree.exists_join d (t := t') (by
    rintro hnil
    have : t.toList = [] := by rw [← hlist', hnil]; rfl
    cases t with
    | nil => exact htne rfl
    | node l z r => simp at this)
  have hheight' : t'.height ≤ t.height + 1 := by
    by_cases hlean : t.LeansTo d.flip
    · -- rotating a balanced subtree raises it by at most one
      obtain ⟨u, z, v, rfl⟩ := BinTree.exists_join d htne
      rw [BinTree.balanced_join] at hbt
      have hlt : u.height < v.height := by simpa [BinTree.LeansTo] using hlean
      obtain ⟨v₁, w, v₂, rfl⟩ :=
        BinTree.exists_join d (BinTree.ne_nil_of_height_pos (t := v) (by omega))
      simp only [t', if_pos hlean, BinTree.rotate_flip_join_join, BinTree.height_join]
      omega
    · simp [t', if_neg hlean]
  rw [hj] at hheight' hndt'
  have hrep₁' : RepTop h₁ (BinTree.join d (BinTree.join d a y b) x c) (ctxParent ctx) := by
    rw [← hj]; exact hrep₁
  rw [BinTree.height_join] at hhi
  obtain ⟨h₂, hrun₂, hrep₂, hsame₂⟩ := rotate_spec hrep₁' hndt' (by
    rw [BinTree.height_join]; omega)
  have hrest' : BinTree.restore d (BinTree.join d t x c) =
      BinTree.join d a y (BinTree.join d b x c) := by
    rw [hrest, hj, BinTree.rotate_join_join]
  have hsame : ∀ e, e ∉ addrs (BinTree.join d t x c) → h₂.cells e = s.heap.cells e := by
    intro e he
    rw [hsame₂ e (fun h => he ((haddrs e).mp (hj ▸ h))), hsame₁ e he]
  have hctx₂ : RepCtx { s with heap := h₂ } ctx (some x.addr) :=
    hctx.frame rfl fun e he => hsame e fun h => hdisj e h he
  obtain ⟨s₃, hrun₃, hctx₃, hsame₃⟩ := assign_slotOf (some y.addr) hctx₂ hndc
  refine ⟨s₃, ?_, ?_, ?_, ?_⟩
  · simp only [repairSide, deref_slotOf hctx, ok_bind, hrun₁, hrun₂, hrun₃]
  · rw [hrest', rootPtr_join]
    exact hctx₃
  · rw [hrest']
    refine hrep₂.frame fun e he => hsame₃ e fun h => hdisj e ?_ h
    rw [← haddrs, hj]
    simp only [mem_addrs_join] at he ⊢
    tauto
  · intro e he
    rw [mem_addrs_fill] at he
    rw [hsame₃ e (fun h => he (Or.inr h))]
    exact hsame e fun h => he (Or.inl h)

/-- **One round of `rebalance_from_nodeptr`** repairs the node at the position
as `BinTree.rebalance` does. -/
theorem repair_spec {s : TreeMem β} {ctx : List (Frame (Label β))} {l : BinTree (Label β)}
    {x : Label β} {r : BinTree (Label β)}
    (hctx : RepCtx s ctx (some x.addr))
    (ht : Rep s.heap (.node l x r) (ctxParent ctx))
    (hnd : (addrs (fill ctx (.node l x r))).Nodup)
    (hhi : (BinTree.node l x r).height ≤ 100) (hnear : (BinTree.node l x r).NearlyBalanced) :
    ∃ s', repair s (slotOf ctx) ((l.height : Int) - r.height) = .ok s' ∧
      RepCtx s' ctx (rootPtr (BinTree.node l x r).rebalance) ∧
      Rep s'.heap (BinTree.node l x r).rebalance (ctxParent ctx) ∧
      ∀ a, a ∉ addrs (fill ctx (.node l x r)) → s'.heap.cells a = s.heap.cells a := by
  obtain ⟨hbl, hbr, hlr, hrl⟩ := hnear
  simp only [BinTree.child] at hbl hbr hlr hrl
  rw [BinTree.rebalance_node]
  by_cases hright : l.height + 2 = r.height
  · have hbal : (l.height : Int) - r.height = -2 := by omega
    rw [if_pos hright, repair, if_pos hbal]
    refine repairSide_spec (d := .right) hctx ht hnd hhi hbr hright.symm
      (decide_eq_decide.mpr ?_)
    simp only [BinTree.LeansTo, Side.flip]
    omega
  · rw [if_neg hright]
    by_cases hleft : r.height + 2 = l.height
    · have hbal : (l.height : Int) - r.height = 2 := by omega
      rw [if_pos hleft, repair, if_neg (by omega), if_pos hbal]
      refine repairSide_spec (d := .left) hctx ht hnd hhi hbl hleft.symm
        (decide_eq_decide.mpr ?_)
      simp only [BinTree.LeansTo, Side.flip]
      omega
    · rw [if_neg hleft, repair, if_neg (by omega), if_neg (by omega)]
      exact ⟨s, rfl, hctx, ht, fun _ _ => rfl⟩

/-! ## The loop -/

/-- A round of the loop at a position: afterwards the subtree there is repaired
and the loop goes on at the parent. -/
theorem rebalanceFromNodeptr_round {ctx : List (Frame (Label β))} {s : TreeMem β}
    {t : BinTree (Label β)} (fuel : Nat)
    (hctx : RepCtx s ctx (rootPtr t)) (ht : RepTop s.heap t (ctxParent ctx))
    (hne : t ≠ .nil) (hnd : (addrs (fill ctx t)).Nodup)
    (hsz : (fill ctx t).toList.length ≤ 65536) (hnear : t.NearlyBalanced) :
    ∃ s', rebalanceFromNodeptr (fuel + 1) s (some (slotOf ctx)) =
        rebalanceFromNodeptr fuel s' (parentSlot ctx) ∧
      RepCtx s' ctx (rootPtr t.rebalance) ∧ Rep s'.heap t.rebalance (ctxParent ctx) ∧
      ∀ a, a ∉ addrs (fill ctx t) → s'.heap.cells a = s.heap.cells a := by
  obtain ⟨l, x, r, rfl⟩ := BinTree.exists_join .left hne
  simp only [BinTree.join] at *
  obtain ⟨hndt, hndc, hdisj⟩ := nodup_addrs_fill.mp hnd
  obtain ⟨hbl, hbr, hlr, hrl⟩ := id hnear
  simp only [BinTree.child] at hbl hbr hlr hrl
  -- the heights are far from the bounds of `int8_t`
  have hlen := length_toList_fill ctx (.node l x r)
  rw [BinTree.toList_node, List.length_append, List.length_cons] at hlen
  have hl := height_le_of_length hbl (by omega)
  have hr := height_le_of_length hbr (by omega)
  have hhi : (BinTree.node l x r).height ≤ 100 := by rw [BinTree.height_node]; omega
  obtain ⟨h₁, hrun₁, hrep₁, hsame₁⟩ :=
    recalcHeight_repTop (d := .left) ht hndt (by simp only [BinTree.join]; omega)
  simp only [BinTree.join] at hrep₁
  have hxmem : x.addr ∈ addrs (.node l x r) := rootPtr_eq_some_mem rfl
  have hctx₁ : RepCtx { s with heap := h₁ } ctx (some x.addr) :=
    hctx.frame rfl fun a ha => hsame₁ a fun h => hdisj _ hxmem (h ▸ ha)
  obtain ⟨s₂, hrun₂, hctx₂, hrep₂, hsame₂⟩ := repair_spec hctx₁ hrep₁ hnd hhi hnear
  refine ⟨s₂, ?_, hctx₂, hrep₂, ?_⟩
  · have hbal₂ := (BinTree.balanced_rebalance hnear).1
    obtain ⟨l', y, r', hj⟩ := BinTree.exists_join .left (BinTree.rebalance_ne_nil hne)
    rw [hj] at hrep₂ hbal₂ hctx₂
    simp only [BinTree.join] at hrep₂ hbal₂ hctx₂
    obtain ⟨_, _, hlr', hrl'⟩ := hbal₂
    obtain ⟨⟨n, hn, hcell, _⟩, _, _⟩ := id hrep₂
    have hnext := getParentFwdPtr_spec hn hcell.parent hctx₂ hndc
    have hbal : int8 ((l.height : Int) - r.height) = (l.height : Int) - r.height :=
      int8_of_small (by omega) (by omega)
    simp only [rebalanceFromNodeptr, deref_slotOf hctx, ok_bind, rootPtr, Option.isNone_some,
      Bool.false_eq_true, if_false, hrun₁, getBalance_repTop hrep₁.repTop, hbal]
    rw [assertC_of (by simp; omega), ok_bind, hrun₂, ok_bind, deref_slotOf hctx₂, ok_bind,
      rootPtr, getBalance_repTop hrep₂.repTop, ok_bind, assertC_of (by simp; omega), ok_bind,
      hnext, ok_bind]
  · intro a ha
    rw [hsame₂ a ha]
    exact hsame₁ a fun h => ha (mem_addrs_fill.mpr (Or.inl (h ▸ hxmem)))

/-- **`rebalance_from_nodeptr` climbs.**  It starts at a position whose subtree
is nearly balanced and, once repaired, of the height that the context was
balanced around, up to one.  No assertion fails, the tree in memory becomes
`climb ctx t`, and no cell outside the tree changes.  The induction is on the
context: a round repairs the node at the position and moves to its parent. -/
theorem rebalanceFromNodeptr_spec {ctx : List (Frame (Label β))} {s : TreeMem β}
    {t : BinTree (Label β)} {H fuel : Nat} (hfuel : ctx.length + 2 ≤ fuel)
    (hctx : RepCtx s ctx (rootPtr t)) (ht : RepTop s.heap t (ctxParent ctx))
    (hne : t ≠ .nil) (hnd : (addrs (fill ctx t)).Nodup)
    (hsz : (fill ctx t).toList.length ≤ 65536) (hfit : Fits ctx H)
    (hnear : t.NearlyBalanced)
    (hup : t.rebalance.height ≤ H + 1) (hdown : H ≤ t.rebalance.height + 1) :
    ∃ s', rebalanceFromNodeptr fuel s (some (slotOf ctx)) = .ok s' ∧
      Rep s'.heap (climb ctx t) none ∧ s'.storageTree = rootPtr (climb ctx t) ∧
      ∀ a, a ∉ addrs (fill ctx t) → s'.heap.cells a = s.heap.cells a := by
  induction ctx generalizing s t H fuel with
  | nil =>
      obtain ⟨fuel, rfl⟩ : ∃ k, fuel = k + 2 := ⟨fuel - 2, by simp at hfuel; omega⟩
      obtain ⟨s₁, hrun, hctx₁, hrep₁, hsame⟩ :=
        rebalanceFromNodeptr_round (fuel + 1) hctx ht hne hnd hsz hnear
      exact ⟨s₁, hrun, hrep₁, hctx₁, hsame⟩
  | cons f ctx ih =>
      obtain ⟨fuel, rfl⟩ : ∃ k, fuel = k + 1 := ⟨fuel - 1, by omega⟩
      obtain ⟨s₁, hrun, hctx₁, hrep₁, hsame⟩ :=
        rebalanceFromNodeptr_round fuel hctx ht hne hnd hsz hnear
      obtain ⟨hcell, hsib, hrest⟩ := hctx₁
      have htop : RepTop s₁.heap (f.fill t.rebalance) (ctxParent ctx) :=
        repTop_join.mpr ⟨hcell, hrep₁, hsib⟩
      have haddrs : addrs (fill ctx (f.fill t.rebalance)) = addrs (fill (f :: ctx) t) := by
        have hfill : (f.fill t.rebalance).toList = (f.fill t).toList := by
          cases hd : f.side <;> simp [Frame.fill, hd, BinTree.join, BinTree.toList_rebalance]
        simp only [addrs, fill, toList_fill, hfill]
      have hlen : (fill ctx (f.fill t.rebalance)).toList.length ≤ 65536 := by
        have := congrArg List.length haddrs
        simp only [addrs, List.length_map] at this
        omega
      obtain ⟨hsibb, hle, hge, hfit'⟩ := hfit
      have hstep := climb_step hsibb hle hge hnear hup hdown
      have hfuel' : ctx.length + 2 ≤ fuel := by
        simp only [List.length_cons] at hfuel
        omega
      obtain ⟨s₂, hrun₂, hrep₂, hroot₂, hsame₂⟩ := ih hfuel'
        (by rw [Frame.fill, rootPtr_join]; exact hrest) htop
        (BinTree.join_ne_nil _ _ _ _) (haddrs ▸ hnd) hlen hfit' hstep.1 hstep.2.1 hstep.2.2
      refine ⟨s₂, hrun.trans hrun₂, hrep₂, hroot₂, ?_⟩
      intro a ha
      rw [hsame₂ a (haddrs ▸ ha), hsame a ha]

end BundleStorage
