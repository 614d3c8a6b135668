import DisruptaBLE.Storage.Search

/-!
# Deleting

`deleteNodeAtPtr_spec`: `delete_node_at_ptr` removes exactly the node in its
slot and keeps the invariants of the tree.  The cases are those of the source:
no successor, one successor, and two successors, where the in-order neighbour
of the higher subtree is either the direct successor or lies deeper.

In the last case the way from the neighbour up to the direct successor is a
segment of frames; `RepSeg` describes such a segment in memory.
-/

namespace BundleStorage

open PtrHeap AvlTree

variable {β : Type}

/-! ## Segments of frames -/

/-- The parent field of the node below a segment that hangs under `par`. -/
def segParent (par : Ptr) : List (Frame (Label β)) → Ptr
  | [] => par
  | f :: _ => some f.label.addr

/-- The pointer to the top of a segment above a subtree with root pointer `p`. -/
def segRoot : List (Frame (Label β)) → Ptr → Ptr
  | [], p => p
  | f :: fs, _ => segRoot fs (some f.label.addr)

/-- The heap stores a segment of frames, hung under `par`, whose lowest slot
holds `p`. -/
def RepSeg (h : Heap (Node β)) (par : Ptr) : List (Frame (Label β)) → Ptr → Prop
  | [], _ => True
  | f :: fs, p =>
      (∃ n, h.cells f.label.addr = some n ∧
        Cell n f.label (segParent par fs) f.side p (rootPtr f.sibling)) ∧
      Rep h f.sibling (some f.label.addr) ∧ RepSeg h par fs (some f.label.addr)

theorem segParent_ctxParent (fs c : List (Frame (Label β))) :
    ctxParent (fs ++ c) = segParent (ctxParent c) fs := by
  cases fs <;> rfl

theorem segRoot_rootPtr (fs : List (Frame (Label β))) (t : BinTree (Label β)) :
    segRoot fs (rootPtr t) = rootPtr (fill fs t) := by
  induction fs generalizing t with
  | nil => rfl
  | cons f fs ih =>
      rw [segRoot, fill, ← ih, Frame.fill, rootPtr_join]

theorem repCtx_append {s : TreeMem β} {fs c : List (Frame (Label β))} {p : Ptr} :
    RepCtx s (fs ++ c) p ↔ RepSeg s.heap (ctxParent c) fs p ∧ RepCtx s c (segRoot fs p) := by
  induction fs generalizing p with
  | nil => simp [RepSeg, segRoot]
  | cons f fs ih =>
      rw [List.cons_append, RepCtx, RepSeg, segRoot, ih, segParent_ctxParent]
      tauto

theorem repSeg_of_rep {h : Heap (Node β)} {fs : List (Frame (Label β))}
    {t : BinTree (Label β)} {par : Ptr} (hrep : Rep h (fill fs t) par) :
    RepSeg h par fs (rootPtr t) ∧ Rep h t (segParent par fs) := by
  induction fs generalizing t with
  | nil => exact ⟨trivial, hrep⟩
  | cons f fs ih =>
      obtain ⟨hseg, hfill⟩ := ih (t := f.fill t) hrep
      obtain ⟨⟨n, hn, hcell, _⟩, ht, hsib⟩ := rep_join.mp hfill
      rw [Frame.fill, rootPtr_join] at hseg
      exact ⟨⟨⟨n, hn, hcell⟩, hsib, hseg⟩, ht⟩

theorem RepSeg.frame {h h' : Heap (Node β)} {par : Ptr} {fs : List (Frame (Label β))}
    {p : Ptr} (hs : RepSeg h par fs p) (hsame : ∀ a ∈ ctxAddrs fs, h'.cells a = h.cells a) :
    RepSeg h' par fs p := by
  induction fs generalizing p with
  | nil => trivial
  | cons f fs ih =>
      obtain ⟨⟨n, hn, hcell⟩, hsib, hrest⟩ := hs
      refine ⟨⟨n, ?_, hcell⟩, hsib.frame fun a ha => hsame a ?_, ih hrest fun a ha => hsame a ?_⟩
      · rw [hsame _ List.mem_cons_self, hn]
      · exact List.mem_cons_of_mem _ (List.mem_append_left _ ha)
      · exact List.mem_cons_of_mem _ (List.mem_append_right _ ha)

/-- The top of a nonempty segment may be hung under another parent. -/
theorem RepSeg.setParent {h : Heap (Node β)} {par q : Ptr} {f : Frame (Label β)}
    {fs : List (Frame (Label β))} {p : Ptr} (hs : RepSeg h par (f :: fs) p)
    (hnd : (ctxAddrs (f :: fs)).Nodup) :
    ∃ a n, segRoot (f :: fs) p = some a ∧ a ∈ ctxAddrs (f :: fs) ∧ h.cells a = some n ∧
      RepSeg (h.set a (n.setParent q)) q (f :: fs) p := by
  induction fs generalizing f p with
  | nil =>
      obtain ⟨⟨n, hn, hcell⟩, hsib, _⟩ := hs
      obtain ⟨hnot, _⟩ := List.nodup_cons.mp hnd
      refine ⟨f.label.addr, n, rfl, List.mem_cons_self, hn,
        ⟨n.setParent q, by simp, ⟨hcell.id, hcell.bundle, rfl, hcell.near, hcell.far⟩⟩,
        hsib.set fun h => hnot (List.mem_append_left _ h), trivial⟩
  | cons g fs ih =>
      obtain ⟨⟨n, hn, hcell⟩, hsib, hrest⟩ := hs
      obtain ⟨hnot, hnd'⟩ := List.nodup_cons.mp hnd
      obtain ⟨_, hnd'', hdisj⟩ := List.nodup_append.mp hnd'
      obtain ⟨a, m, hroot, hmem, hm, hrep⟩ := ih hrest hnd''
      have hfa : f.label.addr ≠ a := fun h => hnot (h ▸ List.mem_append_right _ hmem)
      refine ⟨a, m, hroot, List.mem_cons_of_mem _ (List.mem_append_right _ hmem), hm,
        ⟨n, by simp [hfa, hn], hcell⟩, hsib.set fun h => hdisj a h a hmem rfl, hrep⟩

/-- `hangUnder` moves a subtree with a stale segment above it, as a whole, under
another parent. -/
theorem hangUnder_segment {h : Heap (Node β)} {par : Ptr} (q : Ptr)
    {fs : List (Frame (Label β))} {t : BinTree (Label β)}
    (hseg : RepSeg h par fs (rootPtr t)) (ht : RepTop h t (segParent par fs))
    (hne : t ≠ .nil) (hnd : (addrs (fill fs t)).Nodup) :
    ∃ h', hangUnder h (rootPtr (fill fs t)) q = .ok h' ∧
      RepSeg h' q fs (rootPtr t) ∧ RepTop h' t (segParent q fs) ∧
      ∀ a, a ∉ addrs (fill fs t) → h'.cells a = h.cells a := by
  obtain ⟨hndt, hndc, hdisj⟩ := nodup_addrs_fill.mp hnd
  obtain ⟨l, x, r, rfl⟩ := BinTree.exists_join .left hne
  obtain ⟨⟨n, hn, hcell⟩, hl, hr⟩ := id ht
  obtain ⟨hxl, hxr, _⟩ := nodup_addrs_join.mp hndt
  cases fs with
  | nil =>
      refine ⟨h.set x.addr (n.setParent q), ?_, trivial, ?_, ?_⟩
      · simp [hangUnder, fill, Heap.modify_cell hn]
      · exact ⟨⟨n.setParent q, by simp, ⟨hcell.id, hcell.bundle, rfl, hcell.near, hcell.far⟩⟩,
          hl.set hxl, hr.set hxr⟩
      · intro a ha
        have hax : a ≠ x.addr := fun h => ha (mem_addrs_join.mpr (Or.inl h))
        simp [hax]
  | cons f fs =>
      obtain ⟨a, m, hroot, hmem, hm, hseg'⟩ := hseg.setParent (q := q) hndc
      have hat : a ∉ addrs (BinTree.join .left l x r) := fun h => hdisj a h hmem
      rw [mem_addrs_join] at hat
      have hxa : x.addr ≠ a := fun h => hat (Or.inl h.symm)
      refine ⟨h.set a (m.setParent q), ?_, hseg', ?_, ?_⟩
      · rw [← segRoot_rootPtr, hroot]
        simp [hangUnder, Heap.modify_cell hm]
      · exact ⟨⟨n, by simp [hxa, hn], hcell⟩, hl.set fun h => hat (Or.inr (Or.inl h)),
          hr.set fun h => hat (Or.inr (Or.inr h))⟩
      · intro e he
        have hea : e ≠ a := fun h => he (mem_addrs_fill.mpr (Or.inr (h ▸ hmem)))
        simp [hea]

/-- **The neighbour.**  The walk along side `e` ends at the last node on that
side; the frames passed all have their hole on that side. -/
theorem outermost_spec {h : Heap (Node β)} {e : Side} {t : BinTree (Label β)} {par : Ptr}
    {fuel : Nat} (hfuel : t.height ≤ fuel) (hne : t ≠ .nil) (hrep : Rep h t par) :
    ∃ fs y a, t = fill fs (BinTree.join e .nil y a) ∧ (∀ f ∈ fs, f.side = e) ∧
      outermost h e fuel (rootPtr t) = .ok (some y.addr) := by
  induction t generalizing par fuel with
  | nil => exact absurd rfl hne
  | node l x r ihl ihr =>
      -- the child on side `e` is `u`, and the claim is known for it
      have key : ∀ u v, BinTree.node l x r = BinTree.join e u x v →
          (∀ {par fuel}, u.height ≤ fuel → u ≠ .nil → Rep h u par →
            ∃ fs y a, u = fill fs (BinTree.join e .nil y a) ∧ (∀ f ∈ fs, f.side = e) ∧
              outermost h e fuel (rootPtr u) = .ok (some y.addr)) →
          ∃ fs y a, BinTree.node l x r = fill fs (BinTree.join e .nil y a) ∧
            (∀ f ∈ fs, f.side = e) ∧
            outermost h e fuel (rootPtr (BinTree.node l x r)) = .ok (some y.addr) := by
        intro u v hj ih
        rw [hj] at hrep hfuel ⊢
        rw [BinTree.height_join] at hfuel
        obtain ⟨⟨n, hn, hcell, _⟩, hu, _⟩ := rep_join.mp hrep
        obtain ⟨fuel, rfl⟩ : ∃ k, fuel = k + 1 := ⟨fuel - 1, by omega⟩
        by_cases hunil : u = .nil
        · subst hunil
          have hnear : n.successor e = none := hcell.near
          refine ⟨[], x, v, rfl, by simp, ?_⟩
          simp [outermost, Heap.load_cell hn, hnear, pure, Except.pure]
        · obtain ⟨fs, y, a, hfill, hside, hrun⟩ :=
            ih (Nat.le_of_lt_succ (by omega : u.height < fuel + 1)) hunil hu
          refine ⟨fs ++ [⟨e, x, v⟩], y, a, ?_, ?_, ?_⟩
          · rw [fill_append, ← hfill]
            rfl
          · intro f hf
            rcases List.mem_append.mp hf with hf | hf
            · exact hside f hf
            · rw [List.mem_singleton.mp hf]
          · have hsome : (n.successor e).isSome = true := by
              rw [hcell.near, ← Option.not_isNone, rootPtr_isNone hunil]
              rfl
            simp only [outermost, rootPtr_join, Heap.load_cell hn, ok_bind, hsome, if_true]
            rw [hcell.near]
            exact hrun
      cases e with
      | left => exact key l r rfl ihl
      | right => exact key r l rfl ihr

/-! ## The neighbour takes the place of the deleted node -/

theorem repSeg_concat {h : Heap (Node β)} {par p : Ptr} {fs : List (Frame (Label β))}
    {f : Frame (Label β)} :
    RepSeg h par (fs ++ [f]) p ↔
      RepSeg h (some f.label.addr) fs p ∧ RepSeg h par [f] (segRoot fs p) := by
  induction fs generalizing p with
  | nil => simp [RepSeg, segRoot]
  | cons g fs ih =>
      have hpar : segParent par (fs ++ [f]) = segParent (some f.label.addr) fs := by
        cases fs <;> rfl
      constructor
      · rintro ⟨hcell, hsib, hrest⟩
        obtain ⟨hlow, hlast⟩ := ih.mp hrest
        exact ⟨⟨hpar ▸ hcell, hsib, hlow⟩, hlast⟩
      · rintro ⟨⟨hcell, hsib, hlow⟩, hlast⟩
        exact ⟨hpar ▸ hcell, hsib, ih.mpr ⟨hlow, hlast⟩⟩

/-- "Swap position in sub-tree if not direct successor": the neighbour `y` is
taken out of its place, and what was above it hangs under it. -/
theorem swapPosition_spec {h : Heap (Node β)} {d : Side} {par : Ptr}
    {g : Frame (Label β)} {fs : List (Frame (Label β))} {y : Label β} {A : BinTree (Label β)}
    (hg : g.side = d.flip)
    (hrep : Rep h (fill (g :: fs) (BinTree.join d.flip .nil y A)) par)
    (hnd : (addrs (fill (g :: fs) (BinTree.join d.flip .nil y A))).Nodup)
    (hhi : (g.fill A).height ≤ 127) :
    ∃ h' ny, swapPosition d h (rootPtr (fill (g :: fs) (BinTree.join d.flip .nil y A)))
        (some y.addr) = .ok h' ∧
      RepSeg h' (some y.addr) fs (rootPtr (g.fill A)) ∧
      RepTop h' (g.fill A) (segParent (some y.addr) fs) ∧
      h'.cells y.addr = some ny ∧
      Cell ny y (some g.label.addr) d (rootPtr (fill fs (g.fill A))) none ∧
      ∀ a, a ∉ addrs (fill (g :: fs) (BinTree.join d.flip .nil y A)) →
        h'.cells a = h.cells a := by
  obtain ⟨hseg, hy⟩ := repSeg_of_rep hrep
  rw [rootPtr_join] at hseg
  obtain ⟨⟨ng, hng, hcg⟩, hsib, hfs⟩ := hseg
  obtain ⟨⟨ny, hny, hcy, _⟩, _, hA⟩ := rep_join.mp hy
  obtain ⟨hndy, hndc, hdisj⟩ := nodup_addrs_fill.mp hnd
  obtain ⟨_, hyA, _, hndA, _⟩ := nodup_addrs_join.mp hndy
  have hAsub : ∀ a ∈ addrs A, a ∉ ctxAddrs (g :: fs) := fun a ha =>
    hdisj a (mem_addrs_join.mpr (Or.inr (Or.inr ha)))
  have hyc : y.addr ∉ ctxAddrs (g :: fs) := hdisj _ (mem_addrs_join.mpr (Or.inl rfl))
  obtain ⟨hgnot, hndsf⟩ := List.nodup_cons.mp hndc
  obtain ⟨hndsib, hndfs, hsf⟩ := List.nodup_append.mp hndsf
  have hgA : g.label.addr ∉ addrs A := fun h => hAsub _ h List.mem_cons_self
  have hgsib : g.label.addr ∉ addrs g.sibling := fun h => hgnot (List.mem_append_left _ h)
  have hgfs : g.label.addr ∉ ctxAddrs fs := fun h => hgnot (List.mem_append_right _ h)
  have hAsib : ∀ a ∈ addrs A, a ∉ addrs g.sibling := fun a ha h =>
    hAsub a ha (List.mem_cons_of_mem _ (List.mem_append_left _ h))
  have hAfs : ∀ a ∈ addrs A, a ∉ ctxAddrs fs := fun a ha h =>
    hAsub a ha (List.mem_cons_of_mem _ (List.mem_append_right _ h))
  have hyg : y.addr ≠ g.label.addr := fun h => hyc (h ▸ List.mem_cons_self)
  -- the parent of `y` takes over the subtree `A`
  let h₁ := h.set g.label.addr (ng.setSuccessor d.flip (rootPtr A))
  obtain ⟨h₂, hrun₂, hA₂, hsame₂⟩ :=
    hangUnder_spec (some g.label.addr) (hA.set (v := ng.setSuccessor d.flip (rootPtr A)) hgA) hndA
  have hother₂ : ∀ a, a ∉ addrs A → a ≠ g.label.addr → h₂.cells a = h.cells a := by
    intro a ha hag
    simp [hsame₂ a ha, hag]
  have hng₂ : h₂.cells g.label.addr = some (ng.setSuccessor d.flip (rootPtr A)) := by
    simp [hsame₂ _ hgA]
  have hndgA : (addrs (g.fill A)).Nodup :=
    nodup_addrs_join.mpr ⟨hgA, hgsib, hndA, hndsib, hAsib⟩
  have htop₂ : RepTop h₂ (g.fill A) (segParent par fs) := by
    refine repTop_join.mpr ⟨⟨_, hng₂, hcg.id, hcg.bundle, hcg.parent, ?_, ?_⟩, hA₂, ?_⟩
    · simp [Node.setSuccessor, hg]
    · have hfar := hcg.far
      rw [hg, Side.flip_flip] at hfar
      simpa [Node.setSuccessor, hg] using hfar
    · exact hsib.frame fun a ha => hother₂ a (fun h => hAsib a h ha) fun h => hgsib (h ▸ ha)
  obtain ⟨h₃, hrun₃, hrep₃, hsame₃⟩ := recalcHeight_repTop htop₂ hndgA hhi
  have hother₃ : ∀ a, a ∉ addrs A → a ≠ g.label.addr → h₃.cells a = h.cells a :=
    fun a ha hag => (hsame₃ a hag).trans (hother₂ a ha hag)
  have hfs₃ : RepSeg h₃ par fs (some g.label.addr) := hfs.frame fun a ha =>
    hother₃ a (fun h => hAfs a h ha) fun h => hgfs (h ▸ ha)
  -- `y` takes over the rest of the segment
  have hmemgA : ∀ a, a ∈ addrs (fill fs (g.fill A)) → a ∈ addrs A ∨ a ∈ ctxAddrs (g :: fs) := by
    intro a ha
    rcases mem_addrs_fill.mp ha with ha | ha
    · rcases mem_addrs_join.mp ha with rfl | ha | ha
      · exact Or.inr List.mem_cons_self
      · exact Or.inl ha
      · exact Or.inr (List.mem_cons_of_mem _ (List.mem_append_left _ ha))
    · exact Or.inr (List.mem_cons_of_mem _ (List.mem_append_right _ ha))
  have hysub : y.addr ∉ addrs (fill fs (g.fill A)) := fun h =>
    (hmemgA _ h).elim hyA hyc
  have hyfs : y.addr ∉ ctxAddrs fs := fun h => hysub (mem_addrs_fill.mpr (Or.inr h))
  have hygA : y.addr ∉ addrs (g.fill A) := fun h => hysub (mem_addrs_fill.mpr (Or.inl h))
  have hndsub : (addrs (fill fs (g.fill A))).Nodup := by
    refine nodup_addrs_fill.mpr ⟨hndgA, hndfs, ?_⟩
    intro a ha
    rcases mem_addrs_join.mp ha with rfl | ha | ha
    · exact hgfs
    · exact hAfs a ha
    · exact fun h => hsf a ha a h rfl
  have hny₃ : h₃.cells y.addr = some ny := by rw [hother₃ _ hyA hyg, hny]
  let top := rootPtr (fill fs (g.fill A))
  let h₄ := h₃.set y.addr (ny.setSuccessor d top)
  have hroot : rootPtr (fill (g :: fs) (BinTree.join d.flip .nil y A)) = top := by
    rw [fill, ← segRoot_rootPtr, Frame.fill, rootPtr_join]
    simp only [top]
    rw [← segRoot_rootPtr, Frame.fill, rootPtr_join]
  have hsame₄ : ∀ a, a ≠ y.addr → h₄.cells a = h₃.cells a := by
    intro a ha
    simp [h₄, ha]
  have hfs₄ : RepSeg h₄ par fs (rootPtr (g.fill A)) := by
    rw [Frame.fill, rootPtr_join]
    exact hfs₃.frame fun a ha => hsame₄ a fun h => hyfs (h ▸ ha)
  have hrep₄ : Rep h₄ (g.fill A) (segParent par fs) := hrep₃.set hygA
  obtain ⟨h₅, hrun₅, hfs₅, hrep₅, hsame₅⟩ :=
    hangUnder_segment (some y.addr) hfs₄ hrep₄.repTop (BinTree.join_ne_nil _ _ _ _) hndsub
  refine ⟨h₅, ny.setSuccessor d top, ?_, hfs₅, hrep₅, ?_, ?_, ?_⟩
  · have hne : some y.addr ≠ top := fun h => hysub (rootPtr_eq_some_mem h.symm)
    have hpar : ny.parent = some g.label.addr := hcy.parent
    have hfar : ny.successor d = rootPtr A := by simpa using hcy.far
    rw [hroot]
    simp only [swapPosition, if_neg hne, Heap.load_cell hny, ok_bind, hpar, hfar,
      Heap.modify_cell hng]
    rw [hrun₂, ok_bind, hrun₃, ok_bind, Heap.modify_cell hny₃, ok_bind]
    exact hrun₅
  · rw [hsame₅ _ hysub]
    simp [h₄]
  · refine ⟨hcy.id, hcy.bundle, hcy.parent, by simp [Node.setSuccessor, top], ?_⟩
    simpa [Node.setSuccessor] using hcy.near
  · intro a ha
    have hay : a ≠ y.addr := fun h =>
      ha (mem_addrs_fill.mpr (Or.inl (mem_addrs_join.mpr (Or.inl h))))
    have haA : a ∉ addrs A := fun h =>
      ha (mem_addrs_fill.mpr (Or.inl (mem_addrs_join.mpr (Or.inr (Or.inr h)))))
    have hac : a ∉ ctxAddrs (g :: fs) := fun h => ha (mem_addrs_fill.mpr (Or.inr h))
    rw [hsame₅ a fun h => (hmemgA a h).elim haA hac, hsame₄ a hay,
      hother₃ a haA fun h => hac (h ▸ List.mem_cons_self)]

/-- The "re-hang" of the other successor `O` of the deleted node. -/
theorem rehang_spec {h : Heap (Node β)} {d : Side} {y : Label β} {ny : Node β} {q p r : Ptr}
    {O : BinTree (Label β)} (hny : h.cells y.addr = some ny) (hcell : Cell ny y q d p none)
    (hO : Rep h O r) (hndO : (addrs O).Nodup) (hyO : y.addr ∉ addrs O) :
    ∃ h' ny', (h.modify (some y.addr) (·.setSuccessor d.flip (rootPtr O)) >>= fun h =>
        hangUnder h (rootPtr O) (some y.addr)) = .ok h' ∧
      h'.cells y.addr = some ny' ∧ Cell ny' y q d p (rootPtr O) ∧
      Rep h' O (some y.addr) ∧
      ∀ a, a ≠ y.addr → a ∉ addrs O → h'.cells a = h.cells a := by
  let ny' := ny.setSuccessor d.flip (rootPtr O)
  obtain ⟨h', hrun, hO', hsame⟩ :=
    hangUnder_spec (some y.addr) (hO.set (v := ny') hyO) hndO
  refine ⟨h', ny', ?_, ?_, ?_, hO', ?_⟩
  · rw [Heap.modify_cell hny, ok_bind]
    exact hrun
  · rw [hsame _ hyO]
    simp
  · refine ⟨hcell.id, hcell.bundle, hcell.parent, ?_, by simp [ny', Node.setSuccessor]⟩
    simpa [ny', Node.setSuccessor] using hcell.near
  · intro a ha haO
    simp [hsame a haO, ha]

/-- The labels of two subtrees in order, `s` being the one on side `d`. -/
def beside (d : Side) (s t : BinTree (Label β)) : List (Label β) :=
  match d with
  | .left => s.toList ++ t.toList
  | .right => t.toList ++ s.toList

theorem before_eq_nil {fs : List (Frame (Label β))} (h : ∀ f ∈ fs, f.side = .left) :
    before fs = [] := by
  induction fs with
  | nil => rfl
  | cons f fs ih =>
      rw [before, h f List.mem_cons_self]
      exact ih fun g hg => h g (List.mem_cons_of_mem _ hg)

theorem after_eq_nil {fs : List (Frame (Label β))} (h : ∀ f ∈ fs, f.side = .right) :
    after fs = [] := by
  induction fs with
  | nil => rfl
  | cons f fs ih =>
      rw [after, h f List.mem_cons_self]
      exact ih fun g hg => h g (List.mem_cons_of_mem _ hg)

/-- Moving the outermost label `y` to the top of the join keeps the order. -/
theorem toList_join_outermost {d : Side} {fs : List (Frame (Label β))} {y : Label β}
    {A O : BinTree (Label β)} (hside : ∀ f ∈ fs, f.side = d.flip) :
    (BinTree.join d (fill fs A) y O).toList =
      beside d (fill fs (BinTree.join d.flip .nil y A)) O := by
  cases d with
  | left => simp [beside, BinTree.join, Side.flip, toList_fill, after_eq_nil hside]
  | right => simp [beside, BinTree.join, Side.flip, toList_fill, before_eq_nil hside]

theorem fits_relabel {fs c : List (Frame (Label β))} {d : Side} {O : BinTree (Label β)}
    (x y : Label β) {H : Nat} (h : Fits (fs ++ ⟨d, x, O⟩ :: c) H) :
    Fits (fs ++ ⟨d, y, O⟩ :: c) H := by
  induction fs generalizing H with
  | nil => exact h
  | cons f fs ih =>
      obtain ⟨hbal, hle, hge, hrest⟩ := h
      exact ⟨hbal, hle, hge, ih hrest⟩

/-- The memory between the two halves of `delete_node_at_ptr`: the node of `x`
still stands in its slot, and the replacement `p` is the top of a structure that
holds the labels `rest` and is balanced but for the node in `start`. -/
def Spliced (s : TreeMem β) (c : List (Frame (Label β))) (x : Label β)
    (rest : List (Label β)) (p : Ptr) (start : Slot) : Prop :=
  ∃ fs u q H, u ≠ .nil ∧ rootPtr (fill fs u) = p ∧ slotOf (fs ++ c) = start ∧
    RepSeg s.heap q fs (rootPtr u) ∧ RepTop s.heap u (segParent q fs) ∧
    (fill fs u).toList = rest ∧ Fits (fs ++ c) H ∧ u.NearlyBalanced ∧
    u.rebalance.height ≤ H + 1 ∧ H ≤ u.rebalance.height + 1 ∧
    RepCtx s c (some x.addr) ∧
    ∃ nx, s.heap.cells x.addr = some nx ∧ nx.parent = ctxParent c

/-- For a node whose parent `p` hangs under a segment, `get_parent_fwd_ptr` yields
the lowest slot of the segment. -/
theorem getParentFwdPtr_of_segment {s : TreeMem β} {par : Ptr} {g : Frame (Label β)}
    {fs c : List (Frame (Label β))} {a p : Addr} {n m : Node β}
    (hn : s.heap.cells a = some n) (hpar : n.parent = some p) (hm : s.heap.cells p = some m)
    (hmpar : m.parent = some g.label.addr) (hseg : RepSeg s.heap par (g :: fs) (some p))
    (hp : p ∉ ctxAddrs (g :: fs)) :
    getParentFwdPtr s (some a) = .ok (some (slotOf (g :: fs ++ c))) := by
  obtain ⟨⟨k, hk, hcell⟩, _, _⟩ := hseg
  refine getParentFwdPtr_of_frame hn hpar hm hmpar hk hcell.near ?_
  rw [hcell.far]
  exact fun h => hp (List.mem_cons_of_mem _ (List.mem_append_left _ (rootPtr_eq_some_mem h)))

/-- The neighbour is the direct successor of the deleted node. -/
theorem spliceNeighbour_direct {s : TreeMem β} {c : List (Frame (Label β))} {d : Side}
    {y : Label β} {A : BinTree (Label β)} {x : Label β} {O : BinTree (Label β)}
    (hctx : RepCtx s c (some x.addr))
    (hrep : Rep s.heap (BinTree.join d (BinTree.join d.flip .nil y A) x O) (ctxParent c))
    (hnd : (addrs (fill c (BinTree.join d (BinTree.join d.flip .nil y A) x O))).Nodup)
    (hbal : (fill c (BinTree.join d (BinTree.join d.flip .nil y A) x O)).Balanced)
    (hrun : outermost s.heap d.flip s.heap.bound (some y.addr) = .ok (some y.addr)) :
    ∃ s', spliceNeighbour d s (slotOf c) (some x.addr) =
        .ok (some y.addr, slotOf c, s') ∧
      Spliced s' c x (beside d (BinTree.join d.flip .nil y A) O) (some y.addr) (slotOf c) := by
  obtain ⟨⟨nx, hnx, hcx, _⟩, hy, hO⟩ := rep_join.mp hrep
  rw [rootPtr_join] at hcx
  obtain ⟨⟨ny, hny, hcy, _⟩, _, hA⟩ := rep_join.mp hy
  obtain ⟨hndx, hndc, hdisj⟩ := nodup_addrs_fill.mp hnd
  obtain ⟨hxS, hxO, hndS, hndO, hSO⟩ := nodup_addrs_join.mp hndx
  obtain ⟨_, hyA, _, hndA, _⟩ := nodup_addrs_join.mp hndS
  have hyS : y.addr ∈ addrs (BinTree.join d.flip .nil y A) := mem_addrs_join.mpr (Or.inl rfl)
  have hAS : ∀ a ∈ addrs A, a ∈ addrs (BinTree.join d.flip .nil y A) := fun a ha =>
    mem_addrs_join.mpr (Or.inr (Or.inr ha))
  have hyO : y.addr ∉ addrs O := hSO _ hyS
  have hxy : x.addr ≠ y.addr := fun h => hxS (h ▸ hyS)
  have hcy' : Cell ny y (some x.addr) d (rootPtr A) none := by
    have := hcy.mirror
    rwa [Side.flip_flip] at this
  obtain ⟨h', ny', hrehang, hny', hcell', hO', hsame⟩ :=
    rehang_spec hny hcy' hO hndO hyO
  have hnx' : h'.cells x.addr = some nx := by rw [hsame _ hxy hxO, hnx]
  have hctx' : RepCtx { s with heap := h' } c (some x.addr) := by
    refine hctx.frame rfl fun a ha => hsame a ?_ ?_
    · exact fun h => hdisj a (mem_addrs_join.mpr (Or.inr (Or.inl (h ▸ hyS)))) ha
    · exact fun h => hdisj a (mem_addrs_join.mpr (Or.inr (Or.inr h))) ha
  have hA' : Rep h' A (some y.addr) := hA.frame fun a ha =>
    hsame a (fun h => hyA (h ▸ ha)) (hSO a (hAS a ha))
  have hnext : getParentFwdPtr ({ s with heap := h' } : TreeMem β) (some y.addr) =
      .ok (some (slotOf c)) :=
    getParentFwdPtr_of_parent hny' hcell'.parent hnx' hcx.parent hctx'
      (hdisj _ (mem_addrs_join.mpr (Or.inl rfl)))
  -- the heights at the position
  obtain ⟨hbx, hfit⟩ := (balanced_fill_iff c _).mp hbal
  obtain ⟨hbS, hbO, hle, hge⟩ := (BinTree.balanced_join _ _ _ _).mp hbx
  obtain ⟨_, hbA, _, hA1⟩ := (BinTree.balanced_join _ _ _ _).mp hbS
  have hrA : A.rebalance = A := BinTree.rebalance_of_balanced hbA
  have hhS : (BinTree.join d.flip .nil y A).height = 1 + A.height := by simp
  obtain ⟨hnear, hup, hdown⟩ := climb_step (f := ⟨d, y, O⟩) (t := A) hbO hle hge
    hbA.nearlyBalanced (by rw [hrA, hhS]; omega) (by rw [hrA, hhS]; omega)
  rw [hrA] at hnear hup hdown
  rw [BinTree.height_join] at hfit
  refine ⟨{ s with heap := h' }, ?_, [], BinTree.join d A y O, some x.addr, _,
    BinTree.join_ne_nil _ _ _ _, rootPtr_join _ _ _ _, rfl, trivial, ?_, ?_, hfit, hnear, hup,
    hdown, hctx', nx, hnx', hcx.parent⟩
  · have hnear : nx.successor d = some y.addr := hcx.near
    simp only [spliceNeighbour, Heap.load_cell hnx, ok_bind, hnear, hrun, hcx.far,
      swapPosition, if_true]
    rw [← bind_assoc, hrehang, ok_bind, hnext]
    rfl
  · exact repTop_join.mpr ⟨⟨ny', hny', hcell'⟩, hA', hO'⟩
  · exact @toList_join_outermost β d [] y A O (by simp)

/-- The nodes of a context with one more frame at its end. -/
theorem ctxAddrs_append_singleton {k : Frame (Label β)} {l : List (Frame (Label β))} {a : Addr}
    (h : a ∈ ctxAddrs (l ++ [k])) :
    a ∈ ctxAddrs l ∨ a = k.label.addr ∨ a ∈ addrs k.sibling := by
  induction l with
  | nil => simpa [ctxAddrs] using h
  | cons f l ih =>
      simp only [List.cons_append, ctxAddrs, List.mem_cons, List.mem_append] at h ⊢
      rcases h with h | h | h
      · exact .inl (.inl h)
      · exact .inl (.inr (.inl h))
      · exact (ih h).imp_left fun hl => .inr (.inr hl)

/-- The neighbour lies deeper than the direct successor of the deleted node. -/
theorem spliceNeighbour_deep {s : TreeMem β} {c : List (Frame (Label β))} {d : Side}
    {g : Frame (Label β)} {fs : List (Frame (Label β))} {y : Label β} {A : BinTree (Label β)}
    {x : Label β} {O : BinTree (Label β)} (hside : ∀ f ∈ g :: fs, f.side = d.flip)
    (hctx : RepCtx s c (some x.addr))
    (hrep : Rep s.heap
      (BinTree.join d (fill (g :: fs) (BinTree.join d.flip .nil y A)) x O) (ctxParent c))
    (hnd : (addrs
      (fill c (BinTree.join d (fill (g :: fs) (BinTree.join d.flip .nil y A)) x O))).Nodup)
    (hsz : (fill c
      (BinTree.join d (fill (g :: fs) (BinTree.join d.flip .nil y A)) x O)).toList.length ≤ 65536)
    (hbal : (fill c
      (BinTree.join d (fill (g :: fs) (BinTree.join d.flip .nil y A)) x O)).Balanced)
    (hrun : outermost s.heap d.flip s.heap.bound
      (rootPtr (fill (g :: fs) (BinTree.join d.flip .nil y A))) = .ok (some y.addr)) :
    ∃ s' slot, spliceNeighbour d s (slotOf c) (some x.addr) =
        .ok (some y.addr, slot, s') ∧
      Spliced s' c x (beside d (fill (g :: fs) (BinTree.join d.flip .nil y A)) O)
        (some y.addr) slot := by
  obtain ⟨⟨nx, hnx, hcx, _⟩, hS, hO⟩ := rep_join.mp hrep
  obtain ⟨hndx, hndc, hdisj⟩ := nodup_addrs_fill.mp hnd
  obtain ⟨hxS, hxO, hndS, hndO, hSO⟩ := nodup_addrs_join.mp hndx
  obtain ⟨hndy, hndfs, hydisj⟩ := nodup_addrs_fill.mp hndS
  have hyJ : y.addr ∈ addrs (BinTree.join d.flip .nil y A) := mem_addrs_join.mpr (Or.inl rfl)
  have hyS := mem_addrs_fill.mpr (Or.inl hyJ : _ ∨ y.addr ∈ ctxAddrs (g :: fs))
  have hgS : g.label.addr ∈ addrs (fill (g :: fs) (BinTree.join d.flip .nil y A)) :=
    mem_addrs_fill.mpr (Or.inr List.mem_cons_self)
  have hfsS : ∀ a ∈ ctxAddrs fs, a ∈ addrs (fill (g :: fs) (BinTree.join d.flip .nil y A)) :=
    fun a ha => mem_addrs_fill.mpr
      (Or.inr (List.mem_cons_of_mem _ (List.mem_append_right _ ha)))
  have hygS : ∀ a ∈ addrs (g.fill A),
      a ∈ addrs (fill (g :: fs) (BinTree.join d.flip .nil y A)) := by
    intro a ha
    rcases mem_addrs_join.mp ha with rfl | ha | ha
    · exact hgS
    · exact mem_addrs_fill.mpr (Or.inl (mem_addrs_join.mpr (Or.inr (Or.inr ha))))
    · exact mem_addrs_fill.mpr
        (Or.inr (List.mem_cons_of_mem _ (List.mem_append_left _ ha)))
  have hyO : y.addr ∉ addrs O := hSO _ hyS
  have hxy : x.addr ≠ y.addr := fun h => hxS (h ▸ hyS)
  have hyg : y.addr ≠ g.label.addr := fun h => hydisj _ hyJ (h ▸ List.mem_cons_self)
  have hyfs : y.addr ∉ ctxAddrs fs := fun h =>
    hydisj _ hyJ (List.mem_cons_of_mem _ (List.mem_append_right _ h))
  have hyA : y.addr ∉ addrs A := (nodup_addrs_join.mp hndy).2.1
  have hygA : y.addr ∉ addrs (g.fill A) := by
    rw [Frame.fill, mem_addrs_join]
    rintro (h | h | h)
    · exact hyg h
    · exact hyA h
    · exact hydisj _ hyJ (List.mem_cons_of_mem _ (List.mem_append_left _ h))
  obtain ⟨hgnot, _⟩ := List.nodup_cons.mp hndfs
  have hgfs : g.label.addr ∉ ctxAddrs fs := fun h => hgnot (List.mem_append_right _ h)
  -- the heights
  have hfit := (balanced_fill_iff (fs ++ ⟨d, x, O⟩ :: c)
    (g.fill (BinTree.join d.flip .nil y A))).mp (by
      rw [fill_append]
      exact hbal)
  obtain ⟨hbg, hfit⟩ := hfit
  have hhg : (g.fill (BinTree.join d.flip .nil y A)).height =
      1 + max (BinTree.join d.flip .nil y A).height g.sibling.height := BinTree.height_join _ _ _ _
  rw [hhg] at hfit
  obtain ⟨hbJ, hbsib, hle, hge⟩ := (BinTree.balanced_join _ _ _ _).mp hbg
  obtain ⟨_, hbA, _, hA1⟩ := (BinTree.balanced_join _ _ _ _).mp hbJ
  have hrA : A.rebalance = A := BinTree.rebalance_of_balanced hbA
  have hhJ : (BinTree.join d.flip .nil y A).height = 1 + A.height := by simp
  obtain ⟨hnear, hup, hdown⟩ := climb_step (f := g) (t := A) hbsib hle hge
    hbA.nearlyBalanced (by rw [hrA, hhJ]; omega) (by rw [hrA, hhJ]; omega)
  rw [hrA] at hnear hup hdown
  have hhi : (g.fill A).height ≤ 127 := by
    have hlen := length_toList_fill (fs ++ ⟨d, x, O⟩ :: c)
      (g.fill (BinTree.join d.flip .nil y A))
    rw [fill_append] at hlen
    have hsmall := height_le_of_length hbg ((Nat.le_add_left _ _).trans (hlen.trans hsz))
    rw [Frame.fill, BinTree.height_join] at hsmall ⊢
    omega
  -- the two steps of the splice
  obtain ⟨h₁, ny, hswap, hfs₁, hgA₁, hny₁, hcy₁, hsame₁⟩ :=
    swapPosition_spec (hside g List.mem_cons_self) hS hndS hhi
  have hO₁ : Rep h₁ O (some x.addr) := hO.frame fun a ha =>
    hsame₁ a fun h => hSO a h ha
  obtain ⟨h₂, ny₂, hrehang, hny₂, hcy₂, hO₂, hsame₂⟩ :=
    rehang_spec hny₁ hcy₁ hO₁ hndO hyO
  have hS₂ : ∀ a ∈ addrs (fill (g :: fs) (BinTree.join d.flip .nil y A)), a ≠ y.addr →
      h₂.cells a = h₁.cells a := fun a ha hay => hsame₂ a hay (hSO a ha)
  have hout₂ : ∀ a, a ∉ addrs (fill (g :: fs) (BinTree.join d.flip .nil y A)) →
      a ∉ addrs O → h₂.cells a = s.heap.cells a := fun a ha haO =>
    (hsame₂ a (fun h => ha (h ▸ hyS)) haO).trans (hsame₁ a ha)
  have hfs₂ : RepSeg h₂ (some y.addr) fs (rootPtr (g.fill A)) := hfs₁.frame fun a ha =>
    hS₂ a (hfsS a ha) fun h => hyfs (h ▸ ha)
  obtain ⟨⟨ng, hng₁, hcg⟩, hA₁, hsib₁⟩ := repTop_join.mp hgA₁
  have hgA₂ : RepTop h₂ (g.fill A) (segParent (some y.addr) fs) := by
    refine repTop_join.mpr ⟨⟨ng, ?_, hcg⟩, hA₁.frame fun a ha => ?_, hsib₁.frame fun a ha => ?_⟩
    · rw [hS₂ _ hgS hyg.symm, hng₁]
    · have hmem := mem_addrs_join (d := g.side).mpr (Or.inr (Or.inl ha) :
        _ = g.label.addr ∨ _ ∈ addrs A ∨ _ ∈ addrs g.sibling)
      exact hS₂ a (hygS a hmem) fun h => hygA (h ▸ hmem)
    · have hmem := mem_addrs_join (d := g.side).mpr (Or.inr (Or.inr ha) :
        _ = g.label.addr ∨ _ ∈ addrs A ∨ _ ∈ addrs g.sibling)
      exact hS₂ a (hygS a hmem) fun h => hygA (h ▸ hmem)
  have hng₂ : h₂.cells g.label.addr = some ng := by rw [hS₂ _ hgS hyg.symm, hng₁]
  have hseg₂ : RepSeg h₂ (some g.label.addr) (fs ++ [⟨d, y, O⟩]) (rootPtr (g.fill A)) := by
    refine repSeg_concat.mpr ⟨hfs₂, ⟨ny₂, hny₂, ?_⟩, hO₂, trivial⟩
    rw [segRoot_rootPtr]
    exact hcy₂
  have hctx₂ : RepCtx { s with heap := h₂ } c (some x.addr) := by
    refine hctx.frame rfl fun a ha => hout₂ a ?_ ?_
    · exact fun h => hdisj a (mem_addrs_join.mpr (Or.inr (Or.inl h))) ha
    · exact fun h => hdisj a (mem_addrs_join.mpr (Or.inr (Or.inr h))) ha
  have hnext : getParentFwdPtr ({ s with heap := h₂ } : TreeMem β) (some y.addr) =
      .ok (some (slotOf ((fs ++ [⟨d, y, O⟩]) ++ c))) := by
    have hgO : g.label.addr ∉ addrs O := hSO _ hgS
    have hroot : rootPtr (g.fill A) = some g.label.addr := rootPtr_join _ _ _ _
    rw [hroot] at hseg₂
    cases fs with
    | nil =>
        refine getParentFwdPtr_of_segment (g := ⟨d, y, O⟩) hny₂ hcy₂.parent hng₂ hcg.parent
          hseg₂ ?_
        simp [ctxAddrs, hgO, hyg.symm]
    | cons f fs =>
        refine getParentFwdPtr_of_segment (g := f) hny₂ hcy₂.parent hng₂ hcg.parent hseg₂ ?_
        intro h
        rcases ctxAddrs_append_singleton (l := f :: fs) h with h | h | h
        exacts [hgfs h, hyg h.symm, hgO h]
  refine ⟨{ s with heap := h₂ }, slotOf ((fs ++ [⟨d, y, O⟩]) ++ c), ?_, fs ++ [⟨d, y, O⟩],
    g.fill A, some g.label.addr, _, BinTree.join_ne_nil _ _ _ _, ?_, rfl, hseg₂, ?_, ?_, ?_,
    hnear, hup, hdown, hctx₂, nx, ?_, hcx.parent⟩
  · simp only [spliceNeighbour, Heap.load_cell hnx, ok_bind, hcx.near, hrun, hcx.far, hswap]
    rw [← bind_assoc, hrehang, ok_bind, hnext]
    rfl
  · rw [fill_append]
    exact rootPtr_join _ _ _ _
  · cases fs with
    | nil => exact hgA₂
    | cons f fs => exact hgA₂
  · rw [fill_append]
    exact @toList_join_outermost β d (g :: fs) y A O hside
  · rw [List.append_assoc]
    exact fits_relabel x y hfit
  · rw [hout₂ _ hxS hxO, hnx]

/-- **The replacement.**  The first half of `delete_node_at_ptr` at a node with two
successors, the one on side `d` not being the lower one. -/
theorem spliceNeighbour_spec {s : TreeMem β} {c : List (Frame (Label β))} {d : Side}
    {S : BinTree (Label β)} {x : Label β} {O : BinTree (Label β)}
    (hs : Holds s (fill c (BinTree.join d S x O))) (hS : S ≠ .nil) :
    ∃ s' p slot, spliceNeighbour d s (slotOf c) (some x.addr) = .ok (p, slot, s') ∧
      p.isSome ∧ Spliced s' c x (beside d S O) p slot := by
  obtain ⟨hctx, hrep⟩ := repCtx_of_rep hs.rep hs.root
  rw [rootPtr_join] at hctx
  obtain ⟨_, hrepS, _⟩ := rep_join.mp hrep
  have hfuel : S.height ≤ s.heap.bound := by
    have hlen : _ ≤ (fill c (BinTree.join d S x O)).toList.length :=
      length_toList_fill (⟨d, x, O⟩ :: c) S
    have hall := length_le_bound hs
    have hheight := height_le_length S
    omega
  obtain ⟨fs, y, A, rfl, hside, hrun⟩ := outermost_spec (e := d.flip) hfuel hS hrepS
  cases fs with
  | nil =>
      obtain ⟨s', hrun', hsp⟩ := spliceNeighbour_direct hctx hrep hs.nodup hs.balanced
        (by rwa [fill, rootPtr_join] at hrun)
      exact ⟨s', _, _, hrun', rfl, hsp⟩
  | cons g fs =>
      obtain ⟨s', slot, hrun', hsp⟩ := spliceNeighbour_deep hside hctx hrep hs.nodup
        (length_le_of_isSearchTree hs.search) hs.balanced hrun
      exact ⟨s', _, _, hrun', rfl, hsp⟩

/-! ## The second half -/

/-- What remains of a stored tree without one of its labels. -/
theorem holds_without {s : TreeMem β} {c : List (Frame (Label β))} {l : BinTree (Label β)}
    {x : Label β} {r v : BinTree (Label β)} (hs : Holds s (fill c (.node l x r)))
    (hv : v.toList = before c ++ (l.toList ++ r.toList) ++ after c) :
    (addrs v).Nodup ∧ IsSearchTree idKey v ∧ x.addr ∉ addrs v ∧
      v.toList.length < (fill c (.node l x r)).toList.length := by
  have hlist : (fill c (.node l x r)).toList =
      (before c ++ l.toList) ++ x :: (r.toList ++ after c) := by
    simp [toList_fill]
  have hv' : v.toList = (before c ++ l.toList) ++ (r.toList ++ after c) := by
    simp [hv]
  have hsub : v.toList.Sublist (fill c (.node l x r)).toList := by
    rw [hlist, hv']
    exact (List.sublist_cons_self _ _).append_left _
  have hnd := hs.nodup
  refine ⟨hnd.sublist (hsub.map _), List.Pairwise.sublist hsub hs.search, ?_, ?_⟩
  · rw [addrs, hlist, List.map_append, List.map_cons, List.nodup_middle, List.nodup_cons] at hnd
    rw [addrs, hv', List.map_append]
    exact hnd.1
  · rw [hlist, hv']
    simp

/-- The climb from a position, followed by the release of the deleted node. -/
theorem rebalance_release {s s₁ : TreeMem β} {c ctx : List (Frame (Label β))}
    {l : BinTree (Label β)} {x : Label β} {r u : BinTree (Label β)} {H : Nat} {nx : Node β}
    (hs : Holds s (fill c (.node l x r)))
    (hctx : RepCtx s₁ ctx (rootPtr u)) (hu : RepTop s₁.heap u (ctxParent ctx))
    (hne : u ≠ .nil) (hfit : Fits ctx H) (hnear : u.NearlyBalanced)
    (hup : u.rebalance.height ≤ H + 1) (hdown : H ≤ u.rebalance.height + 1)
    (hlist : (fill ctx u).toList = before c ++ (l.toList ++ r.toList) ++ after c)
    (hnx : s₁.heap.cells x.addr = some nx) :
    ∃ s₂ h', rebalanceFromNodeptr (s.heap.bound + 1) s₁ (some (slotOf ctx)) = .ok s₂ ∧
      s₂.heap.release (some x.addr) = .ok h' ∧
      Holds { s₂ with heap := h' } (climb ctx u) := by
  obtain ⟨hnd, hst, hxnot, hlt⟩ := holds_without hs hlist
  have hfuel : ctx.length + 2 ≤ s.heap.bound + 1 := by
    have hlen := length_toList_fill ctx u
    have hpos : 0 < u.toList.length := by
      cases u with
      | nil => exact absurd rfl hne
      | node u₁ z u₂ => simp
    have hall := length_le_bound hs
    omega
  obtain ⟨s₂, hrun, hrep₂, hroot₂, hsame⟩ := rebalanceFromNodeptr_spec hfuel hctx hu hne hnd
    (length_le_of_isSearchTree hst) hfit hnear hup hdown
  have hclimb : addrs (climb ctx u) = addrs (fill ctx u) := by
    rw [addrs, addrs, toList_climb]
  refine ⟨s₂, s₂.heap.erase x.addr, hrun,
    Heap.release_cell ((hsame _ hxnot).trans hnx), ⟨?_, hroot₂, ?_, ?_, ?_⟩⟩
  · refine hrep₂.frame fun a ha => ?_
    have hax : a ≠ x.addr := by
      rintro rfl
      exact hxnot (hclimb ▸ ha)
    simp [hax]
  · rwa [hclimb]
  · exact balanced_climb hfit hnear hup hdown
  · rwa [IsSearchTree, toList_climb]

/-- Both halves of `delete_node_at_ptr`, when there is a replacement. -/
theorem replace_release {s s₁ : TreeMem β} {c : List (Frame (Label β))} {l : BinTree (Label β)}
    {x : Label β} {r : BinTree (Label β)} {p : Ptr} {start : Slot}
    (hs : Holds s (fill c (.node l x r))) (hp : p.isSome)
    (hsp : Spliced s₁ c x (l.toList ++ r.toList) p start) :
    ∃ s₂ h' t', replaceAndRebalance (s.heap.bound + 1) s₁ (slotOf c) (some x.addr) p start =
        .ok s₂ ∧ s₂.heap.release (some x.addr) = .ok h' ∧ Holds { s₂ with heap := h' } t' ∧
      t'.toList = before c ++ (l.toList ++ r.toList) ++ after c := by
  obtain ⟨fs, u, q, H, hne, rfl, rfl, hseg, hu, hlist, hfit, hnear, hup, hdown, hctx, nx, hnx,
    hpar⟩ := hsp
  have hall : (fill (fs ++ c) u).toList = before c ++ (l.toList ++ r.toList) ++ after c := by
    rw [fill_append, toList_fill, hlist]
  obtain ⟨hnd, _, hxnot, _⟩ := holds_without hs hall
  rw [fill_append] at hnd hxnot
  obtain ⟨hndu, hndc, hdisj⟩ := nodup_addrs_fill.mp hnd
  obtain ⟨_, _, hxc⟩ := nodup_addrs_fill.mp hs.nodup
  have hxc : x.addr ∉ ctxAddrs c := hxc _ (by simp [addrs])
  -- `*delptr = replacement`
  obtain ⟨s₂, hassign, hctx₂, hsame₂⟩ := assign_slotOf (rootPtr (fill fs u)) hctx hndc
  have hseg₂ : RepSeg s₂.heap q fs (rootPtr u) := hseg.frame fun a ha =>
    hsame₂ a (hdisj a (mem_addrs_fill.mpr (Or.inr ha)))
  obtain ⟨u₁, z, u₂, rfl⟩ := BinTree.exists_join .left hne
  obtain ⟨⟨nz, hnz, hcz⟩, hu₁, hu₂⟩ := repTop_join.mp hu
  have hsub : ∀ a ∈ addrs (BinTree.join .left u₁ z u₂), s₂.heap.cells a = s₁.heap.cells a :=
    fun a ha => hsame₂ a (hdisj a (mem_addrs_fill.mpr (Or.inl ha)))
  have hu' : RepTop s₂.heap (BinTree.join .left u₁ z u₂) (segParent q fs) := by
    refine repTop_join.mpr ⟨⟨nz, ?_, hcz⟩, hu₁.frame fun a ha => ?_, hu₂.frame fun a ha => ?_⟩
    · rw [hsub _ (mem_addrs_join.mpr (Or.inl rfl)), hnz]
    · exact hsub a (mem_addrs_join.mpr (Or.inr (Or.inl ha)))
    · exact hsub a (mem_addrs_join.mpr (Or.inr (Or.inr ha)))
  have hnx₂ : s₂.heap.cells x.addr = some nx := by rw [hsame₂ _ hxc, hnx]
  -- `replacement->parent = del->parent`
  obtain ⟨h₃, hrun₃, hseg₃, hu₃, hsame₃⟩ :=
    hangUnder_segment (ctxParent c) hseg₂ hu' hne hndu
  have hctx₃ : RepCtx { s₂ with heap := h₃ } c (rootPtr (fill fs (BinTree.join .left u₁ z u₂))) :=
    hctx₂.frame rfl fun a ha => hsame₃ a fun h => hdisj a h ha
  have hnx₃ : h₃.cells x.addr = some nx := by
    rw [hsame₃ _ fun h => hxnot (mem_addrs_fill.mpr (Or.inl h)), hnx₂]
  have hctx₄ : RepCtx { s₂ with heap := h₃ } (fs ++ c) (rootPtr (BinTree.join .left u₁ z u₂)) :=
    repCtx_append.mpr ⟨hseg₃, by rw [segRoot_rootPtr]; exact hctx₃⟩
  obtain ⟨s₄, h', hrun, hrel, hholds⟩ := rebalance_release hs hctx₄
    (by rw [segParent_ctxParent]; exact hu₃) hne hfit hnear hup hdown hall hnx₃
  refine ⟨s₄, h', _, ?_, hrel, hholds, by rw [toList_climb, hall]⟩
  have hmod : s₂.heap.modify (rootPtr (fill fs (BinTree.join .left u₁ z u₂)))
      (·.setParent nx.parent) = .ok h₃ := by
    rw [hangUnder, if_pos hp, ← hpar] at hrun₃
    exact hrun₃
  simp only [replaceAndRebalance, hassign, ok_bind, Heap.load_cell hnx₂, hp, if_true, hmod, hrun]

/-- Both halves of `delete_node_at_ptr` at a node without successors. -/
theorem deleteLeaf {s : TreeMem β} {c : List (Frame (Label β))} {x : Label β}
    (hs : Holds s (fill c (.node .nil x .nil))) :
    ∃ s₂ h' t', replaceAndRebalance (s.heap.bound + 1) s (slotOf c) (some x.addr) none
        (slotOf c) = .ok s₂ ∧
      s₂.heap.release (some x.addr) = .ok h' ∧ Holds { s₂ with heap := h' } t' ∧
      t'.toList = before c ++ after c := by
  obtain ⟨hctx, ⟨nx, hnx, hcell, _⟩, _, _⟩ := repCtx_of_rep hs.rep hs.root
  obtain ⟨_, hndc, hdisj⟩ := nodup_addrs_fill.mp hs.nodup
  have hxc : x.addr ∉ ctxAddrs c := hdisj _ (by simp [addrs])
  obtain ⟨s₂, hassign, hctx₂, hsame₂⟩ := assign_slotOf none hctx hndc
  have hnx₂ : s₂.heap.cells x.addr = some nx := by rw [hsame₂ _ hxc, hnx]
  cases c with
  | nil =>
      have hpar : nx.parent = none := hcell.parent
      refine ⟨s₂, s₂.heap.erase x.addr, .nil, ?_, Heap.release_cell hnx₂,
        ⟨trivial, hctx₂, by simp, trivial, by simp [IsSearchTree]⟩, rfl⟩
      simp [replaceAndRebalance, hassign, Heap.load_cell hnx₂, hpar, pure, Except.pure]
  | cons f c =>
      have hpar : nx.parent = some f.label.addr := hcell.parent
      obtain ⟨⟨nf, hnf, hcf⟩, hsib, hrest⟩ := id hctx₂
      obtain ⟨hfnot, _⟩ := List.nodup_cons.mp hndc
      have hnext : getParentFwdPtr s₂ (some x.addr) = .ok (some (slotOf c)) :=
        getParentFwdPtr_of_parent hnx₂ hpar hnf hcf.parent hrest
          fun h => hfnot (List.mem_append_right _ h)
      -- the parent lost a subtree of height one
      have hbal := hs.balanced
      rw [balanced_fill_iff] at hbal
      obtain ⟨_, hbsib, hle, hge, hfit⟩ := hbal
      have hnil : (BinTree.nil : BinTree (Label β)).rebalance = .nil :=
        BinTree.rebalance_of_balanced trivial
      obtain ⟨hnear, hup, hdown⟩ := climb_step (f := f) (t := .nil) hbsib hle hge
        (BinTree.Balanced.nearlyBalanced trivial) (by rw [hnil]; simp) (by rw [hnil]; simp)
      rw [hnil] at hnear hup hdown
      have hall : (fill c (f.fill .nil)).toList =
          before (f :: c) ++ (([] : List (Label β)) ++ []) ++ after (f :: c) :=
        toList_fill (f :: c) .nil
      obtain ⟨s₄, h', hrun, hrel, hholds⟩ := rebalance_release (l := .nil) (r := .nil)
        (u := f.fill .nil) hs (by rw [Frame.fill, rootPtr_join]; exact hrest)
        (repTop_join.mpr ⟨⟨nf, hnf, hcf⟩, trivial, hsib⟩) (BinTree.join_ne_nil _ _ _ _) hfit hnear
        hup hdown hall hnx₂
      refine ⟨s₄, h', _, ?_, hrel, hholds, by rw [toList_climb, hall]; simp⟩
      simp [replaceAndRebalance, hassign, Heap.load_cell hnx₂, hpar, hnext, hrun]

/-- **`delete_node_at_ptr`** removes exactly the node in its slot: no assertion
fails, and the invariants hold again for a tree with the other labels in the
same order. -/
theorem deleteNodeAtPtr_spec {s : TreeMem β} {c : List (Frame (Label β))}
    {l : BinTree (Label β)} {x : Label β} {r : BinTree (Label β)}
    (hs : Holds s (fill c (.node l x r))) :
    ∃ s' t', deleteNodeAtPtr s (slotOf c) = .ok s' ∧ Holds s' t' ∧
      t'.toList = before c ++ (l.toList ++ r.toList) ++ after c := by
  obtain ⟨hctx, hrep⟩ := repCtx_of_rep hs.rep hs.root
  have hderef : s.deref (slotOf c) = .ok (some x.addr) := deref_slotOf hctx
  obtain ⟨⟨nx, hnx, hcell, hheight⟩, hl, hr⟩ := id hrep
  have hleft : nx.successor .left = rootPtr l := hcell.near
  have hright : nx.successor .right = rootPtr r := hcell.far
  -- it is enough to find a replacement that can take the place of the node
  have key : ∀ p start s₁, determineReplacement s (slotOf c) (some x.addr) =
      .ok (p, start, s₁) → p.isSome → Spliced s₁ c x (l.toList ++ r.toList) p start →
      ∃ s' t', deleteNodeAtPtr s (slotOf c) = .ok s' ∧ Holds s' t' ∧
        t'.toList = before c ++ (l.toList ++ r.toList) ++ after c := by
    intro p start s₁ hdet hp hsp
    obtain ⟨s₂, h', t', hrep, hrel, hholds, hlist⟩ := replace_release hs hp hsp
    refine ⟨{ s₂ with heap := h' }, t', ?_, hholds, hlist⟩
    simp [deleteNodeAtPtr, hderef, hdet, hrep, hrel, pure, Except.pure]
  -- a single subtree replaces the node
  have single : ∀ (d : Side) (u : BinTree (Label β)), u ≠ .nil →
      BinTree.node l x r = BinTree.join d u x .nil → l.toList ++ r.toList = u.toList →
      Spliced s c x (l.toList ++ r.toList) (rootPtr u) (slotOf c) := by
    intro d u hne hj hlist
    have hbal := hs.balanced
    rw [hj, balanced_fill_iff, BinTree.balanced_join] at hbal
    obtain ⟨⟨hbu, _, _, _⟩, hfit⟩ := hbal
    rw [hj, rep_join] at hrep
    have hhj : (BinTree.join d u x .nil).height = 1 + u.height := by simp
    rw [hhj] at hfit
    refine ⟨[], u, some x.addr, _, hne, rfl, rfl, trivial, hrep.2.1.repTop, hlist.symm, hfit,
      hbu.nearlyBalanced, ?_, ?_, hctx, nx, hnx, hcell.parent⟩
    · rw [BinTree.rebalance_of_balanced hbu]; omega
    · rw [BinTree.rebalance_of_balanced hbu]; omega
  cases l with
  | nil =>
      cases r with
      | nil =>
          obtain ⟨s₂, h', t', hrun, hrel, hholds, hlist⟩ := deleteLeaf hs
          refine ⟨{ s₂ with heap := h' }, t', ?_, hholds, by simpa using hlist⟩
          have hdet : determineReplacement s (slotOf c) (some x.addr) =
              .ok (none, slotOf c, s) := by
            simp [determineReplacement, Heap.load_cell hnx, hleft, hright, pure, Except.pure]
          simp [deleteNodeAtPtr, hderef, hdet, hrun, hrel, pure, Except.pure]
      | node r₁ z r₂ =>
          refine key (some z.addr) (slotOf c) s ?_ rfl
            (single .right (.node r₁ z r₂) (by simp) rfl (by simp))
          simp [determineReplacement, Heap.load_cell hnx, hleft, hright, rootPtr, pure,
            Except.pure]
  | node l₁ z l₂ =>
      cases r with
      | nil =>
          refine key (some z.addr) (slotOf c) s ?_ rfl
            (single .left (.node l₁ z l₂) (by simp) rfl (by simp))
          simp [determineReplacement, Heap.load_cell hnx, hleft, hright, rootPtr, pure,
            Except.pure]
      | node r₁ w r₂ =>
          have hhl : heightOf s.heap (some z.addr) = .ok _ := heightOf_rep hl
          have hhr : heightOf s.heap (some w.addr) = .ok _ := heightOf_rep hr
          by_cases hge : (BinTree.node r₁ w r₂).height ≤ (BinTree.node l₁ z l₂).height
          · obtain ⟨s₁, p, slot, hrun, hp, hsp⟩ := spliceNeighbour_spec (d := .left) hs (by simp)
            refine key p slot s₁ ?_ hp hsp
            have hge' : ((BinTree.node l₁ z l₂).height : Int) ≥ (BinTree.node r₁ w r₂).height :=
              Int.ofNat_le.mpr hge
            simp only [determineReplacement, Heap.load_cell hnx, ok_bind, hleft, hright, rootPtr,
              hhl, hhr, if_pos hge', hrun]
          · obtain ⟨s₁, p, slot, hrun, hp, hsp⟩ := spliceNeighbour_spec (d := .right) hs (by simp)
            refine key p slot s₁ ?_ hp hsp
            have hge' : ¬ ((BinTree.node l₁ z l₂).height : Int) ≥ (BinTree.node r₁ w r₂).height :=
              fun h => hge (Int.ofNat_le.mp h)
            simp only [determineReplacement, Heap.load_cell hnx, ok_bind, hleft, hright, rootPtr,
              hhl, hhr, if_neg hge', hrun]

end BundleStorage
