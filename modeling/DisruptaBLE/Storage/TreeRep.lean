import DisruptaBLE.Storage.Tree

/-!
# Trees in memory

`Rep h t par` says that the nodes reachable from the root of `t` are stored in
the heap `h` exactly as the tree `t` describes, that the parent field of the
root is `par`, every other parent field is the inverse of the successor field
leading to the node, and every stored height is the real one.  `RepTop` leaves
the stored height of the root open: this is how a node looks before
`recalc_height` reaches it.

The labels of a tree carry the address of their node, so that the shape of the
memory is a function of the tree.
-/

namespace BundleStorage

open PtrHeap AvlTree

variable {β : Type}

/-- What a node of the tree stores, and where. -/
structure Label (β : Type) where
  addr : Addr
  id : UInt16
  bundle : β

/-- The pointer to the root. -/
def rootPtr : BinTree (Label β) → Ptr
  | .nil => none
  | .node _ x _ => some x.addr

/-- The addresses of the nodes, in order. -/
def addrs (t : BinTree (Label β)) : List Addr := t.toList.map Label.addr

/-- A node holds a label, its parent field is `par`, its successor on side `d`
is `p` and the other one is `q`. -/
structure Cell (n : Node β) (x : Label β) (par : Ptr) (d : Side) (p q : Ptr) : Prop where
  id : n.id = x.id
  bundle : n.bundle = x.bundle
  parent : n.parent = par
  near : n.successor d = p
  far : n.successor d.flip = q

theorem Cell.mirror {n : Node β} {x : Label β} {par : Ptr} {d : Side} {p q : Ptr}
    (h : Cell n x par d p q) : Cell n x par d.flip q p :=
  ⟨h.id, h.bundle, h.parent, h.far, by rw [Side.flip_flip]; exact h.near⟩

/-- The heap stores the tree, with exact heights. -/
def Rep (h : Heap (Node β)) : BinTree (Label β) → Ptr → Prop
  | .nil, _ => True
  | .node l x r, par =>
      (∃ n, h.cells x.addr = some n ∧ Cell n x par .left (rootPtr l) (rootPtr r) ∧
        n.height = (BinTree.node l x r).height) ∧
      Rep h l (some x.addr) ∧ Rep h r (some x.addr)

/-- The heap stores the tree; the height stored in its root is arbitrary. -/
def RepTop (h : Heap (Node β)) : BinTree (Label β) → Ptr → Prop
  | .nil, _ => True
  | .node l x r, par =>
      (∃ n, h.cells x.addr = some n ∧ Cell n x par .left (rootPtr l) (rootPtr r)) ∧
      Rep h l (some x.addr) ∧ Rep h r (some x.addr)

@[simp] theorem rootPtr_nil : rootPtr (.nil : BinTree (Label β)) = none := rfl

@[simp] theorem rootPtr_join (d : Side) (s : BinTree (Label β)) (x : Label β)
    (t : BinTree (Label β)) : rootPtr (BinTree.join d s x t) = some x.addr := by
  cases d <;> rfl

@[simp] theorem addrs_nil : addrs (.nil : BinTree (Label β)) = [] := rfl

theorem mem_addrs_join {d : Side} {s : BinTree (Label β)} {x : Label β} {t : BinTree (Label β)}
    {a : Addr} :
    a ∈ addrs (BinTree.join d s x t) ↔ a = x.addr ∨ a ∈ addrs s ∨ a ∈ addrs t := by
  cases d <;> simp [addrs, BinTree.join]
  all_goals grind

theorem nodup_addrs_join {d : Side} {s : BinTree (Label β)} {x : Label β}
    {t : BinTree (Label β)} :
    (addrs (BinTree.join d s x t)).Nodup ↔
      x.addr ∉ addrs s ∧ x.addr ∉ addrs t ∧ (addrs s).Nodup ∧ (addrs t).Nodup ∧
        ∀ a ∈ addrs s, a ∉ addrs t := by
  cases d <;>
    simp only [addrs, BinTree.join, BinTree.toList_node, List.map_append, List.map_cons,
      List.nodup_append, List.nodup_cons, List.mem_cons]
  all_goals grind

theorem rootPtr_eq_some_mem {t : BinTree (Label β)} {a : Addr} (h : rootPtr t = some a) :
    a ∈ addrs t := by
  cases t with
  | nil => simp at h
  | node l x r =>
      have hx : x.addr = a := by simpa [rootPtr] using h
      simp [addrs, hx]

theorem rootPtr_isNone {t : BinTree (Label β)} (ht : t ≠ .nil) :
    (rootPtr t).isNone = false := by
  cases t with
  | nil => exact absurd rfl ht
  | node l x r => rfl

theorem rep_join {h : Heap (Node β)} {d : Side} {s : BinTree (Label β)} {x : Label β}
    {t : BinTree (Label β)} {par : Ptr} :
    Rep h (BinTree.join d s x t) par ↔
      (∃ n, h.cells x.addr = some n ∧ Cell n x par d (rootPtr s) (rootPtr t) ∧
        n.height = (BinTree.join d s x t).height) ∧
      Rep h s (some x.addr) ∧ Rep h t (some x.addr) := by
  cases d with
  | left => rfl
  | right =>
      constructor
      · rintro ⟨⟨n, hn, hc, hh⟩, hl, hr⟩
        exact ⟨⟨n, hn, hc.mirror, hh⟩, hr, hl⟩
      · rintro ⟨⟨n, hn, hc, hh⟩, hl, hr⟩
        exact ⟨⟨n, hn, hc.mirror, hh⟩, hr, hl⟩

theorem repTop_join {h : Heap (Node β)} {d : Side} {s : BinTree (Label β)} {x : Label β}
    {t : BinTree (Label β)} {par : Ptr} :
    RepTop h (BinTree.join d s x t) par ↔
      (∃ n, h.cells x.addr = some n ∧ Cell n x par d (rootPtr s) (rootPtr t)) ∧
      Rep h s (some x.addr) ∧ Rep h t (some x.addr) := by
  cases d with
  | left => rfl
  | right =>
      constructor
      · rintro ⟨⟨n, hn, hc⟩, hl, hr⟩
        exact ⟨⟨n, hn, hc.mirror⟩, hr, hl⟩
      · rintro ⟨⟨n, hn, hc⟩, hl, hr⟩
        exact ⟨⟨n, hn, hc.mirror⟩, hr, hl⟩

theorem Rep.repTop {h : Heap (Node β)} {t : BinTree (Label β)} {par : Ptr}
    (ht : Rep h t par) : RepTop h t par := by
  cases t with
  | nil => trivial
  | node l x r =>
      obtain ⟨⟨n, hn, hc, _⟩, hl, hr⟩ := ht
      exact ⟨⟨n, hn, hc⟩, hl, hr⟩

/-- **Frame.**  What a tree in memory says depends only on its own cells. -/
theorem Rep.frame {h h' : Heap (Node β)} {t : BinTree (Label β)} {par : Ptr}
    (ht : Rep h t par) (hsame : ∀ a ∈ addrs t, h'.cells a = h.cells a) :
    Rep h' t par := by
  induction t generalizing par with
  | nil => trivial
  | node l x r ihl ihr =>
      obtain ⟨⟨n, hn, hc, hh⟩, hl, hr⟩ := ht
      have hmem := fun a => mem_addrs_join (d := .left) (s := l) (x := x) (t := r) (a := a)
      refine ⟨⟨n, ?_, hc, hh⟩, ihl hl ?_, ihr hr ?_⟩
      · rw [hsame _ ((hmem _).mpr (Or.inl rfl)), hn]
      · exact fun a ha => hsame a ((hmem a).mpr (Or.inr (Or.inl ha)))
      · exact fun a ha => hsame a ((hmem a).mpr (Or.inr (Or.inr ha)))

theorem Rep.set {h : Heap (Node β)} {t : BinTree (Label β)} {par : Ptr} {a : Addr}
    {v : Node β} (ht : Rep h t par) (ha : a ∉ addrs t) : Rep (h.set a v) t par := by
  refine ht.frame fun b hb => ?_
  have hne : b ≠ a := fun h => ha (h ▸ hb)
  simp [hne]

/-- Every node of a tree in memory is live. -/
theorem RepTop.live {h : Heap (Node β)} {t : BinTree (Label β)} {par : Ptr}
    (ht : RepTop h t par) : ∀ a ∈ addrs t, (h.cells a).isSome := by
  have hrep : ∀ {t : BinTree (Label β)} {par : Ptr}, Rep h t par →
      ∀ a ∈ addrs t, (h.cells a).isSome := by
    intro t
    induction t with
    | nil => intro _ _ a ha; simp at ha
    | node l x r ihl ihr =>
        rintro par ⟨⟨n, hn, _, _⟩, hl, hr⟩ a ha
        rcases mem_addrs_join (d := .left).mp ha with rfl | ha | ha
        · simp [hn]
        · exact ihl hl a ha
        · exact ihr hr a ha
  cases t with
  | nil => intro a ha; simp at ha
  | node l x r =>
      obtain ⟨⟨n, hn, _⟩, hl, hr⟩ := ht
      intro a ha
      rcases mem_addrs_join (d := .left).mp ha with rfl | ha | ha
      · simp [hn]
      · exact hrep hl a ha
      · exact hrep hr a ha

/-- The root of a tree may be hung under another parent. -/
theorem Rep.setParent {h : Heap (Node β)} {t : BinTree (Label β)} {par q : Ptr}
    (ht : Rep h t par) (hnd : (addrs t).Nodup) {a : Addr} {n : Node β}
    (ha : rootPtr t = some a) (hn : h.cells a = some n) :
    Rep (h.set a (n.setParent q)) t q := by
  cases t with
  | nil => simp at ha
  | node l x r =>
      obtain rfl : x.addr = a := by simpa [rootPtr] using ha
      obtain ⟨⟨m, hm, hc, hh⟩, hl, hr⟩ := ht
      obtain rfl : m = n := Option.some.inj (hm.symm.trans hn)
      obtain ⟨hxl, hxr, _⟩ := (nodup_addrs_join (d := .left)).mp hnd
      refine ⟨⟨m.setParent q, by simp, ⟨hc.id, hc.bundle, rfl, hc.near, hc.far⟩, hh⟩,
        hl.set hxl, hr.set hxr⟩

/-! ## Heights -/

/-- The largest height of a tree whose nodes are counted by 16-bit ids lies far
below the range of `int8_t`. -/
theorem height_le_of_length {t : BinTree (Label β)} (hb : t.Balanced)
    (hlen : t.toList.length ≤ 65536) : t.height ≤ 23 := by
  by_contra hgt
  have hfib := BinTree.fib_le_size hb
  have hmono : Nat.fib 26 ≤ Nat.fib (t.height + 2) := Nat.fib_mono (by omega)
  have h26 : Nat.fib 26 = 121393 := by decide +kernel
  omega

theorem heightOf_rep {h : Heap (Node β)} {t : BinTree (Label β)} {par : Ptr}
    (ht : Rep h t par) : heightOf h (rootPtr t) = .ok (t.height : Int) := by
  cases t with
  | nil => rfl
  | node l x r =>
      obtain ⟨⟨n, hn, _, hh⟩, _, _⟩ := ht
      simp [rootPtr, heightOf, Heap.load_cell hn, hh, pure, Except.pure]

/-- `get_balance` of a node with exact successors. -/
theorem getBalance_repTop {h : Heap (Node β)} {l : BinTree (Label β)} {x : Label β}
    {r : BinTree (Label β)} {par : Ptr} (ht : RepTop h (.node l x r) par) :
    getBalance h (some x.addr) = .ok ((l.height : Int) - r.height) := by
  obtain ⟨⟨n, hn, hc⟩, hl, hr⟩ := ht
  have hleft := hc.near
  have hright := hc.far
  simp only [Side.flip] at hright
  simp [getBalance, Heap.load_cell hn, hleft, hright, heightOf_rep hl, heightOf_rep hr,
    pure, Except.pure]

/-- `recalc_height` makes the stored height of a node exact and changes nothing
else. -/
theorem recalcHeight_repTop {h : Heap (Node β)} {d : Side} {s : BinTree (Label β)}
    {x : Label β} {t : BinTree (Label β)} {par : Ptr}
    (ht : RepTop h (BinTree.join d s x t) par)
    (hnd : (addrs (BinTree.join d s x t)).Nodup)
    (hhi : (BinTree.join d s x t).height ≤ 127) :
    ∃ h', recalcHeight h (some x.addr) = .ok h' ∧ Rep h' (BinTree.join d s x t) par ∧
      ∀ a, a ≠ x.addr → h'.cells a = h.cells a := by
  obtain ⟨⟨n, hn, hc⟩, hs, ht⟩ := repTop_join.mp ht
  obtain ⟨hxs, hxt, _⟩ := nodup_addrs_join.mp hnd
  rw [BinTree.height_join] at hhi
  have hmax : ∃ l r, heightOf h (n.successor .left) = .ok l ∧
      heightOf h (n.successor .right) = .ok r ∧
      1 + max l r = ((BinTree.join d s x t).height : Int) := by
    have hhs := heightOf_rep hs
    have hht := heightOf_rep ht
    rw [← hc.near] at hhs
    rw [← hc.far] at hht
    cases d with
    | left => exact ⟨_, _, hhs, hht, by rw [BinTree.height_join]; omega⟩
    | right => exact ⟨_, _, hht, hhs, by rw [BinTree.height_join]; omega⟩
  obtain ⟨l, r, hl, hr, hheight⟩ := hmax
  refine ⟨h.set x.addr { n with height := int8 (1 + max l r) }, ?_, ?_, ?_⟩
  · simp [recalcHeight, Heap.load_cell hn, hl, hr, Heap.modify_cell hn]
  · refine rep_join.mpr ⟨⟨{ n with height := int8 (1 + max l r) }, by simp,
      ⟨hc.id, hc.bundle, hc.parent, hc.near, hc.far⟩, ?_⟩, hs.set hxs, ht.set hxt⟩
    rw [BinTree.height_join] at hheight
    rw [hheight, int8_of_small (by omega) (by omega), BinTree.height_join]
  · intro a ha
    simp [ha]

/-- `if (p != NULL) p->parent = q;` hangs a subtree under another parent. -/
theorem hangUnder_spec {h : Heap (Node β)} {t : BinTree (Label β)} {par : Ptr} (q : Ptr)
    (ht : Rep h t par) (hnd : (addrs t).Nodup) :
    ∃ h', hangUnder h (rootPtr t) q = .ok h' ∧
      Rep h' t q ∧ ∀ a, a ∉ addrs t → h'.cells a = h.cells a := by
  cases t with
  | nil => exact ⟨h, rfl, trivial, fun _ _ => rfl⟩
  | node l x r =>
      obtain ⟨⟨n, hn, _, _⟩, _, _⟩ := id ht
      refine ⟨h.set x.addr (n.setParent q), ?_, ht.setParent hnd rfl hn, ?_⟩
      · simp [hangUnder, rootPtr, Heap.modify_cell hn]
      · intro a ha
        have hne : a ≠ x.addr := by
          rintro rfl
          exact ha (rootPtr_eq_some_mem rfl)
        simp [hne]

/-- **A rotation in memory is the rotation of the tree.**  The height stored
in the old top may be stale; afterwards all heights are exact. -/
theorem rotate_spec {h : Heap (Node β)} {d : Side} {a : BinTree (Label β)} {y : Label β}
    {b : BinTree (Label β)} {x : Label β} {c : BinTree (Label β)} {par : Ptr}
    (ht : RepTop h (BinTree.join d (BinTree.join d a y b) x c) par)
    (hnd : (addrs (BinTree.join d (BinTree.join d a y b) x c)).Nodup)
    (hhi : (BinTree.join d (BinTree.join d a y b) x c).height ≤ 126) :
    ∃ h', rotate d h (some x.addr) = .ok (some y.addr, h') ∧
      Rep h' (BinTree.join d a y (BinTree.join d b x c)) par ∧
      ∀ e, e ∉ addrs (BinTree.join d (BinTree.join d a y b) x c) → h'.cells e = h.cells e := by
  obtain ⟨⟨nx, hnx, hcx⟩, hy, hc⟩ := repTop_join.mp ht
  obtain ⟨⟨ny, hny, hcy, _⟩, ha, hb⟩ := rep_join.mp hy
  rw [rootPtr_join] at hcx
  obtain ⟨hxy, hxc, hndy, hndc, hyc⟩ := nodup_addrs_join.mp hnd
  obtain ⟨hya, hyb, hnda, hndb, hab⟩ := nodup_addrs_join.mp hndy
  have hmemy := fun e => mem_addrs_join (d := d) (s := a) (x := y) (t := b) (a := e)
  have hne : y.addr ≠ x.addr := fun h => hxy ((hmemy _).mpr (Or.inl h.symm))
  have hxa : x.addr ∉ addrs a := fun h => hxy ((hmemy _).mpr (Or.inr (Or.inl h)))
  have hxb : x.addr ∉ addrs b := fun h => hxy ((hmemy _).mpr (Or.inr (Or.inr h)))
  have hyc' : y.addr ∉ addrs c := hyc _ ((hmemy _).mpr (Or.inl rfl))
  have hbc : ∀ e ∈ addrs b, e ∉ addrs c := fun e he =>
    hyc e ((hmemy e).mpr (Or.inr (Or.inr he)))
  -- the four assignments to the two tops
  let nx' := (nx.setParent (some y.addr)).setSuccessor d (rootPtr b)
  let ny' := (ny.setSuccessor d.flip (some x.addr)).setParent nx.parent
  let h₄ := (((h.set y.addr (ny.setSuccessor d.flip (some x.addr))).set y.addr ny').set
    x.addr (nx.setParent (some y.addr))).set x.addr nx'
  have hcells₄ : ∀ e, h₄.cells e = if e = x.addr then some nx' else
      if e = y.addr then some ny' else h.cells e := by
    intro e
    by_cases hex : e = x.addr
    · simp [h₄, hex]
    · by_cases hey : e = y.addr <;> simp [h₄, hex, hey, hne]
  have hother₄ : ∀ e, e ≠ x.addr → e ≠ y.addr → h₄.cells e = h.cells e := by
    intro e hex hey
    simp [hcells₄, hex, hey]
  have hb₄ : Rep h₄ b (some y.addr) := hb.frame fun e he =>
    hother₄ e (fun h => hxb (h ▸ he)) (fun h => hyb (h ▸ he))
  -- the middle subtree is hung under the old top
  obtain ⟨h₅, hrun₅, hb₅, hother₅⟩ := hangUnder_spec (some x.addr) hb₄ hndb
  have hsame₅ : ∀ e, e ∉ addrs b → e ≠ x.addr → e ≠ y.addr → h₅.cells e = h.cells e :=
    fun e he hex hey => (hother₅ e he).trans (hother₄ e hex hey)
  have ha₅ : Rep h₅ a (some y.addr) := ha.frame fun e he =>
    hsame₅ e (hab e he) (fun h => hxa (h ▸ he)) (fun h => hya (h ▸ he))
  have hc₅ : Rep h₅ c (some x.addr) := hc.frame fun e he =>
    hsame₅ e (fun h => hbc e h he) (fun h => hxc (h ▸ he)) (fun h => hyc' (h ▸ he))
  have hnx₅ : h₅.cells x.addr = some nx' := by simp [hother₅ _ hxb, hcells₄]
  have hny₅ : h₅.cells y.addr = some ny' := by simp [hother₅ _ hyb, hcells₄, hne]
  have hndbx : (addrs (BinTree.join d b x c)).Nodup :=
    nodup_addrs_join.mpr ⟨hxb, hxc, hndb, hndc, hbc⟩
  have hlow : RepTop h₅ (BinTree.join d b x c) (some y.addr) := by
    refine repTop_join.mpr ⟨⟨nx', hnx₅, ⟨hcx.id, hcx.bundle, rfl, ?_, ?_⟩⟩, hb₅, hc₅⟩
    · simp [nx', Node.setSuccessor]
    · simpa [nx', Node.setSuccessor, Node.setParent] using hcx.far
  rw [BinTree.height_join, BinTree.height_join] at hhi
  obtain ⟨h₆, hrun₆, hlow₆, hother₆⟩ :=
    recalcHeight_repTop hlow hndbx (by rw [BinTree.height_join]; omega)
  -- the new top
  have hya' : y.addr ∉ addrs (BinTree.join d b x c) := by
    rw [mem_addrs_join]
    rintro (h | h | h)
    exacts [hne h, hyb h, hyc' h]
  have hnda' : (addrs (BinTree.join d a y (BinTree.join d b x c))).Nodup := by
    refine nodup_addrs_join.mpr ⟨hya, hya', hnda, hndbx, ?_⟩
    intro e he hmem
    rcases mem_addrs_join.mp hmem with rfl | hmem | hmem
    · exact hxa he
    · exact hab e he hmem
    · exact hyc e ((hmemy e).mpr (Or.inr (Or.inl he))) hmem
  have htop : RepTop h₆ (BinTree.join d a y (BinTree.join d b x c)) par := by
    refine repTop_join.mpr ⟨⟨ny', ?_, ⟨hcy.id, hcy.bundle, hcx.parent, ?_, ?_⟩⟩, ?_, hlow₆⟩
    · rw [hother₆ _ hne, hny₅]
    · simpa [ny', Node.setSuccessor, Node.setParent] using hcy.near
    · simp [ny', Node.setSuccessor, Node.setParent]
    · exact ha₅.frame fun e he => hother₆ e (fun h => hxa (h ▸ he))
  obtain ⟨h₇, hrun₇, htop₇, hother₇⟩ :=
    recalcHeight_repTop htop hnda' (by rw [BinTree.height_join, BinTree.height_join]; omega)
  refine ⟨h₇, ?_, htop₇, ?_⟩
  · have hnear : nx.successor d = some y.addr := hcx.near
    have hfar : ny.successor d.flip = rootPtr b := hcy.far
    simp only [rotate, Option.isSome_some, assertC_true, ok_bind, Heap.load_cell hnx, hnear,
      Heap.load_cell hny, hfar, Heap.modify_cell hny]
    rw [Heap.modify_cell (v := ny.setSuccessor d.flip (some x.addr)) (by simp), ok_bind,
      Heap.modify_cell (v := nx) (by simp [hne.symm, hnx]), ok_bind,
      Heap.modify_cell (v := nx.setParent (some y.addr)) (by simp), ok_bind]
    change hangUnder h₄ (rootPtr b) (some x.addr) >>= _ = _
    rw [hrun₅, ok_bind, hrun₆, ok_bind, hrun₇]
    rfl
  · intro e he
    have hex : e ≠ x.addr := fun h => he (mem_addrs_join.mpr (Or.inl h))
    have hemem : e ∉ addrs (BinTree.join d a y b) :=
      fun h => he (mem_addrs_join.mpr (Or.inr (Or.inl h)))
    have hey : e ≠ y.addr := fun h => hemem ((hmemy e).mpr (Or.inl h))
    have heb : e ∉ addrs b := fun h => hemem ((hmemy e).mpr (Or.inr (Or.inr h)))
    rw [hother₇ e hey, hother₆ e hex, hsame₅ e heb hex hey]

end BundleStorage
