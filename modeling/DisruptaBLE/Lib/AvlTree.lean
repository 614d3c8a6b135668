import Mathlib.Data.Nat.Fib.Basic
import Mathlib.Order.Basic
import Mathlib.Data.List.Nodup

/-!
# Height-balanced search trees and their zippers

The mathematics of an AVL tree, over labels of any type.  Nothing is said
about how a tree is stored: a program that keeps one in memory is related to
these functions by a representation predicate of its own.

A tree is observed through its in-order list `toList`.  A position inside a
tree is a zipper: a subtree together with the frames on the way up to the
root, innermost first.  The repair after a local change is `climb`, which
rebalances at the position and then at each frame.

The main facts are:

* `toList_climb` — climbing changes no in-order list;
* `balanced_climb` — climbing restores the balance everywhere, provided that
  the subtree at the position changed its height by at most one;
* `fib_le_size` — a balanced tree is logarithmically high;
* `locate_spec` — the search of a key ends at its node, or at the only hole
  where the key may be inserted.
-/

namespace AvlTree

universe u v

/-- The two sides of a node. -/
inductive Side where
  | left
  | right
  deriving DecidableEq, Repr

/-- The opposite side. -/
def Side.flip : Side → Side
  | .left => .right
  | .right => .left

@[simp] theorem Side.flip_flip (d : Side) : d.flip.flip = d := by cases d <;> rfl

@[simp] theorem Side.flip_ne (d : Side) : d.flip ≠ d := by cases d <;> simp [flip]

@[simp] theorem Side.ne_flip (d : Side) : d ≠ d.flip := by cases d <;> simp [flip]

/-- Binary trees with labels of type `α`. -/
inductive BinTree (α : Type u) where
  | nil
  | node (l : BinTree α) (x : α) (r : BinTree α)
  deriving DecidableEq, Repr

namespace BinTree

variable {α : Type u}

/-- Number of nodes on the longest path from the root. -/
def height : BinTree α → Nat
  | nil => 0
  | node l _ r => 1 + max l.height r.height

/-- The labels in order. -/
def toList : BinTree α → List α
  | nil => []
  | node l x r => l.toList ++ x :: r.toList

/-- The child on a side; `nil` has none. -/
def child : Side → BinTree α → BinTree α
  | _, nil => nil
  | .left, node l _ _ => l
  | .right, node _ _ r => r

/-- The node with `s` on side `d` and `t` on the other side. -/
def join (d : Side) (s : BinTree α) (x : α) (t : BinTree α) : BinTree α :=
  match d with
  | .left => node s x t
  | .right => node t x s

/-- At every node the heights of the two subtrees differ by at most one. -/
def Balanced : BinTree α → Prop
  | nil => True
  | node l _ r =>
      l.Balanced ∧ r.Balanced ∧ l.height ≤ r.height + 1 ∧ r.height ≤ l.height + 1

@[simp] theorem height_nil : (nil : BinTree α).height = 0 := rfl

@[simp] theorem height_node (l : BinTree α) (x : α) (r : BinTree α) :
    (node l x r).height = 1 + max l.height r.height := rfl

@[simp] theorem toList_nil : (nil : BinTree α).toList = [] := rfl

@[simp] theorem toList_node (l : BinTree α) (x : α) (r : BinTree α) :
    (node l x r).toList = l.toList ++ x :: r.toList := rfl

@[simp] theorem child_nil (d : Side) : (nil : BinTree α).child d = nil := by
  cases d <;> rfl

@[simp] theorem child_join_self (d : Side) (s : BinTree α) (x : α) (t : BinTree α) :
    (join d s x t).child d = s := by
  cases d <;> rfl

@[simp] theorem child_join_flip (d : Side) (s : BinTree α) (x : α) (t : BinTree α) :
    (join d s x t).child d.flip = t := by
  cases d <;> rfl

@[simp] theorem join_ne_nil (d : Side) (s : BinTree α) (x : α) (t : BinTree α) :
    join d s x t ≠ nil := by
  cases d <;> simp [join]

@[simp] theorem height_join (d : Side) (s : BinTree α) (x : α) (t : BinTree α) :
    (join d s x t).height = 1 + max s.height t.height := by
  cases d <;> simp [join, Nat.max_comm]

/-- Every node is a join along either side. -/
theorem exists_join (d : Side) {t : BinTree α} (ht : t ≠ nil) :
    ∃ s x u, t = join d s x u := by
  cases t with
  | nil => exact absurd rfl ht
  | node l x r =>
      cases d with
      | left => exact ⟨l, x, r, rfl⟩
      | right => exact ⟨r, x, l, rfl⟩

theorem balanced_join (d : Side) (s : BinTree α) (x : α) (t : BinTree α) :
    (join d s x t).Balanced ↔
      s.Balanced ∧ t.Balanced ∧ s.height ≤ t.height + 1 ∧ t.height ≤ s.height + 1 := by
  cases d <;> simp only [join, Balanced]
  tauto

theorem ne_nil_of_height_pos {t : BinTree α} (ht : 0 < t.height) : t ≠ nil := by
  rintro rfl
  exact absurd ht (Nat.lt_irrefl 0)

/-- **Logarithmic height.**  A balanced tree of height `h` has at least
`fib (h + 2) - 1` nodes. -/
theorem fib_le_size : ∀ {t : BinTree α}, t.Balanced →
    Nat.fib (t.height + 2) ≤ t.toList.length + 1
  | nil, _ => by simp
  | node l x r, ⟨hl, hr, hlr, hrl⟩ => by
      have ihl := fib_le_size hl
      have ihr := fib_le_size hr
      rcases Nat.le_total l.height r.height with h | h
      · have hheight : (node l x r).height + 2 = (r.height + 1) + 2 := by
          rw [height_node, Nat.max_eq_right h]; omega
        have hmono : Nat.fib (r.height + 1) ≤ Nat.fib (l.height + 2) :=
          Nat.fib_mono (by omega)
        have hfib : Nat.fib (r.height + 1 + 2) =
            Nat.fib (r.height + 1) + Nat.fib (r.height + 2) := Nat.fib_add_two
        rw [hheight, hfib, toList_node, List.length_append, List.length_cons]
        omega
      · have hheight : (node l x r).height + 2 = (l.height + 1) + 2 := by
          rw [height_node, Nat.max_eq_left h]; omega
        have hmono : Nat.fib (l.height + 1) ≤ Nat.fib (r.height + 2) :=
          Nat.fib_mono (by omega)
        have hfib : Nat.fib (l.height + 1 + 2) =
            Nat.fib (l.height + 1) + Nat.fib (l.height + 2) := Nat.fib_add_two
        rw [hheight, hfib, toList_node, List.length_append, List.length_cons]
        omega

/-! ## Rotations -/

/-- Lift the child on side `d` above its parent. -/
def rotate (d : Side) (t : BinTree α) : BinTree α :=
  match d, t with
  | .left, node (node a y b) x c => node a y (node b x c)
  | .right, node c x (node b y a) => node (node c x b) y a
  | _, t => t

@[simp] theorem rotate_join_join (d : Side) (a : BinTree α) (y : α) (b : BinTree α) (x : α)
    (c : BinTree α) :
    rotate d (join d (join d a y b) x c) = join d a y (join d b x c) := by
  cases d <;> rfl

@[simp] theorem rotate_flip_join_join (d : Side) (a : BinTree α) (y : α) (b : BinTree α) (z : α)
    (c : BinTree α) :
    rotate d.flip (join d a y (join d b z c)) = join d (join d a y b) z c := by
  cases d <;> rfl

theorem toList_rotate (d : Side) (t : BinTree α) : (rotate d t).toList = t.toList := by
  unfold rotate
  split <;> simp

/-- The subtree on side `d` is the higher one of a node. -/
def LeansTo (d : Side) (t : BinTree α) : Prop := (t.child d.flip).height < (t.child d).height

instance (d : Side) (t : BinTree α) : Decidable (t.LeansTo d) := Nat.decLt _ _

/-- Repair a node whose subtree on side `d` is too high: a rotation, preceded
by the opposite rotation of that subtree when it leans inwards. -/
def restore (d : Side) (t : BinTree α) : BinTree α :=
  match t with
  | nil => nil
  | node l x r =>
      let s := (node l x r).child d
      let c := (node l x r).child d.flip
      if s.LeansTo d.flip then rotate d (join d (rotate d.flip s) x c)
      else rotate d (node l x r)

theorem restore_join (d : Side) (s : BinTree α) (x : α) (c : BinTree α) :
    restore d (join d s x c) =
      if s.LeansTo d.flip then rotate d (join d (rotate d.flip s) x c)
      else rotate d (join d s x c) := by
  cases d <;> rfl

/-- Repair the root of a tree whose two subtrees differ by two in height. -/
def rebalance (t : BinTree α) : BinTree α :=
  if (t.child .left).height + 2 = (t.child .right).height then restore .right t
  else if (t.child .right).height + 2 = (t.child .left).height then restore .left t
  else t

theorem rebalance_node (l : BinTree α) (x : α) (r : BinTree α) :
    rebalance (node l x r) =
      if l.height + 2 = r.height then restore .right (node l x r)
      else if r.height + 2 = l.height then restore .left (node l x r)
      else node l x r := rfl

theorem toList_restore (d : Side) (t : BinTree α) : (restore d t).toList = t.toList := by
  cases t with
  | nil => rfl
  | node l x r =>
      obtain ⟨s, y, c, hj⟩ := exists_join d (t := node l x r) (by simp)
      rw [hj, restore_join]
      split
      · rw [toList_rotate]
        cases d <;> simp [join, toList_rotate]
      · rw [toList_rotate]

theorem toList_rebalance (t : BinTree α) : (rebalance t).toList = t.toList := by
  unfold rebalance
  split
  · exact toList_restore _ _
  · split
    · exact toList_restore _ _
    · rfl

/-- **Repair of one node.**  If the subtree on side `d` is two higher than the
other, `restore d` balances the node and lowers it by at most one. -/
theorem balanced_restore {d : Side} {s : BinTree α} {x : α} {c : BinTree α}
    (hs : s.Balanced) (hc : c.Balanced) (hh : s.height = c.height + 2) :
    (restore d (join d s x c)).Balanced ∧
      (restore d (join d s x c)).height ≤ c.height + 3 ∧
      c.height + 2 ≤ (restore d (join d s x c)).height := by
  obtain ⟨a, y, b, rfl⟩ := exists_join d (ne_nil_of_height_pos (t := s) (by omega))
  rw [balanced_join] at hs
  obtain ⟨ha, hb, hab, hba⟩ := hs
  rw [restore_join]
  by_cases hlean : (join d a y b).LeansTo d.flip
  · have hlt : a.height < b.height := by simpa [LeansTo] using hlean
    obtain ⟨b₁, z, b₂, rfl⟩ :=
      exists_join d (ne_nil_of_height_pos (t := b) (by omega))
    rw [balanced_join] at hb
    obtain ⟨hb₁, hb₂, h₁₂, h₂₁⟩ := hb
    rw [if_pos hlean, rotate_flip_join_join, rotate_join_join]
    simp only [height_join, balanced_join] at *
    refine ⟨⟨⟨ha, hb₁, ?_, ?_⟩, ⟨hb₂, hc, ?_, ?_⟩, ?_, ?_⟩, ?_, ?_⟩ <;> omega
  · have hle : b.height ≤ a.height := by simpa [LeansTo] using hlean
    rw [if_neg hlean, rotate_join_join]
    simp only [height_join, balanced_join] at *
    refine ⟨⟨ha, ⟨hb, hc, ?_, ?_⟩, ?_, ?_⟩, ?_, ?_⟩ <;> omega

/-- The two subtrees of the root are balanced and differ by at most two. -/
def NearlyBalanced (t : BinTree α) : Prop :=
  (t.child .left).Balanced ∧ (t.child .right).Balanced ∧
    (t.child .left).height ≤ (t.child .right).height + 2 ∧
    (t.child .right).height ≤ (t.child .left).height + 2

theorem nearlyBalanced_join (d : Side) (s : BinTree α) (x : α) (c : BinTree α) :
    (join d s x c).NearlyBalanced ↔
      s.Balanced ∧ c.Balanced ∧ s.height ≤ c.height + 2 ∧ c.height ≤ s.height + 2 := by
  cases d <;> simp only [join, NearlyBalanced, child]
  tauto

theorem Balanced.nearlyBalanced {t : BinTree α} (h : t.Balanced) : t.NearlyBalanced := by
  cases t with
  | nil => simp [NearlyBalanced, Balanced]
  | node l x r =>
      obtain ⟨hl, hr, hlr, hrl⟩ := h
      exact ⟨hl, hr, by simp only [child]; omega, by simp only [child]; omega⟩

theorem rebalance_of_balanced {t : BinTree α} (h : t.Balanced) : rebalance t = t := by
  cases t with
  | nil => simp [rebalance]
  | node l x r =>
      obtain ⟨_, _, hlr, hrl⟩ := h
      rw [rebalance_node, if_neg (by omega), if_neg (by omega)]

/-- Rebalancing balances a nearly balanced tree; the height stays, or drops by
one when there was something to repair. -/
theorem balanced_rebalance {t : BinTree α} (h : t.NearlyBalanced) :
    (rebalance t).Balanced ∧ (rebalance t).height ≤ t.height ∧
      t.height ≤ (rebalance t).height + 1 := by
  cases t with
  | nil => simp [rebalance, Balanced]
  | node l x r =>
      obtain ⟨hl, hr, hlr, hrl⟩ := h
      simp only [child] at hl hr hlr hrl
      rw [rebalance_node]
      split
      · next heq =>
        have := balanced_restore (d := .right) (x := x) hr hl heq.symm
        simp only [join] at this
        refine ⟨this.1, ?_, ?_⟩ <;> rw [height_node] <;> omega
      · split
        · next heq =>
          have := balanced_restore (d := .left) (x := x) hl hr heq.symm
          simp only [join] at this
          refine ⟨this.1, ?_, ?_⟩ <;> rw [height_node] <;> omega
        · exact ⟨⟨hl, hr, by omega, by omega⟩, Nat.le_refl _, Nat.le_succ _⟩

theorem rebalance_ne_nil {t : BinTree α} (h : t ≠ nil) : rebalance t ≠ nil := by
  intro hnil
  have hlist : t.toList = [] := by rw [← toList_rebalance, hnil, toList_nil]
  cases t with
  | nil => exact h rfl
  | node l x r => simp at hlist

end BinTree

/-! ## Zippers -/

/-- One step of the way from a position to the root: the label and the other
subtree of the parent, and the side on which the position lies. -/
structure Frame (α : Type u) where
  side : Side
  label : α
  sibling : BinTree α

variable {α : Type u}

/-- The parent of a position, with `t` at the position. -/
def Frame.fill (f : Frame α) (t : BinTree α) : BinTree α := BinTree.join f.side t f.label f.sibling

/-- The whole tree around a position. -/
def fill : List (Frame α) → BinTree α → BinTree α
  | [], t => t
  | f :: c, t => fill c (f.fill t)

/-- The labels left of a position. -/
def before : List (Frame α) → List α
  | [] => []
  | f :: c =>
      match f.side with
      | .left => before c
      | .right => before c ++ (f.sibling.toList ++ [f.label])

/-- The labels right of a position. -/
def after : List (Frame α) → List α
  | [] => []
  | f :: c =>
      match f.side with
      | .left => f.label :: f.sibling.toList ++ after c
      | .right => after c

theorem toList_fill (c : List (Frame α)) (t : BinTree α) :
    (fill c t).toList = before c ++ t.toList ++ after c := by
  induction c generalizing t with
  | nil => simp [fill, before, after]
  | cons f c ih =>
      rw [fill, ih]
      cases hd : f.side <;> simp [Frame.fill, hd, BinTree.join, before, after]

theorem fill_append (c c' : List (Frame α)) (t : BinTree α) :
    fill (c ++ c') t = fill c' (fill c t) := by
  induction c generalizing t with
  | nil => rfl
  | cons f c ih => exact ih (f.fill t)

theorem fill_ne_nil (c : List (Frame α)) {t : BinTree α} (ht : t ≠ .nil) : fill c t ≠ .nil := by
  induction c generalizing t with
  | nil => exact ht
  | cons f c ih => exact ih (BinTree.join_ne_nil _ _ _ _)

/-- Rebalance at a position and at every node above it. -/
def climb : List (Frame α) → BinTree α → BinTree α
  | [], t => t.rebalance
  | f :: c, t => climb c (f.fill t.rebalance)

/-- Climbing keeps the in-order list. -/
theorem toList_climb (c : List (Frame α)) (t : BinTree α) :
    (climb c t).toList = (fill c t).toList := by
  induction c generalizing t with
  | nil => exact BinTree.toList_rebalance t
  | cons f c ih =>
      rw [climb, ih, fill, toList_fill, toList_fill]
      have hfill : (f.fill t.rebalance).toList = (f.fill t).toList := by
        cases hd : f.side <;> simp [Frame.fill, hd, BinTree.join, BinTree.toList_rebalance]
      rw [hfill]

/-- The tree around a position is balanced if a balanced tree of height `h`
stands at the position. -/
def Fits : List (Frame α) → Nat → Prop
  | [], _ => True
  | f :: c, h =>
      f.sibling.Balanced ∧ h ≤ f.sibling.height + 1 ∧ f.sibling.height ≤ h + 1 ∧
        Fits c (1 + max h f.sibling.height)

theorem balanced_fill_iff (c : List (Frame α)) (t : BinTree α) :
    (fill c t).Balanced ↔ t.Balanced ∧ Fits c t.height := by
  induction c generalizing t with
  | nil => simp [fill, Fits]
  | cons f c ih =>
      rw [fill, ih, Frame.fill, BinTree.balanced_join, BinTree.height_join, Fits]
      tauto

/-- One step of a climb.  A frame was balanced around a subtree of height `h`;
the subtree now there is nearly balanced and its repair is of height `h` up to
one.  Then the parent is nearly balanced, and its repair moves by at most one
again. -/
theorem climb_step {f : Frame α} {t : BinTree α} {h : Nat} (hsib : f.sibling.Balanced)
    (hle : h ≤ f.sibling.height + 1) (hge : f.sibling.height ≤ h + 1)
    (ht : t.NearlyBalanced)
    (hup : t.rebalance.height ≤ h + 1) (hdown : h ≤ t.rebalance.height + 1) :
    (f.fill t.rebalance).NearlyBalanced ∧
      (f.fill t.rebalance).rebalance.height ≤ 1 + max h f.sibling.height + 1 ∧
      1 + max h f.sibling.height ≤ (f.fill t.rebalance).rebalance.height + 1 := by
  have hbal := (BinTree.balanced_rebalance ht).1
  have hnear : (f.fill t.rebalance).NearlyBalanced := by
    rw [Frame.fill, BinTree.nearlyBalanced_join]
    exact ⟨hbal, hsib, by omega, by omega⟩
  have hrep := BinTree.balanced_rebalance hnear
  have hheight : (f.fill t.rebalance).height =
      1 + max t.rebalance.height f.sibling.height := BinTree.height_join _ _ _ _
  by_cases hflat : t.rebalance.height ≤ f.sibling.height + 1 ∧
      f.sibling.height ≤ t.rebalance.height + 1
  · -- no repair is needed here, so the height is the one of the join
    have hfix : (f.fill t.rebalance).rebalance = f.fill t.rebalance := by
      apply BinTree.rebalance_of_balanced
      rw [Frame.fill, BinTree.balanced_join]
      exact ⟨hbal, hsib, hflat.1, hflat.2⟩
    refine ⟨hnear, ?_, ?_⟩ <;> rw [hfix, hheight] <;> omega
  · refine ⟨hnear, ?_, ?_⟩ <;> omega

/-- **Climbing restores the balance.**  The context `c` was balanced around a
subtree of height `h`; the subtree now there is nearly balanced, and its repair
is of height `h` up to one.  Then the climb ends with a balanced tree. -/
theorem balanced_climb {c : List (Frame α)} {t : BinTree α} {h : Nat}
    (hc : Fits c h) (ht : t.NearlyBalanced)
    (hup : t.rebalance.height ≤ h + 1) (hdown : h ≤ t.rebalance.height + 1) :
    (climb c t).Balanced := by
  induction c generalizing t h with
  | nil => exact (BinTree.balanced_rebalance ht).1
  | cons f c ih =>
      obtain ⟨hsib, hle, hge, hrest⟩ := hc
      obtain ⟨hnear, hup', hdown'⟩ := climb_step hsib hle hge ht hup hdown
      exact ih hrest hnear hup' hdown'

/-! ## Search -/

section Search

variable {κ : Type v} [LinearOrder κ] (key : α → κ)

/-- The keys increase strictly in order. -/
def IsSearchTree (t : BinTree α) : Prop := t.toList.Pairwise (fun x y => key x < key y)

/-- Walk down towards a key, until its node or an empty position is met. -/
def locate (k : κ) : BinTree α → List (Frame α) → BinTree α × List (Frame α)
  | .nil, c => (.nil, c)
  | .node l x r, c =>
      if k < key x then locate k l (⟨.left, x, r⟩ :: c)
      else if key x < k then locate k r (⟨.right, x, l⟩ :: c)
      else (.node l x r, c)

/-- The key lies strictly between the labels around a position. -/
def Encloses (k : κ) (c : List (Frame α)) : Prop :=
  (∀ x ∈ before c, key x < k) ∧ ∀ x ∈ after c, k < key x

variable {key}

/-- **The search.**  It ends in the same tree, at a position enclosing the key,
with the node of the key or with nothing at the position. -/
theorem locate_spec {k : κ} {t : BinTree α} {c : List (Frame α)}
    (hst : IsSearchTree key (fill c t)) (henc : Encloses key k c) :
    fill (locate key k t c).2 (locate key k t c).1 = fill c t ∧
      Encloses key k (locate key k t c).2 ∧
      ((locate key k t c).1 = .nil ∨
        ∃ l x r, (locate key k t c).1 = .node l x r ∧ key x = k) := by
  induction t generalizing c with
  | nil => exact ⟨rfl, henc, Or.inl rfl⟩
  | node l x r ihl ihr =>
      have hpw : (before c ++ (l.toList ++ x :: r.toList) ++ after c).Pairwise
          (fun x y => key x < key y) := by
        simpa [IsSearchTree, toList_fill] using hst
      rw [locate]
      split
      · next hlt =>
        refine ihl (c := ⟨.left, x, r⟩ :: c) hst ⟨henc.1, ?_⟩
        intro y hy
        rcases List.mem_append.mp hy with hy | hy
        · rcases List.mem_cons.mp hy with rfl | hy
          · exact hlt
          · have hxy : key x < key y := by
              have h := (List.pairwise_append.mp (List.pairwise_append.mp hpw).1).2.1
              exact (List.pairwise_cons.mp (List.pairwise_append.mp h).2.1).1 y hy
            exact lt_trans hlt hxy
        · exact henc.2 y hy
      · split
        · next _ hgt =>
          refine ihr (c := ⟨.right, x, l⟩ :: c) hst ⟨?_, henc.2⟩
          intro y hy
          rcases List.mem_append.mp hy with hy | hy
          · exact henc.1 y hy
          · rcases List.mem_append.mp hy with hy | hy
            · have hyx : key y < key x := by
                have h := (List.pairwise_append.mp (List.pairwise_append.mp hpw).1).2.1
                exact (List.pairwise_append.mp h).2.2 y hy x List.mem_cons_self
              exact lt_trans hyx hgt
            · rw [List.mem_singleton.mp hy]
              exact hgt
        · next hnlt hngt =>
          exact ⟨rfl, henc, Or.inr ⟨l, x, r, rfl,
            le_antisymm (not_lt.mp hnlt) (not_lt.mp hngt)⟩⟩

/-- A search from the root finds a node exactly when the key occurs. -/
theorem locate_eq_nil_iff {k : κ} {t : BinTree α} (hst : IsSearchTree key t) :
    (locate key k t []).1 = .nil ↔ ∀ x ∈ t.toList, key x ≠ k := by
  have hspec := locate_spec (k := k) (c := []) hst ⟨by simp [before], by simp [after]⟩
  obtain ⟨hfill, ⟨hb, ha⟩, hend⟩ := hspec
  have hlist : t.toList = before (locate key k t []).2 ++
      (locate key k t []).1.toList ++ after (locate key k t []).2 := by
    rw [← toList_fill, hfill]
    rfl
  constructor
  · intro hnil x hx
    rw [hlist, hnil] at hx
    rcases List.mem_append.mp hx with hx | hx
    · exact ne_of_lt (hb x (by simpa using hx))
    · exact ne_of_gt (ha x hx)
  · intro hno
    rcases hend with hnil | ⟨l, x, r, hnode, hkey⟩
    · exact hnil
    · refine absurd hkey (hno x ?_)
      rw [hlist, hnode]
      simp

end Search

end AvlTree
