import DisruptaBLE.Lib.Heap
import DisruptaBLE.Lib.AvlTree
import Mathlib.Data.Int.Init

/-!
# The tree of the bundle storage

The tree functions of `components/ud3tn/bundle_storage_manager.c`, statement
by statement over a heap of nodes.  A `struct node **` is a `Slot`: either the
static `storage_tree` or one of the two successor fields of a node.

`rotate_right` and `rotate_left`, and the two halves of the three-node case of
`delete_node_at_ptr`, are mirror images in the source; each pair is one
definition here with the side as a parameter.

Heights are `int8_t` in the source: every value stored into such a field goes
through `int8`.
-/

namespace BundleStorage

open PtrHeap AvlTree

/-- `BUNDLE_INVALID_ID`. -/
def invId : UInt16 := 0

/-- `struct node`; `β` is the type of the stored bundle references. -/
structure Node (β : Type) where
  id : UInt16
  successor : Side → Ptr
  parent : Ptr
  bundle : β
  height : Int

/-- The static variable `storage_tree` and the nodes it leads to. -/
structure TreeMem (β : Type) where
  heap : Heap (Node β)
  storageTree : Ptr

/-- A `struct node **`. -/
inductive Slot where
  | storageTree
  | successor (a : Addr) (d : Side)
  deriving DecidableEq, Repr

variable {β : Type}

/-- `n->successor[d] = p`. -/
def Node.setSuccessor (n : Node β) (d : Side) (p : Ptr) : Node β :=
  { n with successor := fun e => if e = d then p else n.successor e }

/-- `n->parent = p`. -/
def Node.setParent (n : Node β) (p : Ptr) : Node β := { n with parent := p }

namespace TreeMem

/-- `*slot`. -/
def deref (s : TreeMem β) : Slot → Except Fault Ptr
  | .storageTree => .ok s.storageTree
  | .successor a d => do
      let n ← s.heap.load (some a)
      pure (n.successor d)

/-- `*slot = p`. -/
def assign (s : TreeMem β) (slot : Slot) (p : Ptr) : Except Fault (TreeMem β) :=
  match slot with
  | .storageTree => .ok { s with storageTree := p }
  | .successor a d => do
      let h ← s.heap.modify (some a) (·.setSuccessor d p)
      pure { s with heap := h }

end TreeMem

/-- `height(node)`. -/
def heightOf (h : Heap (Node β)) (p : Ptr) : Except Fault Int :=
  match p with
  | none => .ok 0
  | some a => do
      let n ← h.load (some a)
      pure n.height

/-- `get_balance(node)`. -/
def getBalance (h : Heap (Node β)) (p : Ptr) : Except Fault Int :=
  match p with
  | none => .ok 0
  | some a => do
      let n ← h.load (some a)
      let l ← heightOf h (n.successor .left)
      let r ← heightOf h (n.successor .right)
      pure (l - r)

/-- `recalc_height(node)`. -/
def recalcHeight (h : Heap (Node β)) (p : Ptr) : Except Fault (Heap (Node β)) := do
  let n ← h.load p
  let l ← heightOf h (n.successor .left)
  let r ← heightOf h (n.successor .right)
  h.modify p (fun n => { n with height := int8 (1 + max l r) })

/-- `create_node`, with the address that `malloc` returned. -/
def createNode (h : Heap (Node β)) (mem : Option Addr) (id : UInt16) (bundle : β)
    (parent : Ptr) : Ptr × Heap (Node β) :=
  match mem with
  | none => (none, h)
  | some a =>
      (some a, h.set a { id, successor := fun _ => none, parent, bundle, height := 1 })

/-- `if (p != NULL) p->parent = q;`. -/
def hangUnder (h : Heap (Node β)) (p q : Ptr) : Except Fault (Heap (Node β)) :=
  if p.isSome then h.modify p (·.setParent q) else .ok h

/-- `rotate_right` and `rotate_left`: lift the successor on side `d`. -/
def rotate (d : Side) (h : Heap (Node β)) (oldTop : Ptr) :
    Except Fault (Ptr × Heap (Node β)) := do
  assertC oldTop.isSome
  let old ← h.load oldTop
  assertC (old.successor d).isSome
  let newTop := old.successor d
  let new ← h.load newTop
  let t2 := new.successor d.flip
  let h ← h.modify newTop (·.setSuccessor d.flip oldTop)
  let h ← h.modify newTop (·.setParent old.parent)
  let h ← h.modify oldTop (·.setParent newTop)
  let h ← h.modify oldTop (·.setSuccessor d t2)
  let h ← hangUnder h t2 oldTop
  let h ← recalcHeight h oldTop
  let h ← recalcHeight h newTop
  pure (newTop, h)

/-- `rotate_right`. -/
def rotateRight (h : Heap (Node β)) (oldTop : Ptr) : Except Fault (Ptr × Heap (Node β)) :=
  rotate .left h oldTop

/-- `rotate_left`. -/
def rotateLeft (h : Heap (Node β)) (oldTop : Ptr) : Except Fault (Ptr × Heap (Node β)) :=
  rotate .right h oldTop

/-- `comp = (id < n) ? -1 : (id > n)`. -/
def comp (id n : UInt16) : Ordering :=
  if id < n then .lt else if n < id then .gt else .eq

/-- `comp_to_successor[1 + comp]`. -/
def compToSuccessor : Ordering → Side
  | .lt => .left
  | .eq => .left
  | .gt => .right

/-- The loop of `find_nodeptr`. -/
def findLoop (s : TreeMem β) (id : UInt16) (insert : Bool) :
    Nat → Slot → Except Fault (Option Slot)
  | 0, _ => .error .diverged
  | fuel + 1, node => do
      match ← s.deref node with
      | none => .error .nullDeref
      | some a =>
          let n ← s.heap.load (some a)
          if comp id n.id = .eq then pure (some node)
          else
            let next := Slot.successor a (compToSuccessor (comp id n.id))
            if (← s.deref next).isSome then findLoop s id insert fuel next
            else pure (if insert then some node else none)

/-- `find_nodeptr`. -/
def findNodeptr (s : TreeMem β) (id : UInt16) (insert : Bool) :
    Except Fault (Option Slot) :=
  if s.storageTree.isNone then .ok none
  else findLoop s id insert s.heap.bound .storageTree

/-- `get_parent_fwd_ptr`. -/
def getParentFwdPtr (s : TreeMem β) (node : Ptr) : Except Fault (Option Slot) :=
  match node with
  | none => .ok none
  | some a => do
      let n ← s.heap.load (some a)
      match n.parent with
      | none => pure none
      | some p =>
          let pn ← s.heap.load (some p)
          match pn.parent with
          | none => pure (some .storageTree)
          | some g =>
              let gn ← s.heap.load (some g)
              if n.parent = gn.successor .left then pure (some (.successor g .left))
              else
                assertC (n.parent = gn.successor .right)
                pure (some (.successor g .right))

/-- The inner rotation in a round of `rebalance_from_nodeptr`: when `inward`
holds of the balance of the successor on side `d`, that successor is replaced by
its rotation to the other side. -/
def rotateInner (d : Side) (inward : Int → Bool) (h : Heap (Node β)) (top : Ptr) :
    Except Fault (Heap (Node β)) := do
  let n ← h.load top
  let b ← getBalance h (n.successor d)
  if inward b then
    let (c, h) ← rotate d.flip h (n.successor d)
    h.modify top (·.setSuccessor d c)
  else pure h

/-- The two rotations in a round of `rebalance_from_nodeptr`, for a node that is
too high on side `d`. -/
def repairSide (d : Side) (inward : Int → Bool) (s : TreeMem β) (slot : Slot) :
    Except Fault (TreeMem β) := do
  let top ← s.deref slot
  let h ← rotateInner d inward s.heap top
  let (t, h) ← rotate d h top
  ({ s with heap := h } : TreeMem β).assign slot t

/-- The rotations of a round of `rebalance_from_nodeptr`, chosen by the balance
of the node in the slot. -/
def repair (s : TreeMem β) (slot : Slot) (balance : Int) : Except Fault (TreeMem β) :=
  if balance = -2 then repairSide .right (fun b => 0 < b) s slot
  else if balance = 2 then repairSide .left (fun b => b < 0) s slot
  else .ok s

/-- `rebalance_from_nodeptr`. -/
def rebalanceFromNodeptr : Nat → TreeMem β → Option Slot → Except Fault (TreeMem β)
  | 0, _, _ => .error .diverged
  | _ + 1, s, none => .ok s
  | fuel + 1, s, some slot => do
      let p ← s.deref slot
      if p.isNone then pure s
      else
        let h ← recalcHeight s.heap p
        let s : TreeMem β := { s with heap := h }
        let balance := int8 (← getBalance s.heap p)
        assertC (-2 ≤ balance && balance ≤ 2)
        let s ← repair s slot balance
        let top ← s.deref slot
        let b ← getBalance s.heap top
        assertC (-1 ≤ b && b ≤ 1)
        let next ← getParentFwdPtr s top
        rebalanceFromNodeptr fuel s next

/-- `while (p->successor[e] != NULL) p = p->successor[e];`. -/
def outermost (h : Heap (Node β)) (e : Side) : Nat → Ptr → Except Fault Ptr
  | 0, _ => .error .diverged
  | fuel + 1, p => do
      let n ← h.load p
      if (n.successor e).isSome then outermost h e fuel (n.successor e)
      else pure p

/-- "Swap position in sub-tree if not direct successor": take the replacement
out of its place below `sub`, the successor of the deleted node on side `d`, and
hang `sub` under it. -/
def swapPosition (d : Side) (h : Heap (Node β)) (sub replacement : Ptr) :
    Except Fault (Heap (Node β)) :=
  if replacement = sub then .ok h
  else do
    let rn ← h.load replacement
    let h ← h.modify rn.parent (·.setSuccessor d.flip (rn.successor d))
    let h ← hangUnder h (rn.successor d) rn.parent
    let h ← recalcHeight h rn.parent
    let h ← h.modify replacement (·.setSuccessor d sub)
    hangUnder h sub replacement

/-- The three-node case of `delete_node_at_ptr`: the in-order neighbour of
`del` in the higher sub-tree, on side `d`, takes its place.  Returns the
replacement and the slot to rebalance from. -/
def spliceNeighbour (d : Side) (s : TreeMem β) (delptr : Slot) (del : Ptr) :
    Except Fault (Ptr × Slot × TreeMem β) := do
  let dn ← s.heap.load del
  let replacement ← outermost s.heap d.flip s.heap.bound (dn.successor d)
  let h ← swapPosition d s.heap (dn.successor d) replacement
  -- "re-hang" the other successor
  let h ← h.modify replacement (·.setSuccessor d.flip (dn.successor d.flip))
  let h ← hangUnder h (dn.successor d.flip) replacement
  let s : TreeMem β := { s with heap := h }
  let start ← getParentFwdPtr s replacement
  pure (replacement, start.getD delptr, s)

/-- "Determine and configure replacement": the first half of
`delete_node_at_ptr`. -/
def determineReplacement (s : TreeMem β) (delptr : Slot) (del : Ptr) :
    Except Fault (Ptr × Slot × TreeMem β) := do
  let dn ← s.heap.load del
  match dn.successor .left, dn.successor .right with
  | none, none => pure (none, delptr, s)
  | some a, none => pure (some a, delptr, s)
  | none, some a => pure (some a, delptr, s)
  | some _, some _ =>
      let hl ← heightOf s.heap (dn.successor .left)
      let hr ← heightOf s.heap (dn.successor .right)
      if hl ≥ hr then spliceNeighbour .left s delptr del
      else spliceNeighbour .right s delptr del

/-- "Replace, rebalance from there or from parent if NULL and exists": the
second half of `delete_node_at_ptr`. -/
def replaceAndRebalance (fuel : Nat) (s : TreeMem β) (delptr : Slot) (del : Ptr)
    (replacement : Ptr) (rebalanceFrom : Slot) : Except Fault (TreeMem β) := do
  let s ← s.assign delptr replacement
  let dn ← s.heap.load del
  if replacement.isSome then
    let h ← s.heap.modify replacement (·.setParent dn.parent)
    rebalanceFromNodeptr fuel { s with heap := h } (some rebalanceFrom)
  else if dn.parent.isSome then
    rebalanceFromNodeptr fuel s (← getParentFwdPtr s del)
  else pure s

/-- `delete_node_at_ptr`. -/
def deleteNodeAtPtr (s : TreeMem β) (delptr : Slot) : Except Fault (TreeMem β) := do
  let fuel := s.heap.bound + 1
  let del ← s.deref delptr
  let (replacement, rebalanceFrom, s) ← determineReplacement s delptr del
  let s ← replaceAndRebalance fuel s delptr del replacement rebalanceFrom
  let h ← s.heap.release del
  pure { s with heap := h }

/-- `add_node`: whether the node was added, and the memory afterwards. -/
def addNode (s : TreeMem β) (mem : Option Addr) (id : UInt16) (bundle : β) :
    Except Fault (Bool × TreeMem β) :=
  if s.storageTree.isNone then
    let (p, h) := createNode s.heap mem id bundle none
    .ok (p.isSome, { heap := h, storageTree := p })
  else do
    match ← findNodeptr s id true with
    | none => .error .nullDeref
    | some slot =>
        let prev ← s.deref slot
        assertC prev.isSome
        let (new, h) := createNode s.heap mem id bundle prev
        if new.isNone then pure (false, s)
        else
          let pn ← h.load prev
          let suc := compToSuccessor (comp id pn.id)
          assertC (pn.successor suc).isNone
          let h ← h.modify prev (·.setSuccessor suc new)
          let s : TreeMem β := { s with heap := h }
          let s ← rebalanceFromNodeptr (h.bound + 1) s (← getParentFwdPtr s new)
          pure (true, s)

end BundleStorage
