import DisruptaBLE.Epidemic.Htab
import DisruptaBLE.Lib.Outcome
import DisruptaBLE.Contact.Router
import Mathlib.Data.List.Sort

/-!
# Nodes, contacts and their lists

`components/ud3tn/node.c`, on the heaps of contacts and nodes that the routing table works with.

A contact is known by its address, and so is a node.  A list of contacts is the list of their
addresses.  An EID in a list is a string with the pointer by which such lists are ordered.
Whether a request for memory is served is told by `mem`, by the number of the request.
-/

namespace RoutingTable

open PtrHeap
open EpidemicRouter (CStr Htab htabGet htabAdd htabRemove)
open ContactRouter (RoutingPriority routerMaxContacts)

/-! ## Data -/

/-- An entry of `struct endpoint_list`: the pointer to the EID, and the characters there. -/
structure Eid where
  ptr : Nat
  str : CStr
  deriving DecidableEq, Repr

/-- `struct routed_bundle`, as far as its contacts need it. -/
structure RoutedBundle where
  id : UInt16
  prio : RoutingPriority
  size : UInt32
  contacts : List Addr
  deriving DecidableEq, Repr

/-- What is planned of a contact: its node, its times and the EIDs reachable over it. -/
structure Plan where
  node : Ptr
  fromTime : UInt64
  toTime : UInt64
  contactEndpoints : List Eid
  deriving DecidableEq, Repr

/-- `struct contact`. -/
structure Contact extends Plan where
  bitrate : UInt32
  totalCapacity : UInt32
  remainingCapacityP0 : Int32
  remainingCapacityP1 : Int32
  remainingCapacityP2 : Int32
  contactBundles : List RoutedBundle
  bundleCount : UInt8
  active : Bool

/-- `struct node`, without what only the router reads of it. -/
structure Node where
  eid : Option CStr
  claAddr : Option CStr
  endpoints : List Eid
  contacts : List Addr
  deriving DecidableEq, Repr

/-- `struct node_table_entry`.  All contacts are associated with the probability 1. -/
structure NodeTableEntry where
  refCount : UInt16
  contacts : List Addr
  deriving DecidableEq, Repr

/-- The routing table: the nodes and contacts on the heap, `node_list`, `contact_list` and
`eid_table`, the bundles for which `BP_SIGNAL_RESCHEDULE_BUNDLE` was sent, and the number of
requests for memory. -/
structure Table where
  contacts : Heap Contact
  nodes : Heap Node
  nodeList : List Addr
  contactList : List Addr
  eidTable : Htab NodeTableEntry
  informed : List UInt16
  requests : Nat

section

variable (mem : Nat → Bool)

/-- `malloc`, and whether it succeeds. -/
def Table.malloc (s : Table) : Bool × Table :=
  (mem s.requests, { s with requests := s.requests + 1 })

/-- `contact_create`. -/
def contactCreate (node : Ptr) : Contact where
  node := node
  fromTime := 0
  toTime := 0
  contactEndpoints := []
  bitrate := 0
  totalCapacity := 0
  remainingCapacityP0 := 0
  remainingCapacityP1 := 0
  remainingCapacityP2 := 0
  contactBundles := []
  bundleCount := 0
  active := false

/-- `recalculate_contact_capacity`.  The difference is cut to 32 bits. -/
def recalculateContactCapacity (c : Contact) : Contact :=
  let duration := min (c.toTime - c.fromTime) 0xFFFFFFFF
  let newCapacity := min (duration * c.bitrate.toUInt64) 0x7FFFFFFF
  let capacityDifference := (newCapacity.toUInt32 - c.totalCapacity).toInt32
  { c with
    totalCapacity := newCapacity.toUInt32
    remainingCapacityP0 := c.remainingCapacityP0 + capacityDifference
    remainingCapacityP1 := c.remainingCapacityP1 + capacityDifference
    remainingCapacityP2 := c.remainingCapacityP2 + capacityDifference }

/-! ## Releasing -/

/-- `free_contact`. -/
def freeContact (s : Table) (c : Addr) : Except Fault Table := do
  let d ← s.contacts.load (some c)
  assertC (!d.active)
  pure { s with contacts := s.contacts.erase c }

/-- `contact_list_free` for all entries of a list. -/
def freeContacts : Table → List Addr → Except Fault Table
  | s, [] => .ok s
  | s, c :: cs => do
      let s ← freeContact s c
      freeContacts s cs

/-- `free(node)`: the node itself. -/
def freeNodeCell (s : Table) (n : Addr) : Except Fault Table := do
  let nodes ← s.nodes.release (some n)
  pure { s with nodes }

/-- `free_node`. -/
def freeNode (s : Table) (n : Addr) : Except Fault Table := do
  let node ← s.nodes.load (some n)
  let s ← freeContacts s node.contacts
  freeNodeCell s n

/-! ## Lists of EIDs -/

/-- Whether `endpoint_list_add` finds the EID in the list. -/
def containsEid (l : List Eid) (e : Eid) : Bool := l.any fun x => x.ptr = e.ptr || x.str = e.str

/-- The list with an EID before the first one with a larger pointer. -/
def insertEid (l : List Eid) (e : Eid) : List Eid :=
  l.takeWhile (fun x => x.ptr ≤ e.ptr) ++ e :: l.dropWhile fun x => x.ptr ≤ e.ptr

/-- `endpoint_list_add`, with the number of the next request. -/
def endpointListAdd (k : Nat) (l : List Eid) (e : Eid) : List Eid × Nat :=
  if containsEid l e then (l, k)
  else (if mem k then insertEid l e else l, k + 1)

/-- `endpoint_list_remove`. -/
def endpointListRemove (l : List Eid) (e : Eid) : List Eid := l.eraseP (·.str = e.str)

/-- `endpoint_list_union`. -/
def endpointListUnion : Nat → List Eid → List Eid → List Eid × Nat
  | k, a, [] => (a, k)
  | k, a, e :: b =>
      let (a, k) := endpointListAdd mem k a e
      endpointListUnion k a b

/-- `endpoint_list_difference`. -/
def endpointListDifference (a b : List Eid) : List Eid := b.foldl endpointListRemove a

/-- The loop of `endpoint_list_strip_and_sort`: the first of equal EIDs stays. -/
def stripEids : List Eid → List Eid
  | [] => []
  | e :: l => e :: (stripEids l).filter fun x => x.str ≠ e.str

/-- `endpoint_list_strip_and_sort`. -/
def endpointListStripAndSort (l : List Eid) : List Eid :=
  (stripEids l).insertionSort fun x y => x.ptr ≤ y.ptr

/-! ## Lists of contacts -/

/-- The contacts of a list, one after the other. -/
def loadAll (s : Table) : List Addr → Except Fault (List Contact)
  | [] => .ok []
  | c :: cs => do
      let d ← s.contacts.load (some c)
      let ds ← loadAll s cs
      pure (d :: ds)

/-- `contact_list_sorted`, by from-time. -/
def contactListSorted (s : Table) (l : List Addr) : Except Fault Bool := do
  let ds ← loadAll s l
  pure (decide (ds.Pairwise fun c d => c.fromTime ≤ d.fromTime))

/-- `add_to_modified_list`. -/
def addToModifiedList (s : Table) (c : Addr) (modified : List Addr) : List Addr × Table :=
  let (served, s) := s.malloc mem
  (if served then c :: modified else modified, s)

/-- `merge_contacts`, and whether the capacity changed. -/
def mergeContacts (s : Table) (old new : Addr) : Except Fault (Bool × Table) := do
  let o ← s.contacts.load (some old)
  let n ← s.contacts.load (some new)
  let (contactEndpoints, requests) :=
    endpointListUnion mem s.requests o.contactEndpoints n.contactEndpoints
  let o := { o with contactEndpoints }
  if o.bitrate ≠ n.bitrate then
    let o := recalculateContactCapacity { o with bitrate := n.bitrate }
    pure (true, { s with contacts := s.contacts.set old o, requests })
  else pure (false, { s with contacts := s.contacts.set old o, requests })

/-- The inner loop of `contact_list_union` at the entry `cur`: the contacts to insert before it,
what remains of `b`, and the modified contacts. -/
def unionBefore (cur : Addr) (modified : List Addr) :
    Table → List Addr → Except Fault (List Addr × List Addr × List Addr × Table)
  | s, [] => .ok ([], [], modified, s)
  | s, can :: b => do
      let c ← s.contacts.load (some cur)
      let d ← s.contacts.load (some can)
      if d.fromTime < c.fromTime then
        let (before, rest, modified, s) ← unionBefore cur modified s b
        pure (can :: before, rest, modified, s)
      else if d.fromTime = c.fromTime then
        let (changed, s) ←
          if d.toTime = c.toTime then mergeContacts mem s cur can else pure (false, s)
        let (modified, s) := if changed then addToModifiedList mem s cur modified else (modified, s)
        let s ← freeContact s can
        unionBefore cur modified s b
      else pure ([], can :: b, modified, s)

/-- The outer loop of `contact_list_union`. -/
def unionLoop (modified : List Addr) :
    Table → List Addr → List Addr → Except Fault (List Addr × List Addr × Table)
  | s, [], b => .ok (b, modified, s)
  | s, cur :: a, b => do
      let (before, b, modified, s) ← unionBefore mem cur modified s b
      let (rest, modified, s) ← unionLoop modified s a b
      pure (before ++ cur :: rest, modified, s)

/-- `contact_list_union`: the list, and the contacts with a modified capacity. -/
def contactListUnion (s : Table) (a b : List Addr) :
    Except Fault (List Addr × List Addr × Table) := do
  assertC (← contactListSorted s a)
  assertC (← contactListSorted s b)
  if a = [] then pure (b, [], s)
  else if b = [] then pure (a, [], s)
  else unionLoop mem [] s a b

/-- The inner loop of `contact_list_difference` at the entry `cur`: the endpoints of the entry of
`b` with its times, if there is one, and what remains of `b`. -/
def differenceMatch (cur : Addr) :
    Table → List Addr → Except Fault (Option (List Eid) × List Addr × Table)
  | s, [] => .ok (none, [], s)
  | s, can :: b => do
      let c ← s.contacts.load (some cur)
      let d ← s.contacts.load (some can)
      if d.fromTime ≤ c.fromTime then
        let s ← freeContact s can
        if d.fromTime = c.fromTime ∧ d.toTime = c.toTime then
          pure (some d.contactEndpoints, b, s)
        else differenceMatch cur s b
      else pure (none, can :: b, s)

/-- The outer loop of `contact_list_difference`: the list, the modified contacts and the
deleted ones. -/
def differenceLoop (modified deleted : List Addr) :
    Table → List Addr → List Addr → Except Fault (List Addr × List Addr × List Addr × Table)
  | s, [], _ => .ok ([], modified, deleted, s)
  | s, cur :: a, b => do
      let (found, b, s) ← differenceMatch cur s b
      match found with
      | none =>
          let (rest, modified, deleted, s) ← differenceLoop modified deleted s a b
          pure (cur :: rest, modified, deleted, s)
      | some [] => differenceLoop modified (cur :: deleted) s a b
      | some endpoints =>
          let contacts ← s.contacts.modify (some cur) fun c =>
            { c with contactEndpoints := endpointListDifference c.contactEndpoints endpoints }
          let (modified, s) := addToModifiedList mem { s with contacts } cur modified
          let (rest, modified, deleted, s) ← differenceLoop modified deleted s a b
          pure (cur :: rest, modified, deleted, s)

/-- `contact_list_difference`. -/
def contactListDifference (s : Table) (a b : List Addr) :
    Except Fault (List Addr × List Addr × List Addr × Table) := do
  assertC (← contactListSorted s a)
  assertC (← contactListSorted s b)
  if a = [] ∨ b = [] then pure (a, [], [], s)
  else differenceLoop mem [] [] s a b

/-- The loop of `add_contact_to_ordered_list` and of `add_contact_to_ordered_assoc_list`: the
list with the contact before the first one that is later by `time`, or `none` if the contact is
met first. -/
def insertOrdered (s : Table) (time : Contact → UInt64) (c : Addr) (d : Contact) :
    List Addr → Except Fault (Option (List Addr))
  | [] => .ok (some [c])
  | x :: l => do
      if x = c then pure none
      else
        let e ← s.contacts.load (some x)
        if time d < time e then pure (some (c :: x :: l))
        else
          let r ← insertOrdered s time c d l
          pure (r.map (x :: ·))

/-- `add_contact_to_ordered_list` and `add_contact_to_ordered_assoc_list`: the list, if the
contact was added. -/
def addContactToOrdered (s : Table) (time : Contact → UInt64) (l : List Addr) (c : Addr) :
    Except Fault (Option (List Addr) × Table) := do
  let d ← s.contacts.load (some c)
  match ← insertOrdered s time c d l with
  | none => pure (none, s)
  | some l =>
      let (served, s) := s.malloc mem
      pure (if served then some l else none, s)

/-- `add_contact_to_ordered_list`, by from-time. -/
def addContactToOrderedList (s : Table) (l : List Addr) (c : Addr) :
    Except Fault (Option (List Addr) × Table) :=
  addContactToOrdered mem s (·.fromTime) l c

/-- `add_contact_to_ordered_assoc_list`, by to-time. -/
def addContactToOrderedAssocList (s : Table) (l : List Addr) (c : Addr) :
    Except Fault (Option (List Addr) × Table) :=
  addContactToOrdered mem s (·.toTime) l c

/-- `remove_contact_from_list` and `remove_contact_from_assoc_list`. -/
def removeContactFromList (l : List Addr) (c : Addr) : Option (List Addr) :=
  if c ∈ l then some (l.erase c) else none

/-! ## Verification of a node -/

/-- `contacts_overlap`. -/
def contactsOverlap (a b : Contact) : Bool :=
  (b.fromTime ≤ a.fromTime && a.fromTime ≤ b.toTime) ||
    (b.fromTime ≤ a.toTime && a.toTime ≤ b.toTime)

/-- The outer loop of `node_prepare_and_verify`, and whether no two contacts overlap. -/
def verifyContacts : Table → List Addr → Except Fault (Bool × Table)
  | s, [] => .ok (true, s)
  | s, c :: cs => do
      let contacts ← s.contacts.modify (some c) fun d =>
        { d with contactEndpoints := endpointListStripAndSort d.contactEndpoints }
      let s := { s with contacts }
      let d ← s.contacts.load (some c)
      let others ← loadAll s cs
      if others.any (contactsOverlap d) then pure (false, s) else verifyContacts s cs

/-- The contacts of a list, ordered by from-time. -/
def sortContacts (s : Table) (l : List Addr) : Except Fault (List Addr) := do
  let ds ← loadAll s l
  pure (((l.zip ds).insertionSort fun x y => x.2.fromTime ≤ y.2.fromTime).map Prod.fst)

/-- `node_prepare_and_verify`. -/
def nodePrepareAndVerify (s : Table) (n : Addr) : Except Fault (Bool × Table) := do
  let node ← s.nodes.load (some n)
  if node.eid = none then pure (false, s)
  else
    let contacts ← sortContacts s node.contacts
    let node := { node with contacts, endpoints := endpointListStripAndSort node.endpoints }
    verifyContacts { s with nodes := s.nodes.set n node } contacts

end

end RoutingTable
