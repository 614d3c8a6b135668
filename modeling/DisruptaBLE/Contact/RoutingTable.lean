import DisruptaBLE.Contact.Node

/-!
# The routing table

`components/routing/contact/routing_table.c`, and `process_router_command` of the router task.

The table keeps, for each EID, the contacts over which it is reachable.  A command brings a node
with its contacts on the heap; the table merges it into what it has, replaces what it has by it,
or takes it as the description of what to delete.
-/

namespace RoutingTable

open PtrHeap
open EpidemicRouter (CStr Htab htabGet htabAdd htabRemove)
open ContactRouter (RoutingPriority routerMaxContacts)

/-! ## Bundles of a contact -/

/-- What `router_remove_bundle_from_contact` does to the contact: the first entry with this id
goes. -/
def Contact.removeBundle (c : Contact) (id : UInt16) : Contact :=
  match c.contactBundles.find? (·.id = id) with
  | none => c
  | some rb =>
      let size := rb.size.toInt32
      { c with
        contactBundles := c.contactBundles.eraseP (·.id = id)
        bundleCount := c.bundleCount - 1
        remainingCapacityP0 := c.remainingCapacityP0 + size
        remainingCapacityP1 :=
          if rb.prio = .low then c.remainingCapacityP1 else c.remainingCapacityP1 + size
        remainingCapacityP2 :=
          if rb.prio = .high then c.remainingCapacityP2 + size else c.remainingCapacityP2 }

/-- `router_remove_bundle_from_route`, for the contacts of the route. -/
def removeBundleFromRoute (id : UInt16) : Table → List Addr → Except Fault Table
  | s, [] => .ok s
  | s, c :: cs => do
      let contacts ← s.contacts.modify (some c) (·.removeBundle id)
      removeBundleFromRoute id { s with contacts } cs

/-- The loop of `reschedule_bundles`.  It ends only if each round takes an entry from the contact.
-/
def rescheduleLoop (c : Addr) : Nat → Table → Except Fault Table
  | 0, _ => .error .diverged
  | k + 1, s => do
      let d ← s.contacts.load (some c)
      match d.contactBundles with
      | [] => pure s
      | rb :: _ =>
          assertC (rb.contacts.length ≤ routerMaxContacts)
          let s ← removeBundleFromRoute rb.id s rb.contacts
          rescheduleLoop c k { s with informed := s.informed ++ [rb.id] }

/-- `reschedule_bundles`. -/
def rescheduleBundles (s : Table) (c : Addr) : Except Fault Table := do
  let d ← s.contacts.load (some c)
  rescheduleLoop c (d.contactBundles.length + 1) s

/-- `reschedule_bundles` for the contacts of a list. -/
def rescheduleAll : Table → List Addr → Except Fault Table
  | s, [] => .ok s
  | s, c :: cs => do
      let s ← rescheduleBundles s c
      rescheduleAll s cs

section

variable (mem : Nat → Bool) (hash : CStr → UInt32)

/-! ## The table of EIDs -/

/-- `routing_table_lookup_eid`. -/
def routingTableLookupEid (s : Table) (eid : CStr) : Except Fault (Option NodeTableEntry) :=
  htabGet hash s.eidTable eid

/-- A contact enters the list of the entry for an EID. -/
def addToEntry (s : Table) (eid : CStr) (entry : NodeTableEntry) (c : Addr) :
    Except Fault (Bool × Table) := do
  match ← addContactToOrderedAssocList mem s entry.contacts c with
  | (none, s) => pure (false, s)
  | (some contacts, s) =>
      let entry : NodeTableEntry := ⟨entry.refCount + 1, contacts⟩
      pure (true, { s with eidTable := s.eidTable.update hash eid entry })

/-- `add_contact_to_node_in_htab`. -/
def addContactToNodeInHtab (s : Table) (eid : CStr) (c : Addr) : Except Fault (Bool × Table) := do
  match ← htabGet hash s.eidTable eid with
  | some entry => addToEntry mem hash s eid entry c
  | none =>
      match s.malloc mem with
      | (false, s) => pure (false, s)
      | (true, s) =>
          let entry : NodeTableEntry := ⟨0, []⟩
          match ← htabAdd hash s.eidTable eid entry with
          | none => addToEntry mem hash s eid entry c
          | some eidTable => addToEntry mem hash { s with eidTable } eid entry c

/-- `remove_contact_from_node_in_htab`. -/
def removeContactFromNodeInHtab (s : Table) (eid : CStr) (c : Addr) :
    Except Fault (Bool × Table) := do
  match ← htabGet hash s.eidTable eid with
  | none => pure (false, s)
  | some entry =>
      match removeContactFromList entry.contacts c with
      | none => pure (false, s)
      | some contacts =>
          let refCount := entry.refCount - 1
          if refCount ≤ 0 then
            let eidTable ← htabRemove hash s.eidTable eid
            pure (true, { s with eidTable })
          else pure (true, { s with eidTable := s.eidTable.update hash eid ⟨refCount, contacts⟩ })

/-- `add_contact_to_node_in_htab` for the EIDs of a list. -/
def addToAll (c : Addr) : Table → List CStr → Except Fault Table
  | s, [] => .ok s
  | s, eid :: es => do
      let (_, s) ← addContactToNodeInHtab mem hash s eid c
      addToAll c s es

/-- `remove_contact_from_node_in_htab` for the EIDs of a list. -/
def removeFromAll (c : Addr) : Table → List CStr → Except Fault Table
  | s, [] => .ok s
  | s, eid :: es => do
      let (_, s) ← removeContactFromNodeInHtab hash s eid c
      removeFromAll c s es

/-! ## The contacts of a node -/

/-- `ASSERT(eid != NULL)`. -/
def nonNull : Option CStr → Except Fault CStr
  | none => .error .assertFailed
  | some eid => .ok eid

/-- `MAX_CONCURRENT_CONTACTS`. -/
def maxConcurrentContacts : Nat := 257

/-- The first loop of `check_for_invalid_overlaps`. -/
def skipEarlier (s : Table) (c : Contact) : List Addr → Except Fault (List Addr)
  | [] => .ok []
  | x :: l => do
      let d ← s.contacts.load (some x)
      if d.toTime < c.fromTime then skipEarlier s c l else pure (x :: l)

/-- The second loop of `check_for_invalid_overlaps`, which counts with 8 bits. -/
def countOverlaps (s : Table) (c : Contact) : UInt8 → List Addr → Except Fault Bool
  | overlaps, [] => .ok (maxConcurrentContacts ≤ overlaps.toNat)
  | overlaps, x :: l => do
      let d ← s.contacts.load (some x)
      if c.toTime ≤ d.fromTime then pure (maxConcurrentContacts ≤ overlaps.toNat)
      else if c.fromTime < d.toTime then
        if d.node = c.node then pure true else countOverlaps s c (overlaps + 1) l
      else countOverlaps s c overlaps l

/-- `check_for_invalid_overlaps`. -/
def checkForInvalidOverlaps (s : Table) (c : Addr) : Except Fault Bool := do
  let d ← s.contacts.load (some c)
  let l ← skipEarlier s d s.contactList
  countOverlaps s d 0 l

/-- A round of `add_node_to_tables` for a contact without invalid overlaps. -/
def enterContact (node : Node) (s : Table) (c : Addr) : Except Fault Table := do
  let eid ← nonNull node.eid
  let s ← addToAll mem hash c s (eid :: node.endpoints.map (·.str))
  let d ← s.contacts.load (some c)
  let s ← addToAll mem hash c s (d.contactEndpoints.map (·.str))
  let (l, s) ← addContactToOrderedList mem s s.contactList c
  let contacts ← s.contacts.modify (some c) recalculateContactCapacity
  pure { s with contacts, contactList := l.getD s.contactList }

/-- The loop of `add_node_to_tables`. -/
def addContacts (node : Node) : Table → List Addr → Except Fault Table
  | s, [] => .ok s
  | s, c :: cs => do
      if ← checkForInvalidOverlaps s c then addContacts node s cs
      else
        let s ← enterContact mem hash node s c
        addContacts node s cs

/-- `add_node_to_tables`. -/
def addNodeToTables (s : Table) (n : Addr) : Except Fault Table := do
  let node ← s.nodes.load (some n)
  addContacts mem hash node s node.contacts

/-- What a round of `remove_node_from_tables` does in any case. -/
def leaveContact (node : Node) (s : Table) (c : Addr) : Except Fault Table := do
  let eid ← nonNull node.eid
  let s ← removeFromAll hash c s (eid :: node.endpoints.map (·.str))
  let d ← s.contacts.load (some c)
  let s ← removeFromAll hash c s (d.contactEndpoints.map (·.str))
  pure { s with contactList := (removeContactFromList s.contactList c).getD s.contactList }

/-- The loop of `remove_node_from_tables`: the contacts that the node keeps, and the table. -/
def removeContacts (node : Node) (dropContacts : Bool) :
    Table → List Addr → Except Fault (List Addr × Table)
  | s, [] => .ok ([], s)
  | s, c :: cs => do
      let s ← leaveContact hash node s c
      if dropContacts then
        let s ← rescheduleBundles s c
        let d ← s.contacts.load (some c)
        if d.active then
          -- the contact is in use: it only loses its node
          let contacts ← s.contacts.modify (some c) fun d => { d with node := none }
          removeContacts node dropContacts { s with contacts } cs
        else
          let (kept, s) ← removeContacts node dropContacts s cs
          pure (c :: kept, s)
      else
        let (kept, s) ← removeContacts node dropContacts s cs
        pure (c :: kept, s)

/-- `remove_node_from_tables`. -/
def removeNodeFromTables (s : Table) (n : Addr) (dropContacts : Bool) : Except Fault Table := do
  let node ← s.nodes.load (some n)
  let (kept, s) ← removeContacts hash node dropContacts s node.contacts
  let nodes ← s.nodes.modify (some n) fun node => { node with contacts := kept }
  pure { s with nodes }

/-! ## The list of nodes -/

/-- `get_node_entry_by_eid`, from an entry on. -/
def findNode (s : Table) (eid : CStr) : List Addr → Except Fault (Option Addr)
  | [] => .ok none
  | n :: l => do
      let node ← s.nodes.load (some n)
      match node.eid with
      | none => .error .nullDeref
      | some x => if x = eid then pure (some n) else findNode s eid l

/-- `get_node_entry_by_eid`. -/
def getNodeEntryByEid (s : Table) : Option CStr → Except Fault (Option Addr)
  | none => .ok none
  | some eid => findNode s eid s.nodeList

/-- `add_new_node`. -/
def addNewNode (s : Table) (new : Addr) : Except Fault (Bool × Table) := do
  let node ← s.nodes.load (some new)
  if node.eid = none ∨ node.claAddr = none then
    let s ← freeNode s new
    pure (false, s)
  else
    match s.malloc mem with
    | (false, s) =>
        let s ← freeNode s new
        pure (false, s)
    | (true, s) =>
        let s ← addNodeToTables mem hash { s with nodeList := new :: s.nodeList } new
        pure (true, s)

/-- The contacts of a list get a node. -/
def assignNode (n : Addr) : Table → List Addr → Except Fault Table
  | s, [] => .ok s
  | s, c :: cs => do
      let contacts ← s.contacts.modify (some c) fun d => { d with node := some n }
      assignNode n { s with contacts } cs

/-- The contacts with a modified capacity, when a node was merged. -/
def rescheduleExceeded : Table → List Addr → Except Fault Table
  | s, [] => .ok s
  | s, c :: cs => do
      let d ← s.contacts.load (some c)
      let s ← if d.remainingCapacityP0 < 0 then rescheduleBundles s c else pure s
      rescheduleExceeded s cs

/-- Whether a CLA address is given. -/
def givenClaAddr : Option CStr → Bool
  | none => false
  | some addr => addr ≠ []

/-- `routing_table_add_node`, for a node that is in the table: `new` is merged into `n`. -/
def mergeNode (s : Table) (n new : Addr) : Except Fault Table := do
  let node ← s.nodes.load (some new)
  let cur ← s.nodes.load (some n)
  let claAddr := if givenClaAddr node.claAddr then node.claAddr else cur.claAddr
  let (endpoints, requests) := endpointListUnion mem s.requests cur.endpoints node.endpoints
  let (contacts, modified, s) ←
    contactListUnion mem { s with requests } cur.contacts node.contacts
  let s := { s with nodes := s.nodes.set n { cur with claAddr, endpoints, contacts } }
  let s ← assignNode n s contacts
  let s ← rescheduleExceeded s modified
  let s ← addNodeToTables mem hash s n
  freeNodeCell s new

/-- `routing_table_add_node`. -/
def routingTableAddNode (s : Table) (new : Addr) : Except Fault (Bool × Table) := do
  let node ← s.nodes.load (some new)
  match ← getNodeEntryByEid s node.eid with
  | none => addNewNode mem hash s new
  | some n =>
      let s ← mergeNode mem hash s n new
      pure (true, s)

/-- `routing_table_replace_node`. -/
def routingTableReplaceNode (s : Table) (new : Addr) : Except Fault (Bool × Table) := do
  let node ← s.nodes.load (some new)
  match ← getNodeEntryByEid s node.eid with
  | none => pure (false, s)
  | some n =>
      let s ← removeNodeFromTables hash s n true
      let s ← freeNode s n
      let s ← addNodeToTables mem hash { s with nodeList := s.nodeList.replace n new } new
      pure (true, s)

/-- A node leaves the table. -/
def deleteWholeNode (s : Table) (n : Addr) : Except Fault Table := do
  let s ← removeNodeFromTables hash { s with nodeList := s.nodeList.erase n } n true
  freeNode s n

/-- `routing_table_delete_node_by_eid`. -/
def routingTableDeleteNodeByEid (s : Table) (eid : CStr) : Except Fault (Bool × Table) := do
  match ← getNodeEntryByEid s (some eid) with
  | none => pure (false, s)
  | some n =>
      let s ← deleteWholeNode hash s n
      pure (true, s)

/-- The loop over the deleted contacts in `routing_table_delete_node`. -/
def dropDeleted : Table → List Addr → Except Fault Table
  | s, [] => .ok s
  | s, c :: cs => do
      let s ← rescheduleBundles s c
      let d ← s.contacts.load (some c)
      if d.active then dropDeleted s cs
      else
        let s ← freeContact s c
        dropDeleted s cs

/-- `routing_table_delete_node` for parts of the node `n`: the endpoints and contacts of `new`. -/
def deleteParts (s : Table) (n new : Addr) : Except Fault Table := do
  let node ← s.nodes.load (some new)
  let s ← removeNodeFromTables hash s n false
  let cur ← s.nodes.load (some n)
  let endpoints := endpointListDifference cur.endpoints node.endpoints
  let (contacts, modified, deleted, s) ←
    contactListDifference mem s cur.contacts node.contacts
  let s := { s with nodes := s.nodes.set n { cur with endpoints, contacts } }
  let s ← rescheduleAll s modified
  let s ← dropDeleted s deleted
  let s ← addNodeToTables mem hash s n
  freeNodeCell s new

/-- `routing_table_delete_node`. -/
def routingTableDeleteNode (s : Table) (new : Addr) : Except Fault (Bool × Table) := do
  let node ← s.nodes.load (some new)
  match ← getNodeEntryByEid s node.eid with
  | none =>
      let s ← freeNode s new
      pure (false, s)
  | some n =>
      if node.endpoints = [] ∧ node.contacts = [] then
        let s ← deleteWholeNode hash s n
        let s ← freeNode s new
        pure (true, s)
      else
        let s ← deleteParts mem hash s n new
        pure (true, s)

/-- The part of `routing_table_delete_contact` for the node of the contact. -/
def leaveNode (s : Table) (c : Addr) : Ptr → Except Fault Table
  | none => .ok s
  | some n => do
      let node ← s.nodes.load (some n)
      let eid ← nonNull node.eid
      let s ← removeFromAll hash c s (eid :: node.endpoints.map (·.str))
      let contacts := (removeContactFromList node.contacts c).getD node.contacts
      pure { s with nodes := s.nodes.set n { node with contacts } }

/-- `routing_table_delete_contact`. -/
def routingTableDeleteContact (s : Table) (c : Addr) : Except Fault Table := do
  let d ← s.contacts.load (some c)
  assertC d.contactBundles.isEmpty
  let s ← leaveNode hash s c d.node
  let s ← removeFromAll hash c s (d.contactEndpoints.map (·.str))
  freeContact
    { s with contactList := (removeContactFromList s.contactList c).getD s.contactList } c

/-! ## Commands -/

/-- `enum router_command_type`. -/
inductive CommandType where
  | undefined
  | add
  | update
  | delete
  | query
  deriving DecidableEq, Repr

/-- `process_router_command`. -/
def processRouterCommand (s : Table) (type : CommandType) (data : Addr) :
    Except Fault (Bool × Table) := do
  match ← nodePrepareAndVerify s data with
  | (false, s) =>
      let s ← freeNode s data
      pure (false, s)
  | (true, s) =>
      match type with
      | .add => routingTableAddNode mem hash s data
      | .update => routingTableReplaceNode mem hash s data
      | .delete => routingTableDeleteNode mem hash s data
      | _ =>
          let s ← freeNode s data
          pure (false, s)

end

end RoutingTable
