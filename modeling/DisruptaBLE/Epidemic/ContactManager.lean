import DisruptaBLE.Epidemic.Router

/-!
# The contact manager

The functions of `components/routing/epidemic/contact_manager.c` that keep the
contacts, with `router_handle_contact_event` as the callback for their events.
The contacts are cells of a memory of their own; the router refers to them by
their addresses.

`current_contact_count` has eight bits and a sign, and
`MAX_CONCURRENT_CONTACTS` does not fit into it.
-/

namespace EpidemicRouter

open PtrHeap

/-- `MAX_CONCURRENT_CONTACTS`. -/
def maxConcurrentContacts : Int := 257

/-- `CONFIG_CONTACT_TIMEOUT_S`. -/
def contactTimeoutS : Nat := 60

/-- The fields of `struct node` that identify a neighbour. -/
structure Node where
  eid : CStr
  claAddr : CStr
  deriving DecidableEq, Repr

/-- `struct contact`. -/
structure Contact where
  node : Node
  toTime : Nat
  active : Bool
  deriving DecidableEq, Repr

/-- What an event of the contact manager meets outside: the clock, `malloc`, and what
the router needs to send an offer. -/
structure CmEnv where
  now : Nat
  /-- memory for a router contact -/
  routerMem : Heap RouterContact → Option Addr
  routerMem_free : ∀ h a, routerMem h = some a → h.cells a = none
  /-- memory for a contact -/
  contactMem : Heap Contact → Option Addr
  contactMem_free : ∀ h a, contactMem h = some a → h.cells a = none
  /-- whether `node_create` finds memory -/
  nodeMem : Bool
  /-- whether `strdup` finds memory for the texts of a node -/
  textMem : Bool
  svOk : Bool

/-- `struct contact_manager_config`, with the router behind its callback. -/
structure ContactManager where
  contacts : Heap Contact
  currentContacts : List Addr
  currentContactCount : Int
  router : Router

/-- `contact_manager_init` and `router_init`. -/
def contactManagerInit (P : RouterParams) : ContactManager where
  contacts := Heap.empty
  currentContacts := []
  currentContactCount := 0
  router := routerInit P

/-- The contacts that the manager holds: the part of the array that is in use. -/
def ContactManager.held (s : ContactManager) : List Addr :=
  s.currentContacts.take s.currentContactCount.toNat

/-- The EID of a contact. -/
def contactEid (contacts : Heap Contact) (c : ContactRef) : CStr :=
  match contacts.cells c with
  | some k => k.node.eid
  | none => eidNone

/-- What the router sees during an event. -/
def CmEnv.routerEnv (env : CmEnv) (contacts : Heap Contact) : Env where
  now := env.now
  eid := contactEid contacts
  sendOk _ := false
  infoOk := false
  svOk := env.svOk

/-- `on_event`: the router is told about a contact. -/
def onEvent (P : RouterParams) (env : CmEnv) (s : ContactManager) (c : Addr) :
    Except Fault ContactManager := do
  let k ← s.contacts.load (some c)
  let (router, _) ← routerHandleContactEvent P s.router (env.routerEnv s.contacts) c k.active
    (env.routerMem s.router.contacts)
  pure { s with router }

/-- The search loop over the given entries. -/
def findContact (contacts : Heap Contact) (p : Contact → Bool) :
    List Addr → Except Fault Ptr
  | [] => .ok none
  | c :: cs => do
      let k ← contacts.load (some c)
      if p k then pure (some c) else findContact contacts p cs

/-- `find_contact_info_by_eid`. -/
def findContactInfoByEid (s : ContactManager) (eid : CStr) : Except Fault Ptr :=
  if eid = eidNone then .ok none
  else findContact s.contacts (fun k => k.node.eid = eid) s.held.reverse

/-- `find_contact_info_by_cla_addr`. -/
def findContactInfoByClaAddr (s : ContactManager) (claAddr : CStr) : Except Fault Ptr :=
  findContact s.contacts (fun k => k.node.claAddr = claAddr) s.held.reverse

/-- A new contact in the next place of the array. -/
def addContact (P : RouterParams) (env : CmEnv) (s : ContactManager) (node : Node) :
    Except Fault ContactManager :=
  if s.currentContactCount < maxConcurrentContacts then
    if s.currentContactCount < 0 then .error .dangling
    else
      match env.contactMem s.contacts with
      | none => .ok s
      | some c =>
          onEvent P env { s with
            contacts := s.contacts.set c ⟨node, env.now, false⟩
            currentContacts := s.held ++ [c]
            currentContactCount := int8 (s.currentContactCount + 1) } c
  else .ok s

/-- A known contact is seen again: "we also swap the node". -/
def swapNode (P : RouterParams) (env : CmEnv) (s : ContactManager) (c : Addr) (node : Node) :
    Except Fault ContactManager := do
  let contacts ← s.contacts.modify (some c) fun k => { k with node, toTime := max k.toTime env.now }
  onEvent P env { s with contacts } c

/-- `handle_discovered_neighbor`. -/
def handleDiscoveredNeighbor (P : RouterParams) (env : CmEnv) (s : ContactManager)
    (node : Node) : Except Fault ContactManager := do
  match ← findContactInfoByEid s node.eid with
  | some c => swapNode P env s c node
  | none =>
      match ← findContactInfoByClaAddr s node.claAddr with
      | some c => swapNode P env s c node
      | none => addContact P env s node

/-- `handle_missing_cla_address`. -/
def handleMissingClaAddress (P : RouterParams) (env : CmEnv) (s : ContactManager)
    (claAddr : CStr) : Except Fault ContactManager :=
  if env.nodeMem then do
    assertC env.textMem
    handleDiscoveredNeighbor P env s ⟨eidNone, claAddr⟩
  else .ok s

/-- The search of a contact by its address, which creates a missing one. -/
def findOrAdd (P : RouterParams) (env : CmEnv) (s : ContactManager) (claAddr : CStr) :
    Except Fault (ContactManager × Ptr) := do
  match ← findContactInfoByClaAddr s claAddr with
  | some c => pure (s, some c)
  | none =>
      let s ← handleMissingClaAddress P env s claAddr
      match ← findContactInfoByClaAddr s claAddr with
      | none => pure (s, none)
      | some c =>
          let s ← onEvent P env s c
          pure (s, some c)

/-- Set the active flag and tell the router, if the flag has the other value. -/
def setActive (P : RouterParams) (env : CmEnv) (s : ContactManager) (c : Addr)
    (active : Bool) : Except Fault ContactManager := do
  let k ← s.contacts.load (some c)
  if k.active = active then pure s
  else onEvent P env { s with contacts := s.contacts.set c { k with active } } c

/-- `handle_conn_up` and `handle_conn_down`. -/
def handleConn (P : RouterParams) (env : CmEnv) (s : ContactManager) (claAddr : CStr)
    (active : Bool) : Except Fault ContactManager := do
  match ← findOrAdd P env s claAddr with
  | (s, none) => pure s
  | (s, some c) => setActive P env s c active

/-- `handle_conn_up`. -/
def handleConnUp (P : RouterParams) (env : CmEnv) (s : ContactManager) (claAddr : CStr) :
    Except Fault ContactManager := handleConn P env s claAddr true

/-- `handle_conn_down`. -/
def handleConnDown (P : RouterParams) (env : CmEnv) (s : ContactManager) (claAddr : CStr) :
    Except Fault ContactManager := handleConn P env s claAddr false

/-- "update all active contacts to be active as of this current_timestamp". -/
def refreshActive (now : Nat) : Heap Contact → List Addr → Except Fault (Heap Contact)
  | contacts, [] => .ok contacts
  | contacts, c :: cs => do
      let contacts ← contacts.modify (some c) fun k =>
        if k.active then { k with toTime := max now k.toTime } else k
      refreshActive now contacts cs

/-- The second loop of `remove_expired_contacts`, for the indexes below the given
one; returns the removed contacts. -/
def removeExpiredLoop (P : RouterParams) (env : CmEnv) :
    Nat → ContactManager → Except Fault (ContactManager × List Addr)
  | 0, s => .ok (s, [])
  | i + 1, s =>
      match s.currentContacts[i]? with
      | none => .error .dangling
      | some c => do
          let k ← s.contacts.load (some c)
          if k.toTime ≤ env.now + contactTimeoutS then
            let s ← setActive P env s c false
            let s ← onEvent P env s c
            let (s, removed) ← removeExpiredLoop P env i { s with
              currentContacts := s.currentContacts.eraseIdx i
              currentContactCount := int8 (s.currentContactCount - 1) }
            pure (s, c :: removed)
          else removeExpiredLoop P env i s

/-- `remove_expired_contacts`. -/
def removeExpiredContacts (P : RouterParams) (env : CmEnv) (s : ContactManager) :
    Except Fault (ContactManager × List Addr) := do
  let contacts ← refreshActive env.now s.contacts s.held.reverse
  removeExpiredLoop P env s.currentContactCount.toNat { s with contacts }

/-- `free_contact` on the removed contacts. -/
def freeContacts : Heap Contact → List Addr → Except Fault (Heap Contact)
  | contacts, [] => .ok contacts
  | contacts, c :: cs => do
      let contacts ← contacts.release (some c)
      freeContacts contacts cs

/-- `remove_and_free_expired_contacts`. -/
def removeAndFreeExpiredContacts (P : RouterParams) (env : CmEnv) (s : ContactManager) :
    Except Fault ContactManager := do
  let (s, removed) ← removeExpiredContacts P env s
  let contacts ← freeContacts s.contacts removed
  pure { s with contacts }

/-! ## Runs -/

/-- The events that reach the contact manager. -/
inductive CmOp where
  | discovered (node : Node)
  | connUp (claAddr : CStr)
  | connDown (claAddr : CStr)
  | expire

/-- One event. -/
def cmStep (P : RouterParams) (env : CmEnv) (s : ContactManager) :
    CmOp → Except Fault ContactManager
  | .discovered node => handleDiscoveredNeighbor P env s node
  | .connUp claAddr => handleConnUp P env s claAddr
  | .connDown claAddr => handleConnDown P env s claAddr
  | .expire => removeAndFreeExpiredContacts P env s

/-- The states that events lead to, each of which satisfies `Q`. -/
inductive CmReachable (P : RouterParams) (Q : ContactManager → CmOp → Prop) :
    ContactManager → Prop where
  | init : CmReachable P Q (contactManagerInit P)
  | step {s s' : ContactManager} {env : CmEnv} {op : CmOp} :
      CmReachable P Q s → Q s op → cmStep P env s op = .ok s' → CmReachable P Q s'

end EpidemicRouter
