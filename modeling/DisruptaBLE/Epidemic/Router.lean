import DisruptaBLE.Lib.Chain
import DisruptaBLE.Epidemic.Htab

/-!
# The epidemic router

The functions of `components/routing/epidemic/router.c`, over a memory of list
entries and a memory of router contacts.

What lies outside is an `Env`, chosen anew for every operation: the clock, the
EID that each contact of the contact manager has at that time, and whether the
contact manager accepts a bundle for transmission.  What an operation hands to
other components is its list of `Output`s.

The array `router_contacts` with its counter is a list; the loops of the source
run over it from the last index to the first.
-/

namespace EpidemicRouter

open PtrHeap

/-- `EID_NONE`. -/
def eidNone : CStr := "dtn:none".toList

/-- `EPIDEMIC_DESTINATION`. -/
def epidemicDestination : CStr := "dtn://fake".toList

/-- `DIRECT_TRANSMISSION_DESTINATION`. -/
def directTransmissionDestination : CStr := "dtn://source".toList

/-- `ROUTING_AGENT_SINK_PREFIX`. -/
def routingAgentSinkPrefix : CStr := "routing/epidemic".toList

/-- `routing_agent_is_info_bundle`. -/
def routingAgentIsInfoBundle (eid : CStr) : Bool := strstr eid routingAgentSinkPrefix

/-- `struct summary_vector_entry`: a hash of eight bytes. -/
abbrev SvEntry := UInt64

/-- A `struct contact` of the contact manager. -/
abbrev ContactRef := Nat

/-- `enum bundle_routing_priority`. -/
inductive RoutingPriority where
  | low
  | normal
  | high
  deriving DecidableEq, Repr

/-- The configuration of a build, and the interface given to `router_init`. -/
structure RouterParams where
  /-- `CONFIG_BT_MAX_CONN` -/
  btMaxConn : Nat
  /-- `CONFIG_DIRECT_TRANSMISSION_REPLICAS` -/
  replicas : Int
  /-- `CONFIG_CONTINUOUS_SV_EXCHANGE` -/
  continuousSvExchange : Bool
  localEid : CStr
  /-- `hashlittle(key, strlen(key), 0)` -/
  hash : CStr → UInt32

/-- What the router reads of a `struct bundle`: fields, and the values of
`summary_vector_entry_from_bundle`, `bundle_get_routing_priority`,
`bundle_get_serialized_size` and `bundle_get_expiration_time_s`. -/
structure RouteBundle where
  id : UInt16
  source : CStr
  destination : CStr
  svEntry : SvEntry
  prio : RoutingPriority
  size : UInt32
  expTime : Nat
  deriving DecidableEq, Repr

/-- `struct bundle_info_list_entry`. -/
structure BundleInfo where
  svEntry : SvEntry
  id : UInt16
  numPendingTransmissions : UInt64
  prio : RoutingPriority
  size : UInt32
  expTime : Nat
  destination : CStr
  next : Ptr
  deriving DecidableEq, Repr

/-- `struct router_contact`. -/
structure RouterContact where
  contact : ContactRef
  index : Nat
  currentBundle : Ptr
  nextBundleCandidate : Ptr
  requestSv : Option (List SvEntry)
  deriving DecidableEq, Repr

/-- The fields of `struct routed_bundle` that the router sets. -/
structure RoutedBundle where
  id : UInt16
  prio : RoutingPriority
  size : UInt32
  expTime : Nat
  destination : CStr
  deriving DecidableEq, Repr

/-- The signals that the router sends to the bundle processor. -/
inductive RouterSignal where
  | bundleRouted
  | forwardingContraindicated
  | bundleExpired
  | transmissionSuccess
  | transmissionFailure
  deriving DecidableEq, Repr

/-- The reasons that go with them. -/
inductive RouterReason where
  | noInfo
  | noKnownRoute
  | lifetimeExpired
  deriving DecidableEq, Repr

/-- What an operation hands to other components. -/
inductive Output where
  /-- `bundle_processor_inform` -/
  | inform (id : UInt16) (signal : RouterSignal) (reason : RouterReason)
  /-- `routing_agent_send_offer_sv`: the offer, and the entries whose
  characteristic goes with it -/
  | offerSv (eid : CStr) (offer known : List SvEntry)
  /-- `contact_manager_try_to_send_bundle` returned `UD3TN_OK`; `entry` is the list
  entry that was scheduled, if it was one -/
  | scheduled (entry : Ptr) (rb : RoutedBundle)
  deriving DecidableEq, Repr

/-- What an operation meets outside the router. -/
structure Env where
  /-- `hal_time_get_timestamp_s` -/
  now : Nat
  /-- `contact->node->eid` -/
  eid : ContactRef → CStr
  /-- whether a bundle for this router contact can be scheduled -/
  sendOk : Addr → Bool
  /-- whether an info bundle can be scheduled -/
  infoOk : Bool
  /-- whether there is memory for summary vectors -/
  svOk : Bool

/-- `struct router_config`. -/
structure Router where
  infos : Heap BundleInfo
  head : Ptr
  tail : Ptr
  contacts : Heap RouterContact
  routerContacts : List Addr
  htab : Htab Addr
  nextBundleUpdate : Nat

/-- `router_init`. -/
def routerInit (P : RouterParams) : Router where
  infos := Heap.empty
  head := none
  tail := none
  contacts := Heap.empty
  routerContacts := []
  htab := Htab.init (P.btMaxConn - 1)
  nextBundleUpdate := 0

/-! ## Offers -/

/-- `bundle_should_be_offered`, for a contact with the given EID. -/
def bundleShouldBeOffered (now : Nat) (eid : CStr) (candidate : BundleInfo) : Bool :=
  if candidate.expTime < now then false
  else if candidate.numPendingTransmissions = 0 then strstr candidate.destination eid
  else true

/-- The walk of `create_offer_sv` and `create_known_sv` over the bundle list. -/
def collectSv (infos : Heap BundleInfo) (p : BundleInfo → Bool) :
    Nat → Ptr → Except Fault (List SvEntry)
  | 0, _ => .error .diverged
  | _ + 1, none => .ok []
  | fuel + 1, some a => do
      let e ← infos.load (some a)
      let rest ← collectSv infos p fuel e.next
      pure (if p e then e.svEntry :: rest else rest)

/-- `send_offer_sv`. -/
def sendOfferSv (s : Router) (env : Env) (rc : RouterContact) : Except Fault (List Output) :=
  if env.svOk then do
    let eid := env.eid rc.contact
    let known ← collectSv s.infos (fun _ => true) (s.infos.bound + 1) s.head
    let offer ← collectSv s.infos (bundleShouldBeOffered env.now eid) (s.infos.bound + 1) s.head
    pure [.offerSv eid offer known]
  else .ok []

/-! ## Expiry -/

/-- Whether a contact is sending this entry. -/
def inTransmission (contacts : Heap RouterContact) (a : Addr) :
    List Addr → Except Fault Bool
  | [] => .ok false
  | c :: cs => do
      let rc ← contacts.load (some c)
      if rc.currentBundle = some a then pure true else inTransmission contacts a cs

/-- Move the cursors that stand on a removed entry. -/
def advanceCursors (a : Addr) (next : Ptr) :
    Heap RouterContact → List Addr → Except Fault (Heap RouterContact)
  | contacts, [] => .ok contacts
  | contacts, c :: cs => do
      let contacts ← contacts.modify (some c) fun rc =>
        if rc.nextBundleCandidate = some a then { rc with nextBundleCandidate := next } else rc
      advanceCursors a next contacts cs

/-- Whether `update_bundle_info_list` deletes an entry. -/
def expires (s : Router) (now : Nat) (a : Addr) (e : BundleInfo) : Except Fault Bool :=
  if e.expTime < now then do
    let busy ← inTransmission s.contacts a s.routerContacts.reverse
    pure (!busy)
  else .ok false

/-- Link the neighbours of a removed entry. -/
def unlink (s : Router) (a : Addr) (prev next : Ptr) : Except Fault Router :=
  if s.head = some a then .ok { s with head := next }
  else do
    let infos ← s.infos.modify prev fun e => { e with next }
    pure { s with infos }

/-- The loop of `update_bundle_info_list`. -/
def expireLoop (now : Nat) : Nat → Router → Ptr → Ptr → Except Fault (Router × List Output)
  | 0, _, _, _ => .error .diverged
  | _ + 1, s, none, _ => .ok (s, [])
  | fuel + 1, s, some a, prev => do
      let e ← s.infos.load (some a)
      if ← expires s now a e then
        let s ← unlink s a prev e.next
        let s := { s with tail := if s.tail = some a then prev else s.tail }
        let contacts ← advanceCursors a e.next s.contacts s.routerContacts.reverse
        let infos ← s.infos.release (some a)
        let (s, out) ← expireLoop now fuel { s with contacts, infos } e.next prev
        pure (s, .inform e.id .bundleExpired .lifetimeExpired :: out)
      else expireLoop now fuel s e.next (some a)

/-- `update_bundle_info_list`. -/
def updateBundleInfoList (s : Router) (now : Nat) : Except Fault (Router × List Output) :=
  if now < s.nextBundleUpdate then .ok (s, [])
  else expireLoop now (s.infos.bound + 1) { s with nextBundleUpdate := now + 1 } s.head none

/-! ## Sending -/

/-- The search of a candidate in `send_bundles_to_contact`. -/
def findCandidate (infos : Heap BundleInfo) (now : Nat) (eid : CStr) (sv : List SvEntry) :
    Nat → Ptr → Except Fault Ptr
  | 0, _ => .error .diverged
  | _ + 1, none => .ok none
  | fuel + 1, some a => do
      let e ← infos.load (some a)
      if bundleShouldBeOffered now eid e && sv.contains e.svEntry then pure (some a)
      else findCandidate infos now eid sv fuel e.next

/-- The routed bundle that `try_to_send_bundle` makes of a list entry. -/
def routedBundle (eid : CStr) (e : BundleInfo) : RoutedBundle :=
  ⟨e.id, e.prio, e.size, e.expTime, eid⟩

/-- `send_bundles_to_contact`. -/
def sendBundlesToContact (s : Router) (env : Env) (c : Addr) :
    Except Fault (Router × List Output) := do
  let rc ← s.contacts.load (some c)
  match rc.requestSv with
  | none => pure (s, [])
  | some sv =>
      if rc.currentBundle.isSome then pure (s, [])
      else
        let eid := env.eid rc.contact
        let candidate ← findCandidate s.infos env.now eid sv (s.infos.bound + 1)
          rc.nextBundleCandidate
        match candidate with
        | none =>
            let contacts ← s.contacts.modify (some c) fun rc =>
              { rc with nextBundleCandidate := none }
            pure ({ s with contacts }, [])
        | some a =>
            let e ← s.infos.load (some a)
            if env.sendOk c then
              let contacts ← s.contacts.modify (some c) fun rc =>
                { rc with currentBundle := some a, nextBundleCandidate := e.next }
              pure ({ s with contacts }, [.scheduled (some a) (routedBundle eid e)])
            else
              let contacts ← s.contacts.modify (some c) fun rc =>
                { rc with nextBundleCandidate := some a }
              pure ({ s with contacts }, [])

/-- `send_bundles`, over the given contacts. -/
def sendBundles (env : Env) : Router → List Addr → Except Fault (Router × List Output)
  | s, [] => .ok (s, [])
  | s, c :: cs => do
      let (s, out) ← sendBundlesToContact s env c
      let (s, out') ← sendBundles env s cs
      pure (s, out ++ out')

/-- `router_update`. -/
def routerUpdate (s : Router) (env : Env) : Except Fault (Router × List Output) := do
  let (s, out) ← updateBundleInfoList s env.now
  let (s, out') ← sendBundles env s s.routerContacts.reverse
  pure (s, out ++ out')

/-! ## Routing -/

/-- The search of a duplicate in `route_epidemic_bundle`. -/
def hasDuplicate (infos : Heap BundleInfo) (sv : SvEntry) : Nat → Ptr → Except Fault Bool
  | 0, _ => .error .diverged
  | _ + 1, none => .ok false
  | fuel + 1, some a => do
      let e ← infos.load (some a)
      if sv = e.svEntry then pure true else hasDuplicate infos sv fuel e.next

/-- The number of transmissions that `route_epidemic_bundle` grants. -/
def initialTransmissions (P : RouterParams) (b : RouteBundle) : UInt64 :=
  if strstr b.destination epidemicDestination then -1
  else if strstr b.destination directTransmissionDestination then
    if P.replicas = -1 then -1
    else if strstr b.source P.localEid then UInt64.ofInt P.replicas
    else 0
  else 0

/-- The list entry for a bundle. -/
def bundleInfo (P : RouterParams) (b : RouteBundle) : BundleInfo where
  svEntry := b.svEntry
  id := b.id
  numPendingTransmissions := initialTransmissions P b
  prio := b.prio
  size := b.size
  expTime := b.expTime
  destination := b.destination
  next := none

/-- "we append this element to list's tail". -/
def appendInfo (s : Router) (a : Addr) (info : BundleInfo) : Except Fault Router :=
  match s.tail with
  | some t => do
      let infos := s.infos.set a info
      let last ← infos.load (some t)
      assertC last.next.isNone
      let infos ← infos.modify (some t) fun e => { e with next := some a }
      pure { s with infos, tail := some a }
  | none => do
      assertC s.head.isNone
      pure { s with infos := s.infos.set a info, tail := some a, head := some a }

/-- "It seems like we don't have any bundles to send for this contact". -/
def offerIfIdle (P : RouterParams) (s : Router) (env : Env) (c : Addr) :
    Except Fault (List Output) := do
  let rc ← s.contacts.load (some c)
  if rc.currentBundle.isNone && rc.nextBundleCandidate.isNone && P.continuousSvExchange then
    sendOfferSv s env rc
  else pure []

/-- The offers at the end of `route_epidemic_bundle`. -/
def offerToIdle (P : RouterParams) (s : Router) (env : Env) :
    List Addr → Except Fault (List Output)
  | [] => .ok []
  | c :: cs => do
      let out ← offerIfIdle P s env c
      let rest ← offerToIdle P s env cs
      pure (out ++ rest)

/-- `route_epidemic_bundle`; `mem` is the memory for the entry and `dup` tells
whether the destination could be copied. -/
def routeEpidemicBundle (P : RouterParams) (s : Router) (env : Env) (b : RouteBundle)
    (mem : Option Addr) (dup : Bool) : Except Fault (Bool × Router × List Output) :=
  match mem with
  | none => .ok (false, s, [])
  | some a => do
      let known ← hasDuplicate s.infos b.svEntry (s.infos.bound + 1) s.head
      if known || !dup then pure (false, s, [])
      else
        let s ← appendInfo s a (bundleInfo P b)
        let out ← offerToIdle P s env s.routerContacts.reverse
        pure (true, s, out)

/-- `route_info_bundle`. -/
def routeInfoBundle (s : Router) (env : Env) (b : RouteBundle) : Bool × Router × List Output :=
  if env.infoOk then
    (true, s, [.scheduled none ⟨b.id, b.prio, b.size, b.expTime, b.destination⟩])
  else (false, s, [])

/-- `router_route_bundle`. -/
def routerRouteBundle (P : RouterParams) (s : Router) (env : Env) (b : RouteBundle)
    (mem : Option Addr) (dup : Bool) : Except Fault (Router × List Output) := do
  let (success, s, out) ←
    if routingAgentIsInfoBundle b.destination then .ok (routeInfoBundle s env b)
    else routeEpidemicBundle P s env b mem dup
  pure (s, out ++ [if success then .inform b.id .bundleRouted .noInfo
    else .inform b.id .forwardingContraindicated .noKnownRoute])

/-! ## Transmission reports -/

/-- The first half of `router_signal_bundle_transmission`: if the report matches what
the contact is sending, the transmission is over.  Returns that contact. -/
def takeReport (P : RouterParams) (s : Router) (rb : RoutedBundle) :
    Except Fault (Router × Ptr) := do
  match ← htabGet P.hash s.htab rb.destination with
  | none => pure (s, none)
  | some c =>
      let rc ← s.contacts.load (some c)
      match rc.currentBundle with
      | none => pure (s, none)
      | some a =>
          let e ← s.infos.load (some a)
          if e.id = rb.id then
            let contacts ← s.contacts.modify (some c) fun rc => { rc with currentBundle := none }
            pure ({ s with contacts }, some c)
          else pure (s, none)

/-- `router_signal_bundle_transmission`. -/
def routerSignalBundleTransmission (P : RouterParams) (s : Router) (env : Env)
    (rb : RoutedBundle) (success : Bool) : Except Fault (Router × List Output) :=
  if routingAgentIsInfoBundle rb.destination then
    .ok (s, [.inform rb.id
      (if success then .transmissionSuccess else .transmissionFailure) .noInfo])
  else do
    match ← takeReport P s rb with
    | (s, none) => pure (s, [])
    | (s, some c) =>
        let (s, out) ← sendBundlesToContact s env c
        let out' ← offerIfIdle P s env c
        pure (s, out ++ out')

/-! ## Contact events -/

/-- A new router contact. -/
def addRouterContact (P : RouterParams) (s : Router) (env : Env) (contact : ContactRef)
    (c : Addr) : Except Fault (Router × List Output) := do
  match ← htabAdd P.hash s.htab (env.eid contact) c with
  | none => pure (s, [])
  | some htab =>
      let rc : RouterContact := ⟨contact, s.routerContacts.length, none, none, none⟩
      let s := { s with
        htab
        contacts := s.contacts.set c rc
        routerContacts := s.routerContacts ++ [c] }
      let out ← sendOfferSv s env rc
      pure (s, out)

/-- "if our contact is not the last in list, we move the last one to this
position": the array and the memory after the removal. -/
def closeGap (contacts : Heap RouterContact) (arr : List Addr) (index : Nat) :
    Except Fault (List Addr × Heap RouterContact) :=
  if index < arr.length - 1 then do
    let other := arr.getLast?
    let contacts ← contacts.modify other fun rc => { rc with index }
    pure ((arr.set index (other.getD 0)).dropLast, contacts)
  else .ok (arr.dropLast, contacts)

/-- The removal of a router contact. -/
def removeRouterContact (P : RouterParams) (s : Router) (eid : CStr) (c : Addr) :
    Except Fault Router := do
  let htab ← htabRemove P.hash s.htab eid
  let rc ← s.contacts.load (some c)
  let (routerContacts, contacts) ← closeGap s.contacts s.routerContacts rc.index
  let contacts ← contacts.release (some c)
  pure { s with htab, routerContacts, contacts }

/-- `router_handle_contact_event` for a contact with this `active` flag; `mem` is the
memory for a router contact. -/
def routerHandleContactEvent (P : RouterParams) (s : Router) (env : Env)
    (contact : ContactRef) (active : Bool) (mem : Option Addr) :
    Except Fault (Router × List Output) :=
  if env.eid contact = eidNone then .ok (s, [])
  else do
    match active, ← htabGet P.hash s.htab (env.eid contact), mem with
    | true, none, some c =>
        if s.routerContacts.length < P.btMaxConn - 1 then addRouterContact P s env contact c
        else pure (s, [])
    | false, some c, _ =>
        let s ← removeRouterContact P s (env.eid contact) c
        pure (s, [])
    | _, _, _ => pure (s, [])

/-! ## Request summary vectors -/

/-- The loop of `router_update_request_sv` over the bundle list. -/
def chargeLoop (old new : List SvEntry) :
    Nat → Heap BundleInfo → Ptr → Except Fault (Heap BundleInfo)
  | 0, _, _ => .error .diverged
  | _ + 1, infos, none => .ok infos
  | fuel + 1, infos, some a => do
      let e ← infos.load (some a)
      let infos ← infos.modify (some a) fun e =>
        if old.contains e.svEntry && !new.contains e.svEntry && 0 < e.numPendingTransmissions then
          { e with numPendingTransmissions := e.numPendingTransmissions - 1 }
        else e
      chargeLoop old new fuel infos e.next

/-- The comparison with the previous request. -/
def chargeBundles (s : Router) (old : Option (List SvEntry)) (new : List SvEntry) :
    Except Fault (Heap BundleInfo) :=
  match old with
  | none => .ok s.infos
  | some old => chargeLoop old new (s.infos.bound + 1) s.infos s.head

/-- The first half of `router_update_request_sv`: account for the bundles that are no
longer requested and store the request.  Returns the contact if it can be sent
something. -/
def takeRequest (P : RouterParams) (s : Router) (eid : CStr) (sv : List SvEntry) :
    Except Fault (Router × Ptr) := do
  match ← htabGet P.hash s.htab eid with
  | none => pure (s, none)
  | some c =>
      let rc ← s.contacts.load (some c)
      let infos ← chargeBundles s rc.requestSv sv
      if rc.currentBundle.isNone then
        let contacts ← s.contacts.modify (some c) fun rc =>
          { rc with requestSv := some sv, nextBundleCandidate := s.head }
        pure ({ s with infos, contacts }, some c)
      else
        let contacts ← s.contacts.modify (some c) fun rc => { rc with requestSv := some sv }
        pure ({ s with infos, contacts }, none)

/-- `router_update_request_sv`. -/
def routerUpdateRequestSv (P : RouterParams) (s : Router) (env : Env) (eid : CStr)
    (sv : List SvEntry) : Except Fault (Router × List Output) := do
  match ← takeRequest P s eid sv with
  | (s, none) => pure (s, [])
  | (s, some c) => sendBundlesToContact s env c

/-! ## Operations -/

/-- The entry points of the router. -/
inductive RouterOp where
  | routeBundle (b : RouteBundle) (mem : Option Addr) (dup : Bool)
  | update
  | contactEvent (contact : ContactRef) (active : Bool) (mem : Option Addr)
  | updateRequestSv (eid : CStr) (sv : List SvEntry)
  | signalTransmission (rb : RoutedBundle) (success : Bool)

/-- One operation. -/
def routerStep (P : RouterParams) (s : Router) (env : Env) :
    RouterOp → Except Fault (Router × List Output)
  | .routeBundle b mem dup => routerRouteBundle P s env b mem dup
  | .update => routerUpdate s env
  | .contactEvent contact active mem => routerHandleContactEvent P s env contact active mem
  | .updateRequestSv eid sv => routerUpdateRequestSv P s env eid sv
  | .signalTransmission rb success => routerSignalBundleTransmission P s env rb success

/-- `malloc` returns unused memory. -/
def FreshMem (s : Router) : RouterOp → Prop
  | .routeBundle _ mem _ => ∀ a, mem = some a → s.infos.cells a = none
  | .contactEvent _ _ mem => ∀ c, mem = some c → s.contacts.cells c = none
  | _ => True

/-- The states that operations lead to from `router_init`, in any order and in
any environment. -/
inductive RouterReachable (P : RouterParams) : Router → Prop where
  | init : RouterReachable P (routerInit P)
  | step {s s' : Router} {env : Env} {op : RouterOp} {out : List Output} :
      RouterReachable P s → FreshMem s op → routerStep P s env op = .ok (s', out) →
      RouterReachable P s'

end EpidemicRouter
