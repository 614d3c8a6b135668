import DisruptaBLE.Contact.Fragmenter

/-!
# The contact graph router

`components/routing/contact/router.c`: the search for a route over the planned contacts, and
the entries of routed bundles at the contacts.

The routing table is the function `routerLookupDestination` from destinations to the contacts
over which they are reachable, each with its probability.  Contacts are numbered.  The CLA of a
contact is present by the size of its largest bundle.
-/

namespace ContactRouter

open PtrHeap (Addr)
open BundleProcessor BundleStorage

/-! ## Contacts and routes -/

/-- `ROUTER_MAX_FRAGMENTS`. -/
def routerMaxFragments : Nat := 10

/-- `ROUTER_MAX_CONTACTS`. -/
def routerMaxContacts : Nat := 4

/-- `struct router_config`, as far as the search for a route reads it. -/
structure RouterConfig where
  globalMbs : Nat
  fragmentMinPayload : UInt16
  minProbability : Float32
  minNodeConfidenceOpportunistic : Float32
  minNodeConfidenceDeterministic : Float32
  nodeTrustworthinessWeight : Float32
  nodeReliabilityWeight : Float32

/-- `enum bundle_routing_priority`. -/
inductive RoutingPriority where
  | low
  | normal
  | high
  deriving DecidableEq, Repr

/-- `BUNDLE_V6_FLAG_NORMAL_PRIORITY`. -/
def flagNormalPriority : UInt32 := 0x000080

/-- `BUNDLE_V6_FLAG_EXPEDITED_PRIORITY`. -/
def flagExpeditedPriority : UInt32 := 0x000100

/-- `bundle_get_routing_priority`. -/
def bundleGetRoutingPriority (b : Bundle) : RoutingPriority :=
  if b.ret.flagOwn || b.ret.custodyAccepted ||
      (b.protocolVersion = 6 && hasFlag b.procFlags flagExpeditedPriority) then .high
  else if b.protocolVersion = 7 || hasFlag b.procFlags flagNormalPriority then .normal
  else .low

/-- `struct routed_bundle`, without what the transmission counts. -/
structure RoutedBundle where
  id : UInt16
  prio : RoutingPriority
  size : UInt32
  expTime : UInt64
  destination : CStr
  preemptionImprovement : UInt8

/-- `struct contact`, with what is read of its node: the confidence into it, and the size of
the largest bundle of its CLA. -/
structure Contact where
  trustworthiness : Float32
  reliability : Float32
  claMbs : Option Nat
  fromTime : UInt64
  toTime : UInt64
  totalCapacity : UInt32
  remainingCapacityP0 : Int32
  remainingCapacityP1 : Int32
  remainingCapacityP2 : Int32
  contactBundles : List RoutedBundle
  bundleCount : UInt8

/-- `struct associated_contact_list`: an entry. -/
structure AssociatedContact where
  data : Nat
  p : Float32

/-- `struct fragment_route`. -/
structure FragmentRoute where
  payloadSize : UInt32
  probability : Float32
  contacts : List Nat
  preemptionImproved : UInt8

/-- `struct router_result`. -/
structure RouterResult where
  probability : Float32
  fragmentResults : List FragmentRoute
  preemptionImproved : UInt8

/-- `CONTACT_CAPACITY`. -/
def contactCapacity (c : Contact) : RoutingPriority → Int32
  | .normal => c.remainingCapacityP1
  | .high => c.remainingCapacityP2
  | .low => c.remainingCapacityP0

/-- `contact_get_cur_remaining_capacity`. -/
def contactGetCurRemainingCapacity (now : UInt64) (c : Contact) (prio : RoutingPriority) :
    Int32 :=
  if c.toTime ≤ now then 0
  else if now ≤ c.fromTime then contactCapacity c prio
  else
    let capLeft := c.totalCapacity.toUInt64 * (c.toTime - now) / (c.toTime - c.fromTime)
    let capResult : Int32 := if 0x7FFFFFFF < capLeft then 0x7FFFFFFF else capLeft.toUInt32.toInt32
    if capResult < contactCapacity c prio then capResult else contactCapacity c prio

/-- `ROUTER_CONTACT_CONFIDENCE`. -/
def routerContactConfidence (rc : RouterConfig) (c : Contact) (p : Float32) : Float32 :=
  (rc.nodeTrustworthinessWeight * c.trustworthiness + rc.nodeReliabilityWeight * c.reliability) * p

/-! ## The search for a route -/

/-- The loop of `router_get_max_reasonable_fragment_size`: the capacity for payload, and the
largest size of a fragment. -/
def collectCapacity (rc : RouterConfig) (now : UInt64) (contacts : Nat → Contact)
    (fullSize maxFragmentMinSize payloadSize minCapacity : UInt32) (priority : RoutingPriority) :
    UInt32 → UInt32 → List AssociatedContact → UInt32 × UInt32
  | payloadCapacity, maxFragSize, [] => (payloadCapacity, maxFragSize)
  | payloadCapacity, maxFragSize, x :: xs =>
      if payloadSize ≤ payloadCapacity then (payloadCapacity, maxFragSize)
      else
        let next (payloadCapacity maxFragSize : UInt32) := collectCapacity rc now contacts
          fullSize maxFragmentMinSize payloadSize minCapacity priority payloadCapacity
          maxFragSize xs
        let c := contacts x.data
        let cCapacity := (contactGetCurRemainingCapacity now c priority).toUInt32
        if cCapacity < minCapacity then next payloadCapacity maxFragSize
        else
          match c.claMbs with
          | none => next payloadCapacity maxFragSize
          | some mbs =>
              let cMbs := min (min cCapacity.toNat mbs) rc.globalMbs
              let smaller := UInt32.ofNat (min maxFragSize.toNat cMbs)
              let cPayCapacity := (cCapacity - maxFragmentMinSize).toInt32
              let roomy : Bool := rc.fragmentMinPayload.toUInt32.toInt32 < cPayCapacity
              let conf := routerContactConfidence rc c x.p
              if rc.minNodeConfidenceDeterministic ≤ conf then
                if roomy then
                  if fullSize ≤ cCapacity then
                    (payloadCapacity + cPayCapacity.toUInt32, smaller)
                  else next (payloadCapacity + cPayCapacity.toUInt32) smaller
                else next payloadCapacity maxFragSize
              else if rc.minNodeConfidenceOpportunistic ≤ conf then
                if roomy then
                  next (payloadCapacity + (conf * cPayCapacity.toFloat32).toUInt32) smaller
                else next payloadCapacity maxFragSize
              else next payloadCapacity maxFragSize

/-- `router_get_max_reasonable_fragment_size`. -/
def routerGetMaxReasonableFragmentSize (rc : RouterConfig) (now : UInt64)
    (contacts : Nat → Contact) (assoc : List AssociatedContact)
    (fullSize maxFragmentMinSize payloadSize : UInt32) (priority : RoutingPriority) : UInt32 :=
  let minCapacity := payloadSize / UInt32.ofNat routerMaxFragments + maxFragmentMinSize
  let (payloadCapacity, maxFragSize) := collectCapacity rc now contacts fullSize
    maxFragmentMinSize payloadSize minCapacity priority 0 0xFFFFFFFF assoc
  if payloadCapacity < payloadSize then 0 else maxFragSize

/-- The loop of `router_calculate_fragment_route`, with the bytes that earlier fragments take
from the first contacts. -/
def collectContacts (rc : RouterConfig) (now : UInt64) (contacts : Nat → Contact)
    (size : UInt32) (priority : RoutingPriority) (expTime : UInt64) (excluded : List Nat) :
    UInt32 → FragmentRoute → List AssociatedContact → FragmentRoute
  | _, res, [] => res
  | preprocessedSize, res, x :: xs =>
      if !(res.probability < rc.minProbability) || res.contacts.length = routerMaxContacts then res
      else
        let next (preprocessedSize : UInt32) (res : FragmentRoute) := collectContacts rc now
          contacts size priority expTime excluded preprocessedSize res xs
        let c := contacts x.data
        if x.data ∈ excluded || expTime ≤ c.fromTime || c.toTime ≤ now then
          next preprocessedSize res
        else
          let cap := (contactGetCurRemainingCapacity now c .low).toUInt32
          if preprocessedSize ≠ 0 && cap ≤ preprocessedSize then
            next (preprocessedSize - cap) res
          else if cap - preprocessedSize < size then
            let rest := (contactGetCurRemainingCapacity now c priority).toUInt32 - preprocessedSize
            next 0 { res with
              preemptionImproved :=
                if size ≤ rest then res.preemptionImproved + 1 else res.preemptionImproved }
          else
            let conf := routerContactConfidence rc c x.p
            if rc.minNodeConfidenceDeterministic ≤ conf then
              { res with contacts := [x.data], probability := conf }
            else if rc.minNodeConfidenceOpportunistic ≤ conf then
              next 0 { res with
                contacts := res.contacts ++ [x.data]
                probability := res.probability + conf - res.probability * conf }
            else next 0 res

/-- `router_calculate_fragment_route`, and whether the route is probable enough. -/
def routerCalculateFragmentRoute (rc : RouterConfig) (now : UInt64) (contacts : Nat → Contact)
    (payloadSize size : UInt32) (assoc : List AssociatedContact) (preprocessedSize : UInt32)
    (priority : RoutingPriority) (expTime : UInt64) (excluded : List Nat) :
    Bool × FragmentRoute :=
  let res := collectContacts rc now contacts size priority expTime excluded preprocessedSize
    { payloadSize, probability := 0, contacts := [], preemptionImproved := 0 } assoc
  (rc.minProbability ≤ res.probability, res)

/-- The result of a search without success. -/
def RouterResult.none : RouterResult := ⟨0, [], 0⟩

/-- `router_get_first_route_nonfrag`. -/
def routerGetFirstRouteNonfrag (rc : RouterConfig) (now : UInt64) (contacts : Nat → Contact)
    (assoc : List AssociatedContact) (b : Bundle) (bundleSize : UInt32)
    (expirationTime : UInt64) : RouterResult :=
  let (found, res) := routerCalculateFragmentRoute rc now contacts b.payloadLength bundleSize
    assoc 0 (bundleGetRoutingPriority b) expirationTime []
  if found then ⟨res.probability, [res], res.preemptionImproved⟩ else .none

/-- The first loop of `router_get_first_route_frag`: the payload sizes of at most so many
fragments, and what remains of the payload. -/
def payloadSizes (rc : RouterConfig) (maxFragSz midFragSz lastFragSz : UInt32) :
    Nat → UInt32 → UInt32 → List UInt32 × UInt32
  | 0, _, remainingPay => ([], remainingPay)
  | n + 1, nextFragSz, remainingPay =>
      if remainingPay = 0 then ([], 0)
      else
        let minPay := (min remainingPay rc.fragmentMinPayload.toUInt32).toInt32
        let maxPay := (maxFragSz - nextFragSz).toInt32
        if maxPay < minPay then ([], remainingPay)
        else if remainingPay ≤ maxFragSz - lastFragSz then ([remainingPay], 0)
        else
          let pay := (min remainingPay.toInt32 maxPay).toUInt32
          let (sizes, rest) := payloadSizes rc maxFragSz midFragSz lastFragSz n midFragSz
            (remainingPay - pay)
          (pay :: sizes, rest)

/-- The second loop of `router_get_first_route_frag`, from the fragment with this index on:
whether all routes are probable enough, and the routes. -/
def fragmentRoutes (rc : RouterConfig) (now : UInt64) (contacts : Nat → Contact)
    (assoc : List AssociatedContact) (priority : RoutingPriority) (expirationTime : UInt64)
    (firstFragSz midFragSz lastFragSz : UInt32) :
    Nat → UInt32 → List UInt32 → Bool × List FragmentRoute
  | _, _, [] => (true, [])
  | index, processedSz, payloadSize :: rest =>
      let bundleSize := payloadSize +
        (if index = 0 then firstFragSz else if rest = [] then lastFragSz else midFragSz)
      let (found, route) := routerCalculateFragmentRoute rc now contacts payloadSize bundleSize
        assoc processedSz priority expirationTime []
      let (all, routes) := fragmentRoutes rc now contacts assoc priority expirationTime
        firstFragSz midFragSz lastFragSz (index + 1) (processedSz + bundleSize) rest
      (found && all, route :: routes)

/-- `router_get_first_route_frag`. -/
def routerGetFirstRouteFrag (rc : RouterConfig) (now : UInt64) (contacts : Nat → Contact)
    (assoc : List AssociatedContact) (b : Bundle) (expirationTime : UInt64)
    (maxFragSz firstFragSz midFragSz lastFragSz : UInt32) : RouterResult :=
  if maxFragSz < firstFragSz || maxFragSz < lastFragSz then .none
  else
    let (sizes, remainingPay) := payloadSizes rc maxFragSz midFragSz lastFragSz
      routerMaxFragments firstFragSz b.payloadLength
    if remainingPay ≠ 0 then .none
    else
      let (found, routes) := fragmentRoutes rc now contacts assoc (bundleGetRoutingPriority b)
        expirationTime firstFragSz midFragSz lastFragSz 0 0 sizes
      if found then
        ⟨routes.foldl (fun p r => p * r.probability) 1, routes,
          routes.foldl (fun n r => n + r.preemptionImproved) 0⟩
      else .none

/-- `router_get_first_route`: the route, and the bundle after the queries of its sizes. -/
def routerGetFirstRoute (rc : RouterConfig) (now : UInt64) (contacts : Nat → Contact)
    (routerLookupDestination : CStr → List AssociatedContact) (b : Bundle) :
    RouterResult × Bundle :=
  let expirationTime := bundleGetExpirationTimeS now b
  let assoc := routerLookupDestination b.destination
  if assoc.isEmpty then (.none, b)
  else
    let (size, b) := bundleGetSerializedSize b
    let (first, b) := bundleGetFirstFragmentMinSize b
    let (last, b) := bundleGetLastFragmentMinSize b
    let bundleSize := UInt32.ofNat size
    let firstFragSz := UInt32.ofNat first
    let lastFragSz := UInt32.ofNat last
    let maxFragmentSize := routerGetMaxReasonableFragmentSize rc now contacts assoc bundleSize
      (max firstFragSz lastFragSz) b.payloadLength (bundleGetRoutingPriority b)
    if maxFragmentSize = 0 then (.none, b)
    else if bundleMustNotFragment b || bundleSize ≤ maxFragmentSize then
      (routerGetFirstRouteNonfrag rc now contacts assoc b bundleSize expirationTime, b)
    else
      let (mid, b) := bundleGetMidFragmentMinSize b
      (routerGetFirstRouteFrag rc now contacts assoc b expirationTime maxFragmentSize
        firstFragSz (UInt32.ofNat mid) lastFragSz, b)

/-! ## Bundles at contacts -/

/-- The bundles of the node, and the contacts of the router. -/
structure Router where
  node : Processor
  contacts : Nat → Contact

/-- `malloc`. -/
def Router.malloc (env : Env) (s : Router) : Bool × Router :=
  ((env.malloc s.node.requests).isSome, { s with node := (BundleProcessor.malloc env s.node).2 })

/-- The state with another contact under a number. -/
def Router.setContact (s : Router) (k : Nat) (c : Contact) : Router :=
  { s with contacts := Function.update s.contacts k c }

/-- A contact whose capacities for bundles of a priority are changed by `f`. -/
def Contact.changeCapacity (c : Contact) (prio : RoutingPriority) (f : Int32 → Int32) : Contact :=
  { c with
    remainingCapacityP0 := f c.remainingCapacityP0
    remainingCapacityP1 := if prio = .low then c.remainingCapacityP1 else f c.remainingCapacityP1
    remainingCapacityP2 :=
      if prio = .high then f c.remainingCapacityP2 else c.remainingCapacityP2 }

/-- `router_add_bundle_to_contact`, and whether it succeeds. -/
def routerAddBundleToContact (env : Env) (s : Router) (k : Nat) (rb : RoutedBundle) :
    Except Fault (Bool × Router) := do
  assertP (0 < (s.contacts k).remainingCapacityP0)
  let (entry, s) := s.malloc env
  if !entry then pure (false, s)
  else
    let c := s.contacts k
    let c :=
      { c with
        contactBundles := c.contactBundles ++ [rb]
        bundleCount := c.bundleCount + 1 }
    pure (true, s.setContact k (c.changeCapacity rb.prio (· - rb.size.toInt32)))

/-- `router_remove_bundle_from_contact`: the first entry with this id goes. -/
def routerRemoveBundleFromContact (s : Router) (k : Nat) (id : UInt16) : Router :=
  let c := s.contacts k
  match c.contactBundles.find? (·.id = id) with
  | none => s
  | some rb =>
      let c :=
        { c with
          contactBundles := c.contactBundles.eraseP (·.id = id)
          bundleCount := c.bundleCount - 1 }
      s.setContact k (c.changeCapacity rb.prio (· + rb.size.toInt32))

/-- The loop of `router_update_routed_bundle`: whether some contact got the bundle. -/
def addToContacts (env : Env) (rb : RoutedBundle) : Router → List Nat → Except Fault (Bool × Router)
  | s, [] => .ok (false, s)
  | s, k :: ks => do
      let (added, s) ← routerAddBundleToContact env s k rb
      let (more, s) ← addToContacts env rb s ks
      pure (added || more, s)

/-- `router_update_routed_bundle`. -/
def routerUpdateRoutedBundle (env : Env) (s : Router) (r : FragmentRoute) (rb : RoutedBundle) :
    Except Fault (Bool × Router) := do
  assertP (r.contacts ≠ [])
  let (contacts, s) := s.malloc env
  if !contacts then pure (false, s)
  else addToContacts env { rb with preemptionImprovement := r.preemptionImproved } s r.contacts

/-- `router_add_bundle_to_route`. -/
def routerAddBundleToRoute (env : Env) (s : Router) (r : FragmentRoute) (a : Addr) :
    Except Fault (Bool × Router) := do
  let (rb, s) := s.malloc env
  if !rb then pure (false, s)
  else
    let b ← s.node.bundle a
    let (size, b') := bundleGetSerializedSize b
    let node ← s.node.update a fun _ => b'
    let s := { s with node }
    let (destination, s) := s.malloc env
    if !destination then pure (false, s)
    else
      routerUpdateRoutedBundle env s r
        { id := b.id
          prio := bundleGetRoutingPriority b
          size := UInt32.ofNat size
          expTime := bundleGetExpirationTimeS env.now b
          destination := b.destination
          preemptionImprovement := 0 }

/-- `router_remove_bundle_from_route`. -/
def routerRemoveBundleFromRoute (s : Router) (r : FragmentRoute) (id : UInt16) : Router :=
  r.contacts.foldl (fun s k => routerRemoveBundleFromContact s k id) s

end ContactRouter
