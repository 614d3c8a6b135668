import DisruptaBLE.Contact.CapacityAccounting
import Mathlib.Data.List.Sort

/-!
# The preemptive optimizer

`try_optimize_decision_preempt` of `components/routing/contact/router_optimizer.c`: a routed bundle
gets other contacts, and bundles of lower priority that are in its way get new routes.

The confidence into a contact is any function.  For floats, and with the confidence of the router,
the search is the one of the router (`routerCalculateFragmentRoute_eq`), and so are the additions to
contacts (`addToContacts_eq`).  Requests for memory are served here: the branches for those that
fail, `ROUTER_SIGNAL_OPTIMIZATION_DROP` among them, are left out.
-/

namespace ContactRouter

open PtrHeap (Addr bind_eq_ok ok_bind)
open BundleProcessor

/-! ## Confidence -/

/-- What the router does with confidences, which are floats in the code. -/
class Confidence (F : Type) where
  zero : F
  /-- `p + q - (p * q)` -/
  either : F → F → F
  less : F → F → Bool
  atMost : F → F → Bool

instance : Confidence Float32 where
  zero := 0
  either p q := p + q - p * q
  less p q := p < q
  atMost p q := p ≤ q

/-- `struct router_config`, as far as the optimizer reads it.  `router_update_config` accepts no
other one. -/
structure OptimizerConfig (F : Type) [Confidence F] where
  minProbability : F
  minNodeConfidenceOpportunistic : F
  minNodeConfidenceDeterministic : F
  optMaxPreBundles : UInt8
  optMaxPreBundlesContact : UInt8
  positive : Confidence.atMost minProbability Confidence.zero = false

/-- `struct associated_contact_list`: an entry. -/
structure Associated (F : Type) where
  data : Nat
  p : F

/-- What `router_calculate_fragment_route` finds. -/
structure FoundRoute (F : Type) where
  probability : F
  contacts : List Nat
  preemptionImproved : UInt8

/-! ## The contacts for a destination -/

section

variable {F : Type} (contacts : Nat → Contact)

/-- `add_contact_to_ordered_assoc_list`, by to-time. -/
def insertAssociated (x : Associated F) : List (Associated F) → List (Associated F)
  | [] => [x]
  | y :: l =>
      if y.data = x.data then y :: l
      else if (contacts x.data).toTime < (contacts y.data).toTime then x :: y :: l
      else y :: insertAssociated x l

/-- The EID of the node in a destination. -/
def destNodeEid (dest : CStr) : CStr :=
  if "dtn://".toList.isPrefixOf dest then dest.take 6 ++ (dest.drop 6).takeWhile (· ≠ '/')
  else dest

/-- `router_lookup_destination`, with the lists of the entries of the table of EIDs. -/
def routerLookupDestination (eidTable : CStr → Option (List (Associated F))) (dest : CStr) :
    List (Associated F) :=
  ((eidTable (destNodeEid dest)).getD []).foldl (fun l x => insertAssociated contacts x l) []

/-- No contact twice, and ordered by time. -/
def OrderedOnce (l : List (Associated F)) : Prop :=
  l.Pairwise fun x y =>
    x.data ≠ y.data ∧ (contacts x.data).toTime ≤ (contacts y.data).toTime

variable {contacts}

theorem mem_insertAssociated {x z : Associated F} {l : List (Associated F)}
    (h : z ∈ insertAssociated contacts x l) : z = x ∨ z ∈ l := by
  induction l with
  | nil => exact Or.inl (List.mem_singleton.1 h)
  | cons y l ih =>
      unfold insertAssociated at h
      split at h
      · exact Or.inr h
      split at h
      · exact List.mem_cons.1 h
      · rcases List.mem_cons.1 h with rfl | h
        · exact Or.inr List.mem_cons_self
        · exact (ih h).imp id fun hz => List.mem_cons_of_mem y hz

theorem OrderedOnce.insert {x : Associated F} {l : List (Associated F)}
    (h : OrderedOnce contacts l) : OrderedOnce contacts (insertAssociated contacts x l) := by
  induction l with
  | nil => exact List.pairwise_singleton _ _
  | cons y l ih =>
      obtain ⟨hy, hl⟩ := List.pairwise_cons.1 h
      unfold insertAssociated
      split
      · exact h
      next hne =>
      split
      · next hlt =>
        -- all that follows is later, so that the contact is not in it
        refine List.pairwise_cons.2 ⟨fun z hz => ?_, h⟩
        have hlater : (contacts x.data).toTime < (contacts z.data).toTime := by
          rcases List.mem_cons.1 hz with rfl | hz
          · exact hlt
          · exact UInt64.lt_of_lt_of_le hlt (hy z hz).2
        refine ⟨fun heq => ?_, UInt64.le_of_lt hlater⟩
        rw [heq] at hlater
        exact UInt64.lt_irrefl _ hlater
      · next hle =>
        refine List.pairwise_cons.2 ⟨fun z hz => ?_, ih hl⟩
        rcases mem_insertAssociated hz with rfl | hz
        · exact ⟨hne, UInt64.not_lt.1 hle⟩
        · exact hy z hz

/-- **No contact is found twice** for a destination. -/
theorem nodup_routerLookupDestination (contacts : Nat → Contact)
    (eidTable : CStr → Option (List (Associated F)))
    (dest : CStr) : ((routerLookupDestination contacts eidTable dest).map (·.data)).Nodup := by
  have hfold : ∀ (xs l : List (Associated F)), OrderedOnce contacts l →
      OrderedOnce contacts (xs.foldl (fun l x => insertAssociated contacts x l) l) := by
    intro xs
    induction xs with
    | nil => exact fun _ h => h
    | cons x xs ih => exact fun l h => ih _ h.insert
  exact List.pairwise_map.2 ((hfold _ [] List.Pairwise.nil).imp fun h => h.1)

end

/-! ## The search for a route -/

section

variable {F : Type} [Confidence F] (cfg : OptimizerConfig F) (confidence : Nat → F → F)
  (now : UInt64) (contacts : Nat → Contact)

open Confidence

/-- The loop of `router_calculate_fragment_route`. -/
def collectContactsBy (size : UInt32) (priority : RoutingPriority) (expTime : UInt64)
    (excluded : List Nat) : UInt32 → FoundRoute F → List (Associated F) → FoundRoute F
  | _, res, [] => res
  | preprocessedSize, res, x :: xs =>
      if !less res.probability cfg.minProbability || res.contacts.length = routerMaxContacts then
        res
      else
        let next (preprocessedSize : UInt32) (res : FoundRoute F) :=
          collectContactsBy size priority expTime excluded preprocessedSize res xs
        let c := contacts x.data
        if x.data ∈ excluded || expTime ≤ c.fromTime || c.toTime ≤ now then
          next preprocessedSize res
        else
          let cap := (contactGetCurRemainingCapacity now c .low).toUInt32
          if preprocessedSize ≠ 0 && cap ≤ preprocessedSize then
            next (preprocessedSize - cap) res
          else if cap - preprocessedSize < size then
            let rest := (contactGetCurRemainingCapacity now c priority).toUInt32 - preprocessedSize
            next 0 { res with
              preemptionImproved :=
                if size ≤ rest then res.preemptionImproved + 1 else res.preemptionImproved }
          else
            let conf := confidence x.data x.p
            if atMost cfg.minNodeConfidenceDeterministic conf then
              { res with contacts := [x.data], probability := conf }
            else if atMost cfg.minNodeConfidenceOpportunistic conf then
              next 0 { res with
                contacts := res.contacts ++ [x.data]
                probability := either res.probability conf }
            else next 0 res

/-- `router_calculate_fragment_route`, and whether the route is probable enough. -/
def calculateFragmentRouteBy (size : UInt32) (assoc : List (Associated F))
    (preprocessedSize : UInt32) (priority : RoutingPriority) (expTime : UInt64)
    (excluded : List Nat) : Bool × FoundRoute F :=
  let res := collectContactsBy cfg confidence now contacts size priority expTime excluded
    preprocessedSize { probability := zero, contacts := [], preemptionImproved := 0 } assoc
  (atMost cfg.minProbability res.probability, res)

/-- The configuration of the optimizer in that of the router. -/
def RouterConfig.optimizer (rc : RouterConfig) (optMaxPreBundles optMaxPreBundlesContact : UInt8)
    (positive : decide (rc.minProbability ≤ 0) = false) : OptimizerConfig Float32 where
  minProbability := rc.minProbability
  minNodeConfidenceOpportunistic := rc.minNodeConfidenceOpportunistic
  minNodeConfidenceDeterministic := rc.minNodeConfidenceDeterministic
  optMaxPreBundles
  optMaxPreBundlesContact
  positive

/-- A route for a payload. -/
def FoundRoute.withPayload (r : FoundRoute Float32) (payloadSize : UInt32) : FragmentRoute :=
  ⟨payloadSize, r.probability, r.contacts, r.preemptionImproved⟩

/-- An entry of the routing table. -/
def AssociatedContact.toAssociated (x : AssociatedContact) : Associated Float32 := ⟨x.data, x.p⟩

section

variable {rc : RouterConfig} (pre perContact : UInt8)
  (hpos : decide (rc.minProbability ≤ 0) = false) (now : UInt64) (contacts : Nat → Contact)
  (size payloadSize : UInt32) (priority : RoutingPriority) (expTime : UInt64) (excluded : List Nat)

/-- With floats, the loop is the one of the router. -/
theorem collectContacts_eq (preprocessedSize : UInt32) (res : FoundRoute Float32)
    (xs : List AssociatedContact) :
    collectContacts rc now contacts size priority expTime excluded preprocessedSize
        (res.withPayload payloadSize) xs =
      (collectContactsBy (rc.optimizer pre perContact hpos)
        (fun k p => routerContactConfidence rc (contacts k) p) now contacts size priority expTime
        excluded preprocessedSize res (xs.map (·.toAssociated))).withPayload payloadSize := by
  induction xs generalizing preprocessedSize res with
  | nil => rfl
  | cons x xs ih =>
      have hatMost : ∀ p q : Float32, (Confidence.atMost p q = true) = (p ≤ q) := fun p q =>
        propext decide_eq_true_iff
      unfold collectContacts
      rw [List.map_cons, collectContactsBy]
      simp only [apply_ite (FoundRoute.withPayload · payloadSize), ← ih, hatMost]
      rfl

/-- With floats and the confidence of the router, the search is the one of the router. -/
theorem routerCalculateFragmentRoute_eq (assoc : List AssociatedContact)
    (preprocessedSize : UInt32) :
    routerCalculateFragmentRoute rc now contacts payloadSize size assoc preprocessedSize priority
        expTime excluded =
      let (found, r) := calculateFragmentRouteBy (rc.optimizer pre perContact hpos)
        (fun k p => routerContactConfidence rc (contacts k) p) now contacts size
        (assoc.map (·.toAssociated)) preprocessedSize priority expTime excluded
      (found, r.withPayload payloadSize) := by
  have hloop := collectContacts_eq pre perContact hpos now contacts size payloadSize
    priority expTime excluded preprocessedSize ⟨0, [], 0⟩ assoc
  unfold routerCalculateFragmentRoute
  dsimp only
  rw [show (⟨payloadSize, 0, [], 0⟩ : FragmentRoute) =
    FoundRoute.withPayload ⟨0, [], 0⟩ payloadSize from rfl, hloop]
  rfl

end

/-! ## A new decision -/

/-- What a call of `do_preemption` puts into `preempted`, and whether it succeeds. -/
structure Choice where
  contact : Nat
  victims : List RoutedBundle
  success : Bool

/-- The loop of `do_preemption` over the sorted bundles: the size that is still to be found, and the
bundles that are taken.  So many are in `preempted` already, and so many were taken before. -/
def takeVictims (preemptedCount : Nat) :
    Nat → Int32 → List RoutedBundle → Int32 × List RoutedBundle
  | _, targetSize, [] => (targetSize, [])
  | taken, targetSize, rb :: rbs =>
      if 0 < targetSize && taken < cfg.optMaxPreBundlesContact.toNat &&
          preemptedCount + taken < cfg.optMaxPreBundles.toNat then
        let (targetSize, victims) :=
          takeVictims preemptedCount (taken + 1) (targetSize - rb.size.toInt32) rbs
        (targetSize, rb :: victims)
      else (targetSize, [])

/-- `get_less_prio_bundle_list`. -/
def getLessPrioBundleList (l : List RoutedBundle) (prio : RoutingPriority) : List RoutedBundle :=
  l.filter fun rb => rb.prio.level < prio.level

/-- The bundles of less priority as `do_preemption` sorts them: the lowest priority first, and of
one priority the largest first. -/
def preemptible (c : Contact) (prio : RoutingPriority) : List RoutedBundle :=
  ((getLessPrioBundleList c.contactBundles prio).insertionSort fun a b => b.size ≤ a.size
    ).insertionSort fun a b => a.prio.level ≤ b.prio.level

/-- `do_preemption`, with so many bundles in `preempted`. -/
def doPreemption (k : Nat) (prio : RoutingPriority) (size : UInt32) (preemptedCount : Nat) :
    Choice :=
  let c := contacts k
  let target := (size - (contactGetCurRemainingCapacity now c .low).toUInt32).toInt32
  let (target, victims) := takeVictims cfg preemptedCount 0 target (preemptible c prio)
  ⟨k, victims, !(0 < target)⟩

/-- The variables of `try_calculate_new_decision`, and the calls of `do_preemption` so far. -/
structure Decision (F : Type) where
  probability : F
  newc : List Nat
  preempted : List RoutedBundle
  choices : List Choice

/-- Whether a contact has, or gets, the capacity for the bundle. -/
def Decision.makeRoom (prio : RoutingPriority) (size : UInt32) (k : Nat) (d : Decision F) :
    Bool × Decision F :=
  let c := contacts k
  if contactGetCurRemainingCapacity now c prio < size.toInt32 || c.toTime ≤ now then (false, d)
  else if contactGetCurRemainingCapacity now c .low < size.toInt32 then
    let choice := doPreemption cfg now contacts k prio size d.preempted.length
    let preempted := if choice.success then d.preempted ++ choice.victims else d.preempted
    (choice.success, { d with preempted, choices := d.choices ++ [choice] })
  else (true, d)

/-- A contact with the capacity enters the decision, and whether this ends the loop. -/
def Decision.enter (x : Associated F) (d : Decision F) : Bool × Decision F :=
  let conf := confidence x.data x.p
  if atMost cfg.minNodeConfidenceDeterministic conf then
    (true, { d with newc := [x.data], probability := conf })
  else if atMost cfg.minNodeConfidenceOpportunistic conf then
    (false, { d with newc := d.newc ++ [x.data], probability := either d.probability conf })
  else (false, d)

/-- The loop of `try_calculate_new_decision`. -/
def decisionLoop (prio : RoutingPriority) (size : UInt32) :
    Decision F → List (Associated F) → Decision F
  | d, [] => d
  | d, x :: xs =>
      if !less d.probability cfg.minProbability || d.newc.length = routerMaxContacts then d
      else
        let (room, d) := d.makeRoom cfg now contacts prio size x.data
        if !room then decisionLoop prio size d xs
        else
          let (done, d) := d.enter cfg confidence x
          if done then d else decisionLoop prio size d xs

/-- `try_calculate_new_decision`. -/
def tryCalculateNewDecision (assoc : List (Associated F)) (prio : RoutingPriority)
    (size : UInt32) : Decision F :=
  decisionLoop cfg confidence now contacts prio size ⟨zero, [], [], []⟩ assoc

end

/-! ## Bundles change their contacts -/

/-- The contacts, the `contacts` of the routed bundle with an id, and the bundles whose `contacts`
`re_route_preempted_fragments` has released. -/
structure Assignments where
  contacts : Nat → Contact
  routes : UInt16 → List Nat
  released : List UInt16

/-- `router_remove_bundle_from_contact` for the contacts of a list. -/
def removeFromAll (id : UInt16) : (Nat → Contact) → List Nat → Nat → Contact :=
  List.foldl fun cs k => Function.update cs k ((cs k).removed id)

/-- `router_add_bundle_to_contact` for the contacts of a list. -/
def addToAll (rb : RoutedBundle) : (Nat → Contact) → List Nat → Except Fault (Nat → Contact)
  | cs, [] => .ok cs
  | cs, k :: ks => do
      assertP (0 < (cs k).remainingCapacityP0)
      addToAll rb (Function.update cs k ((cs k).added rb)) ks

theorem assertP_of {p : Prop} [Decidable p] (h : p) : assertP p = .ok () := by
  rw [decide_eq_true h]
  rfl

theorem assertP_of_not {p : Prop} [Decidable p] (h : ¬p) :
    assertP p = .error (.other .assertFailed) := by
  rw [decide_eq_false h]
  rfl

/-- While requests for memory are served, the additions are those of the router. -/
theorem addToContacts_eq {env : Env} (hserved : ∀ n, (env.malloc n).isSome = true)
    (rb : RoutedBundle) (s : Router) (ks : List Nat) :
    (addToContacts env rb s ks).map (fun o => o.2.contacts) = addToAll rb s.contacts ks := by
  induction ks generalizing s with
  | nil => rfl
  | cons k ks ih =>
      unfold addToContacts addToAll
      by_cases hpos : 0 < (s.contacts k).remainingCapacityP0
      · obtain ⟨⟨added, s₁⟩, hadd⟩ := addToContact_of_capacity env rb hpos
        obtain ⟨-, hadded, hcontacts⟩ := addToContact_cases hadd
        have htrue : added = true := hadded.trans (hserved _)
        rw [htrue, if_pos rfl] at hcontacts
        rw [hadd, ok_bind, assertP_of hpos, ok_bind, ← hcontacts, ← ih]
        dsimp only
        cases addToContacts env rb s₁ ks <;> rfl
      · unfold routerAddBundleToContact
        rw [assertP_of_not hpos]
        rfl

/-- The removals are those of the router. -/
theorem removeBundleFromRoute_eq (s : Router) (r : FragmentRoute) (id : UInt16) :
    (routerRemoveBundleFromRoute s r id).contacts = removeFromAll id s.contacts r.contacts := by
  unfold routerRemoveBundleFromRoute removeFromAll
  induction r.contacts generalizing s with
  | nil => rfl
  | cons k ks ih => rw [List.foldl_cons, List.foldl_cons, ih, contacts_removeFromContact]

section

variable {F : Type}

/-- `router_update_routed_bundle`. -/
def Assignments.updateRoutedBundle (s : Assignments) (r : FoundRoute F) (rb : RoutedBundle) :
    Except Fault Assignments := do
  assertP (r.contacts ≠ [])
  let contacts ← addToAll { rb with preemptionImprovement := r.preemptionImproved } s.contacts
    r.contacts
  pure { s with contacts, routes := Function.update s.routes rb.id r.contacts }

/-- The second loop of `re_route_preempted_fragments`. -/
def applyRoutes : Assignments → List (RoutedBundle × FoundRoute F) → Except Fault Assignments
  | s, [] => .ok s
  | s, (rb, r) :: rest => do
      let contacts := removeFromAll rb.id s.contacts (s.routes rb.id)
      -- `free(preempted[i]->contacts)`
      let routes := Function.update s.routes rb.id []
      let s ← Assignments.updateRoutedBundle ⟨contacts, routes, s.released ++ [rb.id]⟩ r rb
      applyRoutes s rest

variable [Confidence F] (cfg : OptimizerConfig F) (confidence : Nat → F → F)
  (eidTable : CStr → Option (List (Associated F))) (now : UInt64)

/-- The first loop of `re_route_preempted_fragments`: the new routes, if all are found. -/
def newRoutes (contacts : Nat → Contact) (ignored : List Nat) :
    List RoutedBundle → Option (List (FoundRoute F))
  | [] => some []
  | rb :: rbs =>
      let assoc := routerLookupDestination contacts eidTable rb.destination
      if assoc.isEmpty then none
      else
        let (found, r) := calculateFragmentRouteBy cfg confidence now contacts rb.size assoc 0
          rb.prio rb.expTime ignored
        if !found then none else (newRoutes contacts ignored rbs).map (r :: ·)

/-- `re_route_preempted_fragments`, and whether it succeeds. -/
def reRoutePreemptedFragments (s : Assignments) (preempted : List RoutedBundle)
    (ignored : List Nat) : Except Fault (Bool × Assignments) := do
  assertP (preempted ≠ [])
  match newRoutes cfg confidence eidTable now s.contacts ignored preempted with
  | none => pure (false, s)
  | some routes =>
      let s ← applyRoutes s (preempted.zip routes)
      pure (true, s)

/-- What `try_optimize_decision_preempt` does: whether the new decision is applied, the calls of
`do_preemption`, and the state. -/
structure Optimization where
  applied : Bool
  choices : List Choice
  state : Assignments

/-- `try_optimize_decision_preempt`; `buffer` tells whether `preempted` was initialized. -/
def tryOptimizeDecisionPreempt (buffer : Bool) (s : Assignments) (rb : RoutedBundle) :
    Except Fault Optimization := do
  if !buffer then pure ⟨false, [], s⟩
  else
    let old := s.routes rb.id
    let s := { s with contacts := removeFromAll rb.id s.contacts old }
    let assoc := routerLookupDestination s.contacts eidTable rb.destination
    if assoc.isEmpty then
      let contacts ← addToAll rb s.contacts old
      pure ⟨false, [], { s with contacts }⟩
    else
      let rb := { rb with preemptionImprovement := 0 }
      let d := tryCalculateNewDecision cfg confidence now s.contacts assoc rb.prio rb.size
      let (success, s) ←
        (if Confidence.atMost cfg.minProbability d.probability then
          reRoutePreemptedFragments cfg confidence eidTable now s d.preempted d.newc
        else pure (false, s))
      if success then
        assertP (d.newc ≠ [])
        let contacts ← addToAll rb s.contacts d.newc
        pure ⟨true, d.choices, { s with contacts, routes := Function.update s.routes rb.id d.newc }⟩
      else
        let contacts ← addToAll rb s.contacts old
        pure ⟨false, d.choices, { s with contacts }⟩

end

end ContactRouter
