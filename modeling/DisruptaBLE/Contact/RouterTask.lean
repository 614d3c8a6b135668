import DisruptaBLE.Contact.Router
import DisruptaBLE.Processor.Runs

/-!
# The task of the contact graph router

`process_bundle` and `apply_fragmentation` of `components/routing/contact/router_task.c`, and what
their loops do.

The first loop cuts a copy of the bundle (`cutFragments_spec`), and the second one stores and
routes the fragments (`addFragments_spec`).  Through both of them, also where they give up, the
bundle itself stays in the storage (`Held`).
-/

namespace ContactRouter

open PtrHeap (Addr Heap)
open BundleProcessor BundleStorage Bundle7 Outcome

/-! ## Definitions -/

/-- `struct bundle_processing_result`. -/
structure ProcessingResult where
  statusOrFragments : Int
  fragmentIds : List UInt16
  deriving DecidableEq, Repr

/-- `BUNDLE_RESULT_NO_ROUTE`. -/
def resultNoRoute : Int := 0

/-- `BUNDLE_RESULT_NO_MEMORY`. -/
def resultNoMemory : Int := -2

/-- `BUNDLE_RESULT_EXPIRED`. -/
def resultExpired : Int := -4

/-- `bundle_free`. -/
def bundleFree (s : Processor) (a : Addr) : Except Fault Processor := do
  let _ ← s.bundle a
  pure { s with bundles := s.bundles.erase a }

/-- `bundle_free` for several bundles. -/
def freeAll : Processor → List Addr → Except Fault Processor
  | s, [] => .ok s
  | s, x :: xs => do
      let s ← bundleFree s x
      freeAll s xs

/-- The first loop of `apply_fragmentation`, for the routes of all fragments but the last one:
`cur` is the remainder, and `done` are the fragments cut from it so far.  The request of a cut
is counted even if it returns the same bundle. -/
def cutFragments (env : Env) (a : Addr) :
    Processor → List Addr → Addr → List FragmentRoute →
      Except Fault (Option (List Addr) × Processor)
  | s, done, cur, [] => .ok (some (done ++ [cur]), s)
  | s, done, cur, r :: rs => do
      let b ← s.bundle a
      let (size, b) :=
        if done = [] then bundleGetFirstFragmentMinSize b else bundleGetMidFragmentMinSize b
      let s ← s.update a fun _ => b
      let c ← s.bundle cur
      let (mem, s) := malloc env s
      let (res, c) ← bundlefragmenterFragmentBundle mem.isSome c
        (UInt32.ofNat size + r.payloadSize).toUInt64
      let s ← s.update cur fun _ => c
      match res with
      | .null =>
          let s ← freeAll s (done ++ [cur])
          pure (none, s)
      | .same => cutFragments env a s (done ++ [cur]) cur rs
      | .split first remainder =>
          let s ← s.update cur fun _ => first
          let x := s.bundles.bound + mem.getD 0
          cutFragments env a (s.put x remainder) (done ++ [cur]) x rs

/-- The fragments that were routed are taken from their contacts. -/
def unrouteAll : Router → List (FragmentRoute × Addr) → Except Fault Router
  | s, [] => .ok s
  | s, (r, x) :: rest => do
      let c ← s.node.bundle x
      unrouteAll (routerRemoveBundleFromRoute s r c.id) rest

/-- The fragments that were added to the storage are deleted and freed. -/
def deleteAll : Processor → List Addr → Except Fault Processor
  | s, [] => .ok s
  | s, x :: xs => do
      let c ← s.bundle x
      let s ← storageDelete s c.id
      let s ← bundleFree s x
      deleteAll s xs

/-- The second loop of `apply_fragmentation`: `done` are the fragments that were added, with
their routes.  The result of `bundle_storage_add` is not looked at. -/
def addFragments (env : Env) :
    Router → List (FragmentRoute × Addr) → List (FragmentRoute × Addr) →
      Except Fault (Bool × Router)
  | s, _, [] => .ok (true, s)
  | s, done, (r, x) :: rest => do
      let (_, node) ← storageAdd env s.node x
      let (routed, s) ← routerAddBundleToRoute env { s with node } r x
      if routed then addFragments env s (done ++ [(r, x)]) rest
      else
        let s ← unrouteAll s done
        let node ← deleteAll s.node ((done ++ [(r, x)]).map Prod.snd)
        let node ← freeAll node (rest.map Prod.snd)
        pure (false, { s with node })

/-- The ids of bundles. -/
def idsOf (s : Processor) : List Addr → Except Fault (List UInt16)
  | [] => .ok []
  | x :: xs => do
      let c ← s.bundle x
      let ids ← idsOf s xs
      pure (c.id :: ids)

/-- Whether `bundlefragmenter_initialize_first_fragment` knows the version. -/
def knownVersion (b : Bundle) : Bool := b.protocolVersion = 6 || b.protocolVersion = 7

/-- `apply_fragmentation`.  The loops run over the routes of the fragments. -/
def applyFragmentation (env : Env) (s : Router) (a : Addr) (routes : List FragmentRoute) :
    Except Fault (ProcessingResult × Router) := do
  let b ← s.node.bundle a
  match newBundle env s.node (initializeFirstFragment b) with
  | (none, node) => pure (⟨resultNoMemory, []⟩, { s with node })
  | (some first, node) =>
      if !knownVersion b then pure (⟨resultNoMemory, []⟩, { s with node })
      else
        match ← cutFragments env a node [] first routes.dropLast with
        | (none, node) => pure (⟨resultNoMemory, []⟩, { s with node })
        | (some frags, node) =>
            let (added, s) ← addFragments env { s with node } [] (routes.zip frags)
            if !added then pure (⟨resultNoMemory, []⟩, s)
            else
              let b ← s.node.bundle a
              let node ← storageDelete s.node b.id
              let node ← bundleFree node a
              let ids ← idsOf node ((routes.zip frags).map Prod.snd)
              pure (⟨routes.length, ids⟩, { s with node })

/-- `process_bundle`. -/
def processBundle (env : Env) (rc : RouterConfig)
    (routerLookupDestination : CStr → List AssociatedContact) (s : Router) (a : Addr) :
    Except Fault (ProcessingResult × Router) := do
  let b ← s.node.bundle a
  if bundleGetExpirationTimeS env.now b < env.now then pure (⟨resultExpired, []⟩, s)
  else
    let (route, b) := routerGetFirstRoute rc env.now s.contacts routerLookupDestination b
    let node ← s.node.update a fun _ => b
    let s := { s with node }
    match route.fragmentResults with
    | [r] =>
        let (routed, s) ← routerAddBundleToRoute env s r a
        pure (⟨if routed then 1 else resultNoMemory, [b.id]⟩, s)
    | routes =>
        if bundleMustNotFragment b then pure (⟨resultNoRoute, []⟩, s)
        else applyFragmentation env s a routes

/-! ## Adding a bundle to a route -/

section Routing

variable {env : Env} {s : Router} {r : FragmentRoute} {a : Addr} {b : Bundle}
  {rb : RoutedBundle}

/-- The entry of a bundle with this id at a contact of a route. -/
def RoutedBy (contacts : Nat → Contact) (r : FragmentRoute) (id : UInt16) : Prop :=
  ∃ k ∈ r.contacts, ∃ rb ∈ (contacts k).contactBundles, rb.id = id

/-- The contacts have at least the entries they had. -/
def Fuller (contacts contacts' : Nat → Contact) : Prop :=
  ∀ k, (contacts k).contactBundles ⊆ (contacts' k).contactBundles

theorem Fuller.routedBy {contacts contacts' : Nat → Contact} (h : Fuller contacts contacts')
    {id : UInt16} (hr : RoutedBy contacts r id) : RoutedBy contacts' r id := by
  obtain ⟨k, hk, rb, hrb, hid⟩ := hr
  exact ⟨k, hk, rb, h k hrb, hid⟩

theorem Fuller.refl (contacts : Nat → Contact) : Fuller contacts contacts :=
  fun _ => List.Subset.refl _

theorem Fuller.trans {contacts contacts₁ contacts₂ : Nat → Contact}
    (h₁ : Fuller contacts contacts₁) (h₂ : Fuller contacts₁ contacts₂) :
    Fuller contacts contacts₂ :=
  fun k => List.Subset.trans (h₁ k) (h₂ k)

/-- One contact gets a bundle, or there is no memory for the entry. -/
theorem routerAddBundleToContact_spec (k : Nat) :
    Ends (Tolerated False) (routerAddBundleToContact env s k rb) fun o =>
      o.2.node = { s.node with requests := s.node.requests + 1 } ∧
      Fuller s.contacts o.2.contacts ∧
      (o.1 = true → rb ∈ (o.2.contacts k).contactBundles) := by
  unfold routerAddBundleToContact
  refine Ends.bind (ends_intro (fun _ _ => trivial) fun f _ => tolerated_of_not not_false f)
    fun _ _ => ?_
  unfold Router.malloc BundleProcessor.malloc
  dsimp only
  split
  · exact ⟨rfl, Fuller.refl _, fun h => by cases h⟩
  · refine ⟨rfl, fun j => ?_, fun _ => ?_⟩
    · by_cases hj : j = k
      · subst hj
        simp [Router.setContact, Contact.changeCapacity]
      · simp [Router.setContact, hj]
    · simp [Router.setContact, Contact.changeCapacity]

/-- The contacts of a list get a bundle, one after the other. -/
theorem addToContacts_spec (ks : List Nat) (s : Router) :
    Ends (Tolerated False) (addToContacts env rb s ks) fun o =>
      o.2.node = { s.node with requests := s.node.requests + ks.length } ∧
      Fuller s.contacts o.2.contacts ∧
      (o.1 = true → ∃ k ∈ ks, rb ∈ (o.2.contacts k).contactBundles) := by
  induction ks generalizing s with
  | nil => exact ⟨rfl, Fuller.refl _, fun h => by cases h⟩
  | cons k ks ih =>
      unfold addToContacts
      refine (routerAddBundleToContact_spec k).bind ?_
      rintro ⟨added, s₁⟩ ⟨hnode, hfuller, hadded⟩
      refine (ih s₁).bind ?_
      rintro ⟨more, s₂⟩ ⟨hnode₂, hfuller₂, hmore⟩
      refine ⟨?_, hfuller.trans hfuller₂, ?_⟩
      · dsimp only at hnode hnode₂ ⊢
        rw [hnode₂, hnode, List.length_cons, Nat.add_right_comm, Nat.add_assoc]
      · intro h
        rcases Bool.or_eq_true_iff.mp h with h | h
        · exact ⟨k, List.mem_cons_self, hfuller₂ k (hadded h)⟩
        · obtain ⟨j, hj, hmem⟩ := hmore h
          exact ⟨j, List.mem_cons_of_mem _ hj, hmem⟩

/-- What a query of sizes leaves: the store and the lists as they were, the bundle with the same
contents, and all others. -/
structure Queried (s : Processor) (a : Addr) (b : Bundle) (s' : Processor) : Prop where
  store : s'.store = s.store
  reassembly : s'.reassembly = s.reassembly
  bound : s.bundles.bound ≤ s'.bundles.bound
  self : ∃ c, s'.bundles.cells a = some c ∧ SameContents b c
  others : ∀ x, x ≠ a → s'.bundles.cells x = s.bundles.cells x

/-- **A bundle is added to a route**: only its cached length can change, and if it succeeds, some
contact of the route has an entry for it. -/
theorem routerAddBundleToRoute_spec (hb : s.node.bundles.cells a = some b) :
    Ends (Tolerated False) (routerAddBundleToRoute env s r a) fun o =>
      Queried s.node a b o.2.node ∧ Fuller s.contacts o.2.contacts ∧
      (o.1 = true → o.2.node.requests = s.node.requests + (3 + r.contacts.length) ∧
        RoutedBy o.2.contacts r b.id) := by
  have hsame : ∀ n, Queried s.node a b { s.node with requests := n } := fun n =>
    ⟨rfl, rfl, Nat.le_refl _, ⟨b, hb, .refl b⟩, fun _ _ => rfl⟩
  have hput : ∀ n, Queried s.node a b { s.node.put a (bundleGetSerializedSize b).2 with
      requests := n } := fun n =>
    ⟨rfl, rfl, bound_le_bound_put _ _ _, ⟨_, put_self _ _ _, sameContents_size b⟩,
      fun _ hx => put_ne _ hx _⟩
  unfold routerAddBundleToRoute Router.malloc BundleProcessor.malloc
  dsimp only
  split
  · exact ⟨hsame _, .refl _, fun h => by cases h⟩
  · have hcell : ({ s.node with requests := s.node.requests + 1 } : Processor).bundles.cells a =
        some b := hb
    apply ends_of_eq (bundle_of_cell hcell)
    apply ends_of_eq (update_of_cell hcell _)
    dsimp only
    split
    · exact ⟨hput _, .refl _, fun h => by cases h⟩
    · unfold routerUpdateRoutedBundle Router.malloc BundleProcessor.malloc
      refine Ends.bind (ends_intro (fun _ _ => trivial) fun f _ => tolerated_of_not not_false f)
        fun _ _ => ?_
      dsimp only
      split
      · exact ⟨hput _, .refl _, fun h => by cases h⟩
      · refine (addToContacts_spec _ _).mono ?_
        rintro ⟨added, s₁⟩ ⟨hnode, hfuller, hadded⟩
        refine ⟨by rw [hnode]; exact hput _, hfuller, fun h => ⟨?_, ?_⟩⟩
        · rw [hnode]
          dsimp only [Processor.put]
          omega
        · obtain ⟨k, hk, hmem⟩ := hadded h
          exact ⟨k, hk, _, hmem, rfl⟩

end Routing

/-! ## The bundle that is routed -/

/-- The bundle `b` lies at `a` and in the storage, up to the cached length. -/
structure Held (s : Processor) (m : UInt16 → Option Addr) (a : Addr) (b : Bundle) : Prop where
  sound : Sound False False s m s.reassembly.flatten
  entry : m b.id = some a
  cell : ∃ c, s.bundles.cells a = some c ∧ SameContents b c

section Held

variable {env : Env} {s s' : Processor} {m : UInt16 → Option Addr} {a x : Addr} {b c c' : Bundle}

theorem Held.valid (h : Held s m a b) : b.id ≠ invId := by
  intro hid
  have hentry := h.entry
  rw [hid, h.sound.rep.map_invId] at hentry
  cases hentry

theorem Held.get (h : Held s m a b) : bundleStorageGet s.store b.id = .ok (some a) := by
  rw [h.sound.rep.get, h.entry]

/-- No other bundle has its id. -/
theorem Held.id_ne (h : Held s m a b) (hx : x ≠ a) (hc : s.bundles.cells x = some c) :
    c.id ≠ b.id := by
  intro hid
  have hm := h.sound.ids x c hc (by rw [hid]; exact h.valid)
  rw [hid, h.entry] at hm
  exact hx (Option.some.inj hm).symm

theorem Held.requests (h : Held s m a b) (n : Nat) : Held { s with requests := n } m a b :=
  ⟨h.sound, h.entry, h.cell⟩

/-- Steps that keep the storage and all ids. -/
theorem Held.of_ids (h : Held s m a b) (hstore : s'.store = s.store)
    (hreassembly : s'.reassembly = s.reassembly) (hbound : s.bundles.bound ≤ s'.bundles.bound)
    (hids : ∀ y, (s'.bundles.cells y).map Bundle.id = (s.bundles.cells y).map Bundle.id)
    (hcell : ∃ c, s'.bundles.cells a = some c ∧ SameContents b c) : Held s' m a b := by
  refine ⟨⟨?_, ?_, ?_, False.elim, ?_, False.elim, False.elim⟩, h.entry, hcell⟩
  · rw [hstore]
    exact h.sound.rep
  · intro id y hy
    obtain ⟨d, hd, hid⟩ := h.sound.stored id y hy
    have hmap := hids y
    rw [hd, Option.map_some, Option.map_eq_some_iff] at hmap
    obtain ⟨d', hd', hid'⟩ := hmap
    exact ⟨d', hd', hid'.trans hid⟩
  · intro y d' hd' hne
    have hmap := (hids y).symm
    rw [hd', Option.map_some, Option.map_eq_some_iff] at hmap
    obtain ⟨d, hd, hid⟩ := hmap
    rw [← hid] at hne ⊢
    exact h.sound.ids y d hd hne
  · intro y hy
    rw [hreassembly] at hy
    exact Nat.lt_of_lt_of_le (h.sound.below y hy) hbound

/-- The query of the sizes of any bundle. -/
theorem Held.queried (h : Held s m a b) (hc : s.bundles.cells x = some c)
    (hq : Queried s x c s') : Held s' m a b := by
  obtain ⟨c', hc', hsame⟩ := hq.self
  refine h.of_ids hq.store hq.reassembly hq.bound ?_ ?_
  · intro y
    by_cases hy : y = x
    · subst hy
      rw [hc, hc', Option.map_some, Option.map_some, hsame.id_eq]
    · rw [hq.others y hy]
  · obtain ⟨d, hd, hbd⟩ := h.cell
    by_cases ha : a = x
    · subst ha
      rw [hc] at hd
      obtain rfl := Option.some.inj hd
      exact ⟨c', hc', hbd.trans hsame⟩
    · exact ⟨d, by rw [hq.others a ha]; exact hd, hbd⟩

theorem queried_put (s : Processor) (hsame : SameContents c c') : Queried s x c (s.put x c') :=
  ⟨rfl, rfl, bound_le_bound_put _ _ _, ⟨c', put_self _ _ _, hsame⟩, fun _ hy => put_ne _ hy _⟩

/-- A write to another bundle that keeps its id. -/
theorem Held.put (h : Held s m a b) (hx : x ≠ a) (hc : s.bundles.cells x = some c)
    (hid : c'.id = c.id) : Held (s.put x c') m a b := by
  refine h.of_ids rfl rfl (bound_le_bound_put _ _ _) ?_ ?_
  · intro y
    by_cases hy : y = x
    · subst hy
      rw [put_self, hc, Option.map_some, Option.map_some, hid]
    · rw [put_ne _ hy]
  · rw [put_ne _ hx.symm]
    exact h.cell

/-- A new bundle without an id. -/
theorem Held.alloc (h : Held s m a b) (hx : s.bundles.cells x = none) (hid : c.id = invId) :
    Held (s.put x c) m a b := by
  refine ⟨h.sound.alloc hx hid, h.entry, ?_⟩
  obtain ⟨d, hd, hbd⟩ := h.cell
  have hax : a ≠ x := by
    rintro rfl
    rw [hx] at hd
    cases hd
  exact ⟨d, by rw [put_ne _ hax]; exact hd, hbd⟩

/-- Another bundle goes, from the storage and from memory. -/
theorem Held.remove (h : Held s m a b) (hx : x ≠ a) (hc : s.bundles.cells x = some c)
    {store : Store Addr} (hrep : Represents store (Function.update m c.id none))
    (hbytes : store.bundleBytes = s.store.bundleBytes - lengthAt s.bundles (m c.id)) :
    Held { s with store, bundles := s.bundles.erase x } (Function.update m c.id none) a b := by
  refine ⟨h.sound.remove hc hrep hbytes False.elim False.elim, ?_, ?_⟩
  · rw [Function.update_of_ne (h.id_ne hx hc).symm]
    exact h.entry
  · obtain ⟨d, hd, hbd⟩ := h.cell
    exact ⟨d, by rw [← hd]; exact Heap.cells_erase_ne _ hx.symm, hbd⟩

/-- Another bundle without an id is freed. -/
theorem Held.free (h : Held s m a b) (hx : x ≠ a) (hc : s.bundles.cells x = some c)
    (hid : c.id = invId) : Held { s with bundles := s.bundles.erase x } m a b := by
  refine ⟨h.sound.free hc hid False.elim False.elim, h.entry, ?_⟩
  obtain ⟨d, hd, hbd⟩ := h.cell
  exact ⟨d, by rw [← hd]; exact Heap.cells_erase_ne _ hx.symm, hbd⟩

/-- The request of `bundle_storage_add`: if it is served, the bundle gets an id. -/
theorem storageAdd_request (hs : Sound False False s m s.reassembly.flatten)
    (hc : s.bundles.cells x = some c) {id : UInt16} (h : storageAdd env s x = .ok (id, s')) :
    s'.requests = s.requests + 1 ∧ s'.reassembly = s.reassembly ∧
      (env.malloc s.requests ≠ none → id ≠ invId) := by
  unfold storageAdd malloc at h
  rw [bundle_of_cell hc, PtrHeap.ok_bind] at h
  dsimp only at h
  obtain ⟨⟨id', store⟩, hstore, h⟩ := ok_of_bind h
  dsimp only at h
  rw [update_of_cell (s := { s with store := store, requests := s.requests + 1 }) hc] at h
  obtain ⟨rfl, rfl⟩ := Prod.mk.inj (Except.ok.inj h)
  refine ⟨rfl, rfl, fun hserved => ?_⟩
  obtain ⟨gap, hgap⟩ := Option.ne_none_iff_exists'.mp hserved
  rw [hgap] at hstore
  rw [Option.map_some] at hstore
  cases hadd : bundleStorageAdd s.store x ⟨c.id, some c.payloadLength⟩
      (some s.store.tree.heap.bound) with
  | error f =>
      rw [hadd] at hstore
      cases hstore
  | ok o =>
      rw [hadd] at hstore
      obtain rfl := Except.ok.inj hstore
      exact bundleStorageAdd_served hs.rep (s.store.tree.heap.free_above _ (Nat.le_refl _)) hadd

/-- Another bundle enters the storage, or there is no memory for its entry. -/
theorem Held.storageAdd (h : Held s m a b) (hx : x ≠ a) (hc : s.bundles.cells x = some c) :
    Ends (Tolerated False) (storageAdd env s x) fun o => c.id = invId ∧
      o.2.bundles = s.bundles.set x { c with id := o.1 } ∧
      o.2.requests = s.requests + 1 ∧ (env.malloc s.requests ≠ none → o.1 ≠ invId) ∧
      ∃ m', Held o.2 m' a b := by
  refine ends_intro ?_ fun f _ => tolerated_of_not not_false f
  rintro ⟨id, s'⟩ hrun
  obtain ⟨hrequests, hreassembly, hserved⟩ := storageAdd_request h.sound hc hrun
  obtain ⟨hid, hbundles, _, _, m', hs', hm'⟩ := (storageAdd_spec h.sound hc).of_ok hrun
  refine ⟨hid, hbundles, hrequests, hserved, m', ?_, ?_, ?_⟩
  · rw [hreassembly]
    exact hs'
  · rcases hm' with ⟨_, rfl⟩ | ⟨_, hnone, rfl⟩
    · exact h.entry
    · have hne : b.id ≠ id := by
        rintro rfl
        rw [h.entry] at hnone
        cases hnone
      rw [Function.update_of_ne hne]
      exact h.entry
  · obtain ⟨d, hd, hbd⟩ := h.cell
    exact ⟨d, by rw [hbundles, Heap.cells_set_ne _ hx.symm]; exact hd, hbd⟩

end Held

/-! ## The cuts -/

/-- The payload of the bundle at an address. -/
def bytesAt (s : Processor) (x : Addr) : List UInt8 :=
  ((s.bundles.cells x).map fun c => c.payload.data.bytes).getD []

/-- The pieces of the bundle `b` at `a`: other bundles without ids that have its payload, unless
one of them is named twice. -/
structure Pieces (s : Processor) (a : Addr) (b : Bundle) (frags : List Addr) : Prop where
  loose : ∀ x ∈ frags, x ≠ a ∧ ∃ c, s.bundles.cells x = some c ∧ c.id = invId
  bytes : frags.Nodup → frags.flatMap (bytesAt s) = b.payload.data.bytes

section Cuts

variable {env : Env} {s s' : Processor} {m : UInt16 → Option Addr} {a x : Addr} {b c : Bundle}
  {frags : List Addr}

theorem bytesAt_of_cell (hc : s.bundles.cells x = some c) :
    bytesAt s x = c.payload.data.bytes := by
  rw [bytesAt, hc, Option.map_some, Option.getD_some]

theorem bytesAt_congr (h : s'.bundles.cells x = s.bundles.cells x) :
    bytesAt s' x = bytesAt s x := by
  rw [bytesAt, bytesAt, h]

/-- A query of sizes changes no payload. -/
theorem Queried.bytesAt_eq (hq : Queried s x c s') (hc : s.bundles.cells x = some c) (y : Addr) :
    bytesAt s' y = bytesAt s y := by
  by_cases hy : y = x
  · subst hy
    obtain ⟨c', hc', hsame⟩ := hq.self
    rw [bytesAt_of_cell hc, bytesAt_of_cell hc', hsame]
  · exact bytesAt_congr (hq.others y hy)

theorem Pieces.requests (h : Pieces s a b frags) (n : Nat) :
    Pieces { s with requests := n } a b frags :=
  ⟨h.loose, h.bytes⟩

theorem Pieces.queried (h : Pieces s a b frags) (hc : s.bundles.cells x = some c)
    (hq : Queried s x c s') : Pieces s' a b frags := by
  refine ⟨fun y hy => ?_, fun hnd => ?_⟩
  · obtain ⟨hya, d, hd, hinv⟩ := h.loose y hy
    refine ⟨hya, ?_⟩
    by_cases hyx : y = x
    · subst hyx
      obtain ⟨c', hc', hsame⟩ := hq.self
      rw [hc] at hd
      obtain rfl := Option.some.inj hd
      exact ⟨c', hc', hsame.id_eq.trans hinv⟩
    · exact ⟨d, by rw [hq.others y hyx]; exact hd, hinv⟩
  · rw [← h.bytes hnd]
    exact List.flatMap_congr fun y _ => hq.bytesAt_eq hc y

/-- The last piece is named once more. -/
theorem Pieces.same {done : List Addr} {cur : Addr} (h : Pieces s a b (done ++ [cur])) :
    Pieces s a b (done ++ [cur] ++ [cur]) := by
  refine ⟨fun y hy => h.loose y (by simpa using hy), fun hnd => ?_⟩
  exact absurd rfl ((List.nodup_append.mp hnd).2.2 cur (by simp) cur (by simp))

/-- The last piece is cut in two. -/
theorem Pieces.split {done : List Addr} {cur : Addr} {first remainder : Bundle}
    (h : Pieces s a b (done ++ [cur])) (hx : s.bundles.cells x = none) (hxa : x ≠ a)
    (hc : s.bundles.cells cur = some c) (hcut : CutOf c first remainder) :
    Pieces ((s.put cur first).put x remainder) a b (done ++ [cur] ++ [x]) := by
  have hne : ∀ y ∈ done ++ [cur], y ≠ x := by
    rintro y hy rfl
    obtain ⟨_, d, hd, _⟩ := h.loose y hy
    rw [hx] at hd
    cases hd
  have hcur : ((s.put cur first).put x remainder).bundles.cells cur = some first := by
    rw [put_ne _ (hne cur (by simp)), put_self]
  have hnew : ((s.put cur first).put x remainder).bundles.cells x = some remainder :=
    put_self _ _ _
  refine ⟨fun y hy => ?_, fun hnd => ?_⟩
  · rcases List.mem_append.mp hy with hy | hy
    · obtain ⟨hya, d, hd, hinv⟩ := h.loose y hy
      refine ⟨hya, ?_⟩
      by_cases hyc : y = cur
      · subst hyc
        rw [hc] at hd
        obtain rfl := Option.some.inj hd
        exact ⟨first, hcur, hcut.id_first.trans hinv⟩
      · exact ⟨d, by rw [put_ne _ (hne y hy), put_ne _ hyc]; exact hd, hinv⟩
    · obtain rfl := List.mem_singleton.mp hy
      exact ⟨hxa, remainder, hnew, hcut.id_remainder⟩
  · have hnd' : (done ++ [cur]).Nodup := (List.nodup_append.mp hnd).1
    have hdone : done.flatMap (bytesAt ((s.put cur first).put x remainder)) =
        done.flatMap (bytesAt s) := by
      refine List.flatMap_congr fun y hy => bytesAt_congr ?_
      have hyc : y ≠ cur := by
        rintro rfl
        exact (List.nodup_append.mp hnd').2.2 y hy y (by simp) rfl
      rw [put_ne _ (hne y (by simp [hy])), put_ne _ hyc]
    have hbytes := h.bytes hnd'
    rw [List.flatMap_append, List.flatMap_singleton, bytesAt_of_cell hc, ← hcut.bytes] at hbytes
    rw [List.flatMap_append, List.flatMap_append, List.flatMap_singleton, List.flatMap_singleton,
      hdone, bytesAt_of_cell hcur, bytesAt_of_cell hnew, List.append_assoc, hbytes]

theorem bundleFree_of_cell (hc : s.bundles.cells x = some c) :
    bundleFree s x = .ok { s with bundles := s.bundles.erase x } := by
  rw [bundleFree, bundle_of_cell hc]
  rfl

/-- Bundles without ids are freed; some may be dead already. -/
theorem freeAll_spec (h : Held s m a b) (hloose : ∀ x ∈ frags, x ≠ a ∧
    ∀ c, s.bundles.cells x = some c → c.id = invId) :
    Ends (Tolerated False) (freeAll s frags) fun s' => Held s' m a b := by
  induction frags generalizing s with
  | nil => exact h
  | cons x xs ih =>
      obtain ⟨hx, hid⟩ := hloose x List.mem_cons_self
      unfold freeAll
      cases hc : s.bundles.cells x with
      | none =>
          rw [bundleFree, bundle_of_none hc]
          exact tolerated_of_not not_false _
      | some c =>
          apply ends_of_eq (bundleFree_of_cell hc)
          apply ih (h.free hx hc (hid c hc))
          intro y hy
          refine ⟨(hloose y (List.mem_cons_of_mem _ hy)).1, fun d hd => ?_⟩
          by_cases hyx : y = x
          · subst hyx
            rw [Heap.cells_erase_self] at hd
            cases hd
          · rw [Heap.cells_erase_ne _ hyx] at hd
            exact (hloose y (List.mem_cons_of_mem _ hy)).2 d hd

/-- What the first loop returns, after `n` requests. -/
structure CutInto (s : Processor) (m : UInt16 → Option Addr) (a : Addr) (b : Bundle)
    (n count : Nat) (o : Option (List Addr) × Processor) : Prop where
  held : Held o.2 m a b
  pieces : ∀ frags, o.1 = some frags → Pieces o.2 a b frags
  length : ∀ frags, o.1 = some frags → frags.length = count
  requests : ∀ frags, o.1 = some frags → o.2.requests = s.requests + n
  null : o.1 = none → n ≠ 0

/-- **The first loop**: the bundle stays where it is, and the fragments are its pieces. -/
theorem cutFragments_spec (rs : List FragmentRoute) (done : List Addr) (cur : Addr)
    (h : Held s m a b) (hp : Pieces s a b (done ++ [cur])) :
    Ends (Tolerated False) (cutFragments env a s done cur rs)
      (CutInto s m a b rs.length (done.length + 1 + rs.length)) := by
  induction rs generalizing s done cur with
  | nil =>
      refine ⟨h, ?_, ?_, ?_, by rintro ⟨⟩⟩
      · rintro _ ⟨⟩
        exact hp
      · rintro _ ⟨⟩
        simp
      · rintro _ ⟨⟩
        rfl
  | cons r rs ih =>
      obtain ⟨d, hd, _⟩ := h.cell
      obtain ⟨hcura, c, hc, _⟩ := hp.loose cur (by simp)
      unfold cutFragments
      apply ends_of_eq (bundle_of_cell hd)
      -- the query of the minimal size
      have hsame : SameContents d (if done = [] then bundleGetFirstFragmentMinSize d
          else bundleGetMidFragmentMinSize d).2 := by
        split
        · exact sameContents_first d
        · exact sameContents_mid d
      generalize (if done = [] then bundleGetFirstFragmentMinSize d
        else bundleGetMidFragmentMinSize d) = query at hsame
      obtain ⟨size, d'⟩ := query
      dsimp only at hsame ⊢
      apply ends_of_eq (update_of_cell hd _)
      have hc₁ : (s.put a d').bundles.cells cur = some c := by rw [put_ne _ hcura]; exact hc
      have h₁ : Held (s.put a d') m a b := h.queried hd (queried_put s hsame)
      have hp₁ : Pieces (s.put a d') a b (done ++ [cur]) := hp.queried hd (queried_put s hsame)
      apply ends_of_eq (bundle_of_cell hc₁)
      -- the cut
      rcases hmalloc : malloc env (s.put a d') with ⟨mem, s₂⟩
      have hs₂ : s₂ = { s.put a d' with requests := s.requests + 1 } :=
        (congrArg Prod.snd hmalloc).symm
      dsimp only
      refine Ends.bind_of_ok (R := fun _ => True)
        (ends_intro (fun _ _ => trivial) fun f _ => tolerated_of_not not_false f) ?_
      rintro ⟨res, w⟩ hcut -
      obtain ⟨hw, hsplit⟩ := fragmentBundle_spec hcut
      have hc₂ : s₂.bundles.cells cur = some c := by rw [hs₂]; exact hc₁
      have hq : Queried s₂ cur c (s₂.put cur w) := queried_put s₂ hw
      have h₃ : Held (s₂.put cur w) m a b := by
        refine Held.queried ?_ hc₂ hq
        rw [hs₂]
        exact h₁.requests _
      have hp₃ : Pieces (s₂.put cur w) a b (done ++ [cur]) := by
        refine Pieces.queried ?_ hc₂ hq
        rw [hs₂]
        exact hp₁.requests _
      have hc₃ : (s₂.put cur w).bundles.cells cur = some w := put_self _ _ _
      have hreq : (s₂.put cur w).requests = s.requests + 1 := by rw [hs₂]; rfl
      have hpost : ∀ s₄ : Processor, s₄.requests = s.requests + 1 → ∀ o,
          CutInto s₄ m a b rs.length ((done ++ [cur]).length + 1 + rs.length) o →
          CutInto s m a b (rs.length + 1) (done.length + 1 + (rs.length + 1)) o := by
        intro s₄ hs₄ o ho
        refine ⟨ho.held, ho.pieces, fun frags hf => ?_, fun frags hf => ?_,
          fun _ => Nat.succ_ne_zero _⟩
        · rw [ho.length frags hf, List.length_append, List.length_singleton]
          omega
        · rw [ho.requests frags hf, hs₄]
          omega
      apply ends_of_eq (update_of_cell hc₂ _)
      cases res with
      | null =>
          refine (freeAll_spec h₃ ?_).bind ?_
          · intro y hy
            obtain ⟨hya, e, he, hinv⟩ := hp₃.loose y hy
            refine ⟨hya, fun e' he' => ?_⟩
            rw [he] at he'
            obtain rfl := Option.some.inj he'
            exact hinv
          · intro s' hs'
            exact ⟨hs', by rintro _ ⟨⟩, by rintro _ ⟨⟩, by rintro _ ⟨⟩,
              fun _ => Nat.succ_ne_zero _⟩
      | same => exact (ih (done ++ [cur]) cur h₃ hp₃.same).mono (hpost _ hreq)
      | split first remainder =>
          have hcut := (hsplit first remainder rfl).same hw
          apply ends_of_eq (update_of_cell hc₃ _)
          generalize hx : ((s₂.put cur w).put cur first).bundles.bound + mem.getD 0 = x
          -- the new fragment lies above all memory in use
          have hfresh : ((s₂.put cur w).put cur first).bundles.cells x = none :=
            Heap.free_above _ _ (by rw [← hx]; exact Nat.le_add_right _ _)
          have hxc : x ≠ cur := by
            rintro rfl
            rw [put_self] at hfresh
            cases hfresh
          have hfresh₃ : (s₂.put cur w).bundles.cells x = none := by
            rw [put_ne _ hxc] at hfresh
            exact hfresh
          have hxa : x ≠ a := by
            rintro rfl
            obtain ⟨e, he, _⟩ := h₃.cell
            rw [hfresh₃] at he
            cases he
          have h₄ : Held (((s₂.put cur w).put cur first).put x remainder) m a b :=
            (h₃.put hcura hc₃ hcut.id_first).alloc hfresh hcut.id_remainder
          exact (ih (done ++ [cur]) x h₄ (hp₃.split hfresh₃ hxa hc₃ hcut)).mono (hpost _ hreq)

end Cuts

/-! ## The fragments are stored and routed -/

/-- Whether the requests of `bundle_storage_add` for the fragments are served, the first one with
this number.  Between two of them lie those of `router_add_bundle_to_route`. -/
def StorageServed (env : Env) : Nat → List FragmentRoute → Prop
  | _, [] => True
  | n, r :: rs => env.malloc n ≠ none ∧ StorageServed env (n + 1 + (3 + r.contacts.length)) rs

/-- A fragment is in memory, has an id and is routed. -/
def Placed (s : Router) (p : FragmentRoute × Addr) : Prop :=
  ∃ c, s.node.bundles.cells p.2 = some c ∧ c.id ≠ invId ∧ RoutedBy s.contacts p.1 c.id

section Adding

variable {env : Env} {m : UInt16 → Option Addr} {a : Addr} {b : Bundle}

theorem removeFromRoute_node (r : FragmentRoute) (id : UInt16) (s : Router) :
    (routerRemoveBundleFromRoute s r id).node = s.node := by
  unfold routerRemoveBundleFromRoute
  induction r.contacts generalizing s with
  | nil => rfl
  | cons k ks ih =>
      rw [List.foldl_cons, ih]
      unfold routerRemoveBundleFromContact
      dsimp only
      split
      · rfl
      · rfl

/-- Taking bundles from contacts does not touch the node. -/
theorem unrouteAll_spec (l : List (FragmentRoute × Addr)) (s : Router) :
    Ends (Tolerated False) (unrouteAll s l) fun s' => s'.node = s.node := by
  induction l generalizing s with
  | nil => exact rfl
  | cons p l ih =>
      unfold unrouteAll
      refine Ends.bind (R := fun _ => True)
        (ends_intro (fun _ _ => trivial) fun f _ => tolerated_of_not not_false f) fun c _ => ?_
      exact (ih _).mono fun s' hs' => hs'.trans (removeFromRoute_node _ _ _)

/-- Other bundles are deleted and freed. -/
theorem deleteAll_spec {s : Processor} {l : List Addr} (h : Held s m a b) (hl : ∀ x ∈ l, x ≠ a) :
    Ends (Tolerated False) (deleteAll s l) fun s' => (∃ m', Held s' m' a b) ∧
      (∀ x ∈ l, s'.bundles.cells x = none) ∧
      ∀ x, x ∉ l → s'.bundles.cells x = s.bundles.cells x := by
  induction l generalizing s m with
  | nil => exact ⟨⟨m, h⟩, by simp, fun _ _ => rfl⟩
  | cons x xs ih =>
      unfold deleteAll
      cases hc : s.bundles.cells x with
      | none =>
          rw [bundle_of_none hc]
          exact tolerated_of_not not_false _
      | some c =>
          apply ends_of_eq (bundle_of_cell hc)
          refine (storageDelete_spec h.sound c.id).bind ?_
          rintro s₁ ⟨store, rfl, hrep, hbytes⟩
          apply ends_of_eq (bundleFree_of_cell (s := { s with store := store }) hc)
          refine (ih (h.remove (hl x List.mem_cons_self) hc hrep hbytes)
            fun y hy => hl y (List.mem_cons_of_mem _ hy)).mono ?_
          rintro s' ⟨hheld, hdead, hothers⟩
          refine ⟨hheld, fun y hy => ?_, fun y hy => ?_⟩
          · by_cases hyx : y ∈ xs
            · exact hdead y hyx
            · rcases List.mem_cons.mp hy with rfl | hmem
              · rw [hothers y hyx]
                exact Heap.cells_erase_self _ _
              · exact absurd hmem hyx
          · obtain ⟨hne, hnot⟩ := List.ne_and_not_mem_of_not_mem_cons hy
            rw [hothers y hnot]
            exact Heap.cells_erase_ne _ hne

/-- Another bundle is added: what was placed stays placed. -/
theorem Placed.step {s s' : Router} {p : FragmentRoute × Addr} (hp : Placed s p)
    (hcell : s'.node.bundles.cells p.2 = s.node.bundles.cells p.2)
    (hfuller : Fuller s.contacts s'.contacts) : Placed s' p := by
  obtain ⟨c, hc, hid, hr⟩ := hp
  exact ⟨c, by rw [hcell]; exact hc, hid, hfuller.routedBy hr⟩

/-- What the second loop leaves. -/
structure AddedTo (served : Prop) (s : Router) (a : Addr) (b : Bundle)
    (frags : List (FragmentRoute × Addr)) (o : Bool × Router) : Prop where
  held : ∃ m, Held o.2.node m a b
  bytes : o.1 = true → ∀ y, bytesAt o.2.node y = bytesAt s.node y
  placed : o.1 = true → served → ∀ p ∈ frags, Placed o.2 p
  nodup : o.1 = true → served → (frags.map Prod.snd).Nodup
  failed : o.1 = false → frags ≠ []

/-- The exit of the second loop: all fragments are given up. -/
theorem rollback_spec {served : Prop} {s s₀ : Router} {done rest : List (FragmentRoute × Addr)}
    {p : FragmentRoute × Addr} (h : Held s.node m a b) (hdone : ∀ q ∈ done ++ [p], q.2 ≠ a)
    (hrest : ∀ q ∈ rest, q.2 ≠ a ∧ ∀ c, s.node.bundles.cells q.2 = some c →
      c.id = invId ∨ q.2 ∈ (done ++ [p]).map Prod.snd) :
    Ends (Tolerated False) (do
      let s ← unrouteAll s done
      let node ← deleteAll s.node ((done ++ [p]).map Prod.snd)
      let node ← freeAll node (rest.map Prod.snd)
      pure (false, { s with node })) (AddedTo served s₀ a b (done ++ p :: rest)) := by
  refine (unrouteAll_spec done s).bind ?_
  intro s₁ hs₁
  rw [hs₁]
  refine (deleteAll_spec h ?_).bind ?_
  · intro x hx
    obtain ⟨q, hq, rfl⟩ := List.mem_map.mp hx
    exact hdone q hq
  rintro node ⟨⟨m', h'⟩, hdead, hothers⟩
  refine (freeAll_spec h' ?_).bind ?_
  · intro x hx
    obtain ⟨q, hq, rfl⟩ := List.mem_map.mp hx
    obtain ⟨hqa, hqid⟩ := hrest q hq
    refine ⟨hqa, fun c hc => ?_⟩
    have hnot : q.2 ∉ (done ++ [p]).map Prod.snd := by
      intro hmem
      rw [hdead q.2 hmem] at hc
      cases hc
    rw [hothers q.2 hnot] at hc
    exact (hqid c hc).resolve_right hnot
  · intro node' hnode'
    exact ⟨⟨m', hnode'⟩, by rintro ⟨⟩, by rintro ⟨⟩, by rintro ⟨⟩, fun _ => by simp⟩

/-- **The second loop**: the bundle stays where it is.  If it succeeds, and the requests of the
storage are served, all fragments are stored and routed. -/
theorem addFragments_spec (served : Prop) (rest done : List (FragmentRoute × Addr)) {s : Router}
    (h : Held s.node m a b) (hdone : ∀ p ∈ done, p.2 ≠ a)
    (hrest : ∀ p ∈ rest, p.2 ≠ a ∧ ∀ c, s.node.bundles.cells p.2 = some c →
      c.id = invId ∨ p.2 ∈ done.map Prod.snd)
    (hserved : served → StorageServed env s.node.requests (rest.map Prod.fst))
    (hplaced : served → ∀ p ∈ done, Placed s p)
    (hnd : served → (done.map Prod.snd).Nodup) :
    Ends (Tolerated False) (addFragments env s done rest)
      (AddedTo served s a b (done ++ rest)) := by
  induction rest generalizing s done m with
  | nil =>
      rw [List.append_nil]
      exact ⟨⟨m, h⟩, fun _ _ => rfl, fun _ => hplaced, fun _ => hnd, by rintro ⟨⟩⟩
  | cons p rest ih =>
      obtain ⟨r, x⟩ := p
      obtain ⟨hxa, hxid⟩ := hrest (r, x) List.mem_cons_self
      unfold addFragments
      cases hc : s.node.bundles.cells x with
      | none =>
          unfold storageAdd
          rw [bundle_of_none hc]
          exact tolerated_of_not not_false _
      | some c =>
          refine (h.storageAdd hxa hc).bind ?_
          rintro ⟨id, node⟩ ⟨hinv, hbundles, hreq, hid, m₁, h₁⟩
          dsimp only at hbundles hreq hid h₁ ⊢
          have hcell₁ : node.bundles.cells x = some { c with id } := by
            rw [hbundles]
            exact Heap.cells_set_self _ _ _
          have hothers₁ : ∀ y, y ≠ x → node.bundles.cells y = s.node.bundles.cells y := by
            intro y hy
            rw [hbundles]
            exact Heap.cells_set_ne _ hy _
          refine (routerAddBundleToRoute_spec (s := { s with node }) hcell₁).bind ?_
          rintro ⟨routed, s₂⟩ ⟨hq, hfuller, hrouted⟩
          dsimp only at hq hfuller hrouted ⊢
          have h₂ : Held s₂.node m₁ a b := h₁.queried hcell₁ hq
          have hothers₂ : ∀ y, y ≠ x → s₂.node.bundles.cells y = s.node.bundles.cells y :=
            fun y hy => (hq.others y hy).trans (hothers₁ y hy)
          have hsnd : (done ++ [(r, x)]).map Prod.snd = done.map Prod.snd ++ [x] := by simp
          have hdone' : ∀ p ∈ done ++ [(r, x)], p.2 ≠ a := by
            intro p hp
            rcases List.mem_append.mp hp with hp | hp
            · exact hdone p hp
            · obtain rfl := List.mem_singleton.mp hp
              exact hxa
          have hrest' : ∀ p ∈ rest, p.2 ≠ a ∧ ∀ d, s₂.node.bundles.cells p.2 = some d →
              d.id = invId ∨ p.2 ∈ (done ++ [(r, x)]).map Prod.snd := by
            intro p hp
            obtain ⟨hpa, hpid⟩ := hrest p (List.mem_cons_of_mem _ hp)
            refine ⟨hpa, fun d hd => ?_⟩
            rw [hsnd, List.mem_append, List.mem_singleton]
            by_cases hpx : p.2 = x
            · exact Or.inr (Or.inr hpx)
            · rw [hothers₂ p.2 hpx] at hd
              exact (hpid d hd).imp_right Or.inl
          cases routed with
          | false => exact rollback_spec h₂ hdone' hrest'
          | true =>
              obtain ⟨hreq₂, hby⟩ := hrouted rfl
              obtain ⟨c₂, hc₂, hsame⟩ := hq.self
              have hnew : served → ∀ p ∈ done, p.2 ≠ x := by
                rintro hsv p hp rfl
                obtain ⟨d, hd, hdid, _⟩ := hplaced hsv p hp
                rw [hc] at hd
                obtain rfl := Option.some.inj hd
                exact hdid hinv
              have hsv' : ∀ hsv : served, env.malloc s.node.requests ≠ none ∧
                  StorageServed env (s.node.requests + 1 + (3 + r.contacts.length))
                    (rest.map Prod.fst) := hserved
              refine (ih (done ++ [(r, x)]) h₂ hdone' hrest' ?_ ?_ ?_).mono ?_
              · intro hsv
                rw [hreq₂, hreq]
                exact (hsv' hsv).2
              · intro hsv p hp
                rcases List.mem_append.mp hp with hp | hp
                · exact (hplaced hsv p hp).step (hothers₂ p.2 (hnew hsv p hp)) hfuller
                · obtain rfl := List.mem_singleton.mp hp
                  refine ⟨c₂, hc₂, ?_, ?_⟩
                  · rw [hsame.id_eq]
                    exact hid (hsv' hsv).1
                  · rw [hsame.id_eq]
                    exact hby
              · intro hsv
                rw [hsnd]
                refine (hnd hsv).append (List.nodup_singleton x) ?_
                rw [List.disjoint_singleton]
                intro hmem
                obtain ⟨p, hp, hpx⟩ := List.mem_map.mp hmem
                exact hnew hsv p hp hpx
              · intro o ho
                rw [List.append_assoc, List.singleton_append] at ho
                refine ⟨ho.held, fun hok y => ?_, ho.placed, ho.nodup, ho.failed⟩
                rw [ho.bytes hok y, hq.bytesAt_eq hcell₁ y]
                by_cases hyx : y = x
                · subst hyx
                  rw [bytesAt_of_cell hcell₁, bytesAt_of_cell hc]
                · exact bytesAt_congr (hothers₁ y hyx)

end Adding

end ContactRouter
