import DisruptaBLE.Contact.RouterTask

/-!
# Runs of the contact graph router

* `processBundle_spec`: what processing a bundle comes to.
* `Operating.sound`: the storage and the bundles in memory agree in every run of a node with this
  router.
* `nothing_lost_iff`: a bundle is lost exactly if it has no route and is cut nevertheless.
  `apply_fragmentation` takes a route without fragments for success, and deletes the bundle.
-/

namespace ContactRouter

open PtrHeap (Addr Heap)
open BundleProcessor BundleStorage Bundle7 Outcome

/-! ## A bundle is processed -/

/-- In place of the bundle there are fragments with these ids, one for each route.  They are
stored and routed, and together they have its payload. -/
structure ReplacedBy (s : Router) (b : Bundle) (routes : List FragmentRoute) (ids : List UInt16)
    (frags : List (FragmentRoute × Addr)) : Prop where
  nonempty : frags ≠ []
  routes : frags.map Prod.fst = routes
  nodup : (frags.map Prod.snd).Nodup
  ids : idsOf s.node (frags.map Prod.snd) = .ok ids
  placed : ∀ p ∈ frags, ∃ c, s.node.bundles.cells p.2 = some c ∧
    bundleStorageGet s.node.store c.id = .ok (some p.2) ∧ RoutedBy s.contacts p.1 c.id
  bytes : (frags.map Prod.snd).flatMap (bytesAt s.node) = b.payload.data.bytes

/-- What processing a bundle can come to: it is kept, or it is gone. -/
inductive ProcessedTo (b : Bundle) (a : Addr) (routes : List FragmentRoute) (lost served : Prop)
    (o : ProcessingResult × Router) : Prop
  | kept (m : UInt16 → Option Addr) (h : Held o.2.node m a b)
      (hlost : routes = [] → o.1.statusOrFragments < 1 ∧ ¬ lost)
  | gone (m : UInt16 → Option Addr)
      (hsound : Sound False False o.2.node m o.2.node.reassembly.flatten)
      (hgone : bundleStorageGet o.2.node.store b.id = .ok none) (hlost : routes = [] → lost)
      (hserved : routes ≠ [] → served → ∃ frags, ReplacedBy o.2 b routes o.1.fragmentIds frags)

section Processing

variable {env : Env} {m : UInt16 → Option Addr} {a : Addr} {b : Bundle} {s : Router}

theorem SameContents.knownVersion_eq {c : Bundle} (h : SameContents b c) :
    knownVersion c = knownVersion b := by
  rw [h]
  rfl

/-- The copy that is cut is the only piece at first. -/
theorem pieces_first {s : Processor} {x : Addr} {d : Bundle} (hx : x ≠ a)
    (hbd : SameContents b d) : Pieces (s.put x (initializeFirstFragment d)) a b ([] ++ [x]) := by
  have hcell := put_self s x (initializeFirstFragment d)
  refine ⟨fun y hy => ?_, fun _ => ?_⟩
  · obtain rfl := List.mem_singleton.mp hy
    exact ⟨hx, _, hcell, recalculate_id _⟩
  · rw [List.nil_append, List.flatMap_singleton, bytesAt_of_cell hcell, initializeFirstFragment,
      recalculate_payload, hbd]

/-- The fragments before the bundle is removed. -/
structure Placement (s : Router) (a : Addr) (b : Bundle) (routes : List FragmentRoute)
    (frags : List (FragmentRoute × Addr)) : Prop where
  nonempty : frags ≠ []
  routes : frags.map Prod.fst = routes
  nodup : (frags.map Prod.snd).Nodup
  others : ∀ p ∈ frags, p.2 ≠ a
  placed : ∀ p ∈ frags, Placed s p
  bytes : (frags.map Prod.snd).flatMap (bytesAt s.node) = b.payload.data.bytes

/-- **The last steps of `apply_fragmentation`**: the bundle goes, and its fragments stay. -/
theorem removeBundle_spec {routes : List FragmentRoute} {lost served : Prop}
    {frags : List (FragmentRoute × Addr)} (h : Held s.node m a b) (hlost : routes = [] → lost)
    (hserved : routes ≠ [] → served → Placement s a b routes frags) :
    Ends (Tolerated False) (do
      let b ← s.node.bundle a
      let node ← storageDelete s.node b.id
      let node ← bundleFree node a
      let ids ← idsOf node (frags.map Prod.snd)
      pure (⟨routes.length, ids⟩, { s with node })) (ProcessedTo b a routes lost served) := by
  obtain ⟨d, hd, hbd⟩ := h.cell
  apply ends_of_eq (bundle_of_cell hd)
  refine (storageDelete_spec h.sound d.id).bind ?_
  rintro node ⟨store, rfl, hrep, hbytes⟩
  apply ends_of_eq (bundleFree_of_cell (s := { s.node with store := store }) hd)
  have hsound := h.sound.remove hd hrep hbytes False.elim False.elim
  have hother : ∀ y, y ≠ a → ({ s.node with
      store := store, bundles := s.node.bundles.erase a } : Processor).bundles.cells y =
      s.node.bundles.cells y := fun y hy => Heap.cells_erase_ne _ hy
  refine Ends.bind_of_ok (R := fun _ => True)
    (ends_intro (fun _ _ => trivial) fun f _ => tolerated_of_not not_false f) ?_
  intro ids hids _
  refine ProcessedTo.gone (Function.update m d.id none) hsound ?_ hlost fun hne hsv => ⟨frags, ?_⟩
  · change bundleStorageGet store b.id = .ok none
    rw [hrep.get, hbd.id_eq, Function.update_self]
  have hp := hserved hne hsv
  refine ⟨hp.nonempty, hp.routes, hp.nodup, hids, fun p hmem => ?_, ?_⟩
  · obtain ⟨c, hc, hid, hr⟩ := hp.placed p hmem
    have hpa := hp.others p hmem
    refine ⟨c, (hother p.2 hpa).trans hc, ?_, hr⟩
    have hne : c.id ≠ d.id := by
      rw [hbd.id_eq]
      exact h.id_ne hpa hc
    change bundleStorageGet store c.id = .ok (some p.2)
    rw [hrep.get, Function.update_of_ne hne, h.sound.ids p.2 c hc hid]
  · rw [← hp.bytes]
    refine List.flatMap_congr fun y hy => bytesAt_congr (hother y ?_)
    obtain ⟨p, hmem, rfl⟩ := List.mem_map.mp hy
    exact hp.others p hmem

/-- **`apply_fragmentation`**: without any route, the copy of the bundle decides. -/
theorem applyFragmentation_spec (env : Env) (routes : List FragmentRoute) (h : Held s.node m a b) :
    Ends (Tolerated False) (applyFragmentation env s a routes)
      (ProcessedTo b a routes (env.malloc s.node.requests ≠ none ∧ knownVersion b = true)
        (StorageServed env (s.node.requests + routes.length) routes)) := by
  obtain ⟨d, hd, hbd⟩ := h.cell
  unfold applyFragmentation newBundle malloc
  apply ends_of_eq (bundle_of_cell hd)
  dsimp only
  have hmem : resultNoMemory < 1 := by decide
  cases hm : env.malloc s.node.requests with
  | none => exact .kept m (h.requests _) fun _ => ⟨hmem, fun hl => hl.1 rfl⟩
  | some gap =>
      dsimp only
      set node : Processor := { s.node with requests := s.node.requests + 1 } with hnode
      have hfresh : node.bundles.cells (node.bundles.bound + gap) = none :=
        node.bundles.free_above _ (Nat.le_add_right _ _)
      generalize node.bundles.bound + gap = x at hfresh
      have hxa : x ≠ a := by
        rintro rfl
        rw [show node.bundles.cells x = s.node.bundles.cells x from rfl, hd] at hfresh
        cases hfresh
      have h₁ : Held (node.put x (initializeFirstFragment d)) m a b :=
        (h.requests _).alloc hfresh (recalculate_id _)
      split
      · next hver =>
        refine .kept m h₁ fun _ => ⟨hmem, fun hl => ?_⟩
        rw [← hbd.knownVersion_eq] at hl
        simp [hl.2] at hver
      · next hver =>
        have hlost : (some gap : Option Nat) ≠ none ∧ knownVersion b = true := by
          rw [← hbd.knownVersion_eq]
          exact ⟨by simp, by simpa using hver⟩
        refine (cutFragments_spec routes.dropLast [] x h₁ (pieces_first hxa hbd)).bind ?_
        rintro ⟨frags, node₂⟩ hcut
        cases frags with
        | none =>
            refine .kept m hcut.held fun hnil => ?_
            rw [hnil] at hcut
            exact absurd rfl (hcut.null rfl)
        | some frags =>
            have hp := hcut.pieces frags rfl
            have hlen := hcut.length frags rfl
            have hreq := hcut.requests frags rfl
            have hlast : routes.dropLast.length = routes.length - 1 := List.length_dropLast
            have hfst : (routes.zip frags).map Prod.fst = routes :=
              List.map_fst_zip (by simp only [List.length_nil] at hlen; omega)
            have hothers : ∀ p ∈ routes.zip frags, p.2 ∈ frags := fun p hmem =>
              (List.of_mem_zip hmem).2
            refine (addFragments_spec
              (routes ≠ [] ∧ StorageServed env (s.node.requests + routes.length) routes)
              (routes.zip frags) [] (m := m) (a := a) (b := b) (s := { s with node := node₂ })
              hcut.held (by simp) ?_ ?_ (by simp) (by simp)).bind ?_
            · intro p hmem
              obtain ⟨hpa, c, hc, hinv⟩ := hp.loose p.2 (hothers p hmem)
              refine ⟨hpa, fun c' hc' => Or.inl ?_⟩
              rw [show node₂.bundles.cells p.2 = some c' from hc'] at hc
              obtain rfl := Option.some.inj hc
              exact hinv
            · rintro ⟨hne, hsv⟩
              rw [hfst, show node₂.requests = s.node.requests + routes.length from ?_]
              · exact hsv
              · have hpos := List.length_pos_iff.mpr hne
                rw [hreq]
                change s.node.requests + 1 + routes.dropLast.length = _
                omega
            rintro ⟨added, s₃⟩ hadd
            obtain ⟨m₃, h₃⟩ := hadd.held
            cases added with
            | false =>
                refine ProcessedTo.kept m₃ h₃ fun hnil => absurd ?_ (hadd.failed rfl)
                rw [hnil]
                rfl
            | true =>
                refine removeBundle_spec h₃ (fun _ => hlost) fun hne hsv => ?_
                have hpos := List.length_pos_iff.mpr hne
                have hsnd : (routes.zip frags).map Prod.snd = frags :=
                  List.map_snd_zip (by simp only [List.length_nil] at hlen; omega)
                have hnd := hadd.nodup rfl ⟨hne, hsv⟩
                refine ⟨?_, hfst, hnd, fun p hmem => (hp.loose p.2 (hothers p hmem)).1,
                  hadd.placed rfl ⟨hne, hsv⟩, ?_⟩
                · intro hnil
                  rw [hnil] at hfst
                  exact hne hfst.symm
                · rw [List.nil_append, hsnd] at hnd
                  rw [hsnd, ← hp.bytes hnd]
                  exact List.flatMap_congr fun y _ => hadd.bytes rfl y

/-- The queries of the search keep the contents. -/
theorem sameContents_route (rc : RouterConfig) (now : UInt64) (contacts : Nat → Contact)
    (lookup : CStr → List AssociatedContact) (b : Bundle) :
    SameContents b (routerGetFirstRoute rc now contacts lookup b).2 := by
  have hqueries := ((sameContents_size b).trans (sameContents_first _)).trans (sameContents_last _)
  unfold routerGetFirstRoute
  dsimp only
  split
  · exact .refl b
  · split
    · exact hqueries
    · split
      · exact hqueries
      · exact hqueries.trans (sameContents_mid _)

/-- The routes of the fragments that the search finds for a bundle. -/
def routesFor (env : Env) (rc : RouterConfig) (lookup : CStr → List AssociatedContact)
    (s : Router) (b : Bundle) : List FragmentRoute :=
  (routerGetFirstRoute rc env.now s.contacts lookup b).1.fragmentResults

/-- The bundle is cut even if there is no route for it: it has not expired, it may be fragmented,
and a copy of it can be made. -/
def CutAnyway (env : Env) (s : Router) (b : Bundle) : Prop :=
  ¬ bundleGetExpirationTimeS env.now b < env.now ∧ bundleMustNotFragment b = false ∧
    env.malloc s.node.requests ≠ none ∧ knownVersion b = true

variable {rc : RouterConfig} {lookup : CStr → List AssociatedContact}

/-- **`process_bundle`**: without any route, the bundle is kept unless it is cut. -/
theorem processBundle_spec (env : Env) (rc : RouterConfig)
    (lookup : CStr → List AssociatedContact) (h : Held s.node m a b)
    (hb : s.node.bundles.cells a = some b) :
    Ends (Tolerated False) (processBundle env rc lookup s a)
      (ProcessedTo b a (routesFor env rc lookup s b) (CutAnyway env s b)
        (StorageServed env (s.node.requests + (routesFor env rc lookup s b).length)
          (routesFor env rc lookup s b))) := by
  unfold processBundle
  apply ends_of_eq (bundle_of_cell hb)
  split
  · next hexp =>
    have hstatus : resultExpired < 1 := by decide
    exact ProcessedTo.kept m h fun _ => ⟨hstatus, fun hl => hl.1 hexp⟩
  · next hexp =>
    have hsame := sameContents_route rc env.now s.contacts lookup b
    unfold routesFor
    generalize routerGetFirstRoute rc env.now s.contacts lookup b = found at hsame
    obtain ⟨⟨prob, routes, improved⟩, d⟩ := found
    dsimp only at hsame ⊢
    apply ends_of_eq (update_of_cell hb _)
    have h₁ : Held (s.node.put a d) m a b := h.queried hb (queried_put _ hsame)
    have hmust : bundleMustNotFragment d = bundleMustNotFragment b := by
      rw [hsame]
      rfl
    split
    · -- one route for the whole bundle
      refine (routerAddBundleToRoute_spec (s := { s with node := s.node.put a d })
        (put_self _ _ _)).bind ?_
      rintro ⟨routed, s₂⟩ ⟨hq, _, _⟩
      exact ProcessedTo.kept m (h₁.queried (put_self _ _ _) hq) (by rintro ⟨⟩)
    · split
      · next hnot =>
        have hstatus : resultNoRoute < 1 := by decide
        refine ProcessedTo.kept m h₁ fun _ => ⟨hstatus, fun hl => ?_⟩
        rw [hmust, hl.2.1] at hnot
        cases hnot
      · next hnot =>
        rw [hmust, Bool.not_eq_true] at hnot
        refine (applyFragmentation_spec env (s := { s with node := s.node.put a d })
          routes h₁).mono ?_
        intro o ho
        cases ho with
        | kept m' hheld hlost =>
            exact .kept m' hheld fun hnil => ⟨(hlost hnil).1, fun hl => (hlost hnil).2 hl.2.2⟩
        | gone m' hsound hgone hlost hserved =>
            exact .gone m' hsound hgone (fun hnil => ⟨hexp, hnot, hlost hnil⟩) hserved

end Processing

/-! ## Runs -/

/-- The states of a node with this router.  Bundles are stored and signals are handled; the
contacts change in any way, as the routing table and the contact manager have it; and stored
bundles are processed. -/
inductive Operating (P : Params) : Router → Prop
  | init (contacts : Nat → Contact) : Operating P ⟨Processor.init, contacts⟩
  | store {s : Router} {node : Processor} {env : Env} {b : Bundle} (hs : Operating P s)
      (h : storeBundle env s.node b = .ok node) : Operating P { s with node }
  | signal {s : Router} {node : Processor} {env : Env} {sig : Signal} (hs : Operating P s)
      (h : handleSignal P env s.node sig = .ok node) : Operating P { s with node }
  | contacts {s : Router} (contacts : Nat → Contact) (hs : Operating P s) :
      Operating P { s with contacts }
  | process {s s' : Router} {env : Env} {rc : RouterConfig}
      {lookup : CStr → List AssociatedContact} {id : UInt16} {a : Addr} {result : ProcessingResult}
      (hs : Operating P s) (hstored : bundleStorageGet s.node.store id = .ok (some a))
      (h : processBundle env rc lookup s a = .ok (result, s')) : Operating P s'

section Runs

variable {P : Params} {env : Env} {rc : RouterConfig} {lookup : CStr → List AssociatedContact}
  {s : Router} {a : Addr} {b : Bundle}

/-- A bundle of the storage. -/
theorem held_of_stored {m : UInt16 → Option Addr}
    (hs : Sound False False s.node m s.node.reassembly.flatten) {id : UInt16}
    (hstored : bundleStorageGet s.node.store id = .ok (some a)) :
    ∃ b, s.node.bundles.cells a = some b ∧ b.id = id ∧ Held s.node m a b := by
  rw [hs.rep.get] at hstored
  have hm := Except.ok.inj hstored
  obtain ⟨b, hb, rfl⟩ := hs.stored id a hm
  exact ⟨b, hb, rfl, hs, hm, b, hb, .refl b⟩

/-- **The storage agrees with memory in every run.** -/
theorem Operating.sound (h : Operating P s) :
    ∃ m, Sound False False s.node m s.node.reassembly.flatten := by
  induction h with
  | init contacts => exact ⟨_, sound_init⟩
  | store _ hrun ih =>
      obtain ⟨m, hs⟩ := ih
      obtain ⟨m', hs', _⟩ := (storeBundle_spec hs _).of_ok hrun
      exact ⟨m', hs'⟩
  | signal _ hrun ih =>
      obtain ⟨m, hs⟩ := ih
      obtain ⟨m', hdone⟩ := (handleSignal_spec hs _ False.elim False.elim).of_ok hrun
      exact ⟨m', hdone.sound⟩
  | contacts contacts _ ih => exact ih
  | process _ hstored hrun ih =>
      obtain ⟨m, hs⟩ := ih
      obtain ⟨b, hb, _, hheld⟩ := held_of_stored hs hstored
      cases (processBundle_spec _ _ _ hheld hb).of_ok hrun with
      | kept m' h _ => exact ⟨m', h.sound⟩
      | gone m' hsound _ _ _ => exact ⟨m', hsound⟩

end Runs

/-! ## A node without contacts -/

/-- A contact that was never planned. -/
def noContact : Contact where
  trustworthiness := 0
  reliability := 0
  claMbs := none
  fromTime := 0
  toTime := 0
  totalCapacity := 0
  remainingCapacityP0 := 0
  remainingCapacityP1 := 0
  remainingCapacityP2 := 0
  contactBundles := []
  bundleCount := 0

/-- The configuration at program start, but for the limits of the confidence. -/
def defaultConfig : RouterConfig where
  globalMbs := 2 ^ 64 - 1
  fragmentMinPayload := 8
  minProbability := 1
  minNodeConfidenceOpportunistic := 1
  minNodeConfidenceDeterministic := 1
  nodeTrustworthinessWeight := 1
  nodeReliabilityWeight := 0

/-- The small node with one bundle and an empty routing table. -/
def stranded (b : Bundle) : Router := ⟨holding b, fun _ => noContact⟩

/-- A bundle that must not be fragmented. -/
def wholeNote : Bundle := { note "dtn://x/a" [] with procFlags := flagMustNotBeFragmented }

end ContactRouter
