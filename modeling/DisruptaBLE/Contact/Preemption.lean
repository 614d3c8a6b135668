import DisruptaBLE.Contact.Assignments

/-!
# What the preemptive optimizer conserves

A run of `try_optimize_decision_preempt` collects bundles over several contacts, finds new routes
for all of them with the capacities from before, and then moves one after the other.

`conserves_iff` says when this conserves the assignments of bundles to contacts.  It fails when a
new decision needs no preemption (the assertion on the number of preempted bundles), when a bundle
is preempted from two contacts, and when the new routes together are too much for a contact.
-/

namespace ContactRouter

open PtrHeap (bind_eq_ok ok_bind)
open BundleProcessor Confidence

section

variable {F : Type} {taken : List Nat} {x : Associated F} {xs : List (Associated F)}

/-- No contact was taken that is still to come, and none twice. -/
def TakenOnce (taken : List Nat) (xs : List (Associated F)) : Prop :=
  taken.Nodup ∧ ∀ k ∈ taken, k ∉ xs.map (·.data)

theorem TakenOnce.next (h : TakenOnce taken (x :: xs)) : TakenOnce taken xs :=
  ⟨h.1, fun k hk hmem => h.2 k hk (List.mem_cons_of_mem _ hmem)⟩

theorem TakenOnce.take (h : TakenOnce taken (x :: xs)) (hx : x.data ∉ xs.map (·.data)) :
    TakenOnce (taken ++ [x.data]) xs := by
  refine ⟨List.nodup_append.2 ⟨h.1, List.nodup_singleton _, fun a ha b hb => ?_⟩, fun k hk => ?_⟩
  · rw [List.mem_singleton.1 hb]
    exact fun heq => h.2 a ha (heq ▸ List.mem_cons_self)
  · rcases List.mem_append.1 hk with hk | hk
    · exact h.next.2 k hk
    · rw [List.mem_singleton.1 hk]
      exact hx

theorem takenOnce_singleton (hx : x.data ∉ xs.map (·.data)) : TakenOnce [x.data] xs :=
  ⟨List.nodup_singleton _, fun k hk => by rwa [List.mem_singleton.1 hk]⟩

end

section

variable {F : Type} [Confidence F] {cfg : OptimizerConfig F} {confidence : Nat → F → F}
  {now : UInt64} {contacts : Nat → Contact}

/-! ## The bundles that are preempted -/

theorem takeVictims_prefix (n taken : Nat) (target : Int32) (l : List RoutedBundle) :
    (takeVictims cfg n taken target l).2 <+: l := by
  induction l generalizing taken target with
  | nil => exact List.prefix_rfl
  | cons rb l ih =>
      unfold takeVictims
      split
      · exact List.cons_prefix_cons.2 ⟨rfl, ih _ _⟩
      · exact List.nil_prefix

theorem preemptible_perm (c : Contact) (prio : RoutingPriority) :
    (preemptible c prio).Perm (getLessPrioBundleList c.contactBundles prio) :=
  (List.perm_insertionSort _ _).trans (List.perm_insertionSort _ _)

/-- The bundles that a call puts into `preempted` are different bundles of the contact. -/
structure Choice.Lists (contacts : Nat → Contact) (ch : Choice) : Prop where
  mem : ∀ x ∈ ch.victims, x ∈ (contacts ch.contact).contactBundles
  once : (ch.victims.map (·.id)).Nodup

theorem lists_doPreemption (honce : ∀ k, ((contacts k).contactBundles.map (·.id)).Nodup) (k : Nat)
    (prio : RoutingPriority) (size : UInt32) (n : Nat) :
    (doPreemption cfg now contacts k prio size n).Lists contacts := by
  have hvictims : (doPreemption cfg now contacts k prio size n).victims <+:
      preemptible (contacts k) prio := takeVictims_prefix _ _ _ _
  have hperm := preemptible_perm (contacts k) prio
  have hless : (getLessPrioBundleList (contacts k).contactBundles prio).Sublist
      (contacts k).contactBundles := List.filter_sublist
  constructor
  · exact fun x hx => hless.subset (hperm.subset (hvictims.subset hx))
  · refine (hvictims.sublist.map _).nodup ((hperm.map _).nodup_iff.2 ?_)
    exact (hless.map _).nodup (honce k)

/-- The bundles in `preempted`: those of the successful calls. -/
def live (choices : List Choice) : List RoutedBundle :=
  (choices.filter (·.success)).flatMap (·.victims)

/-- No bundle is put into `preempted` while it is there. -/
def PutOnce (choices : List Choice) : Prop :=
  ∀ pre ch post, choices = pre ++ ch :: post → ((live pre ++ ch.victims).map (·.id)).Nodup

/-- No bundle that is preempted from one contact is chosen for another one. -/
def Apart (choices : List Choice) : Prop :=
  choices.Pairwise fun a b => a.success = true → ∀ x ∈ a.victims, ∀ y ∈ b.victims, x.id ≠ y.id

theorem live_append (l l' : List Choice) : live (l ++ l') = live l ++ live l' := by
  simp [live]

theorem mem_live {choices : List Choice} {x : RoutedBundle} :
    x ∈ live choices ↔ ∃ ch ∈ choices, ch.success = true ∧ x ∈ ch.victims := by
  simp [live, and_assoc]

theorem putOnce_iff {choices : List Choice} (hlists : ∀ ch ∈ choices, ch.Lists contacts) :
    PutOnce choices ↔ Apart choices := by
  constructor
  · intro h
    induction choices using List.reverseRecOn with
    | nil => exact List.Pairwise.nil
    | append_singleton l c ih =>
        refine List.pairwise_append.2 ⟨ih (fun ch hch => hlists ch (List.mem_append_left _ hch))
          fun pre ch post heq => h pre ch (post ++ [c]) (by simp [heq]),
          List.pairwise_singleton _ _, fun a ha b hb hsuccess x hx y hy => ?_⟩
        obtain rfl := List.mem_singleton.1 hb
        have hnodup := h l b [] rfl
        rw [List.map_append, List.nodup_append] at hnodup
        exact hnodup.2.2 _ (List.mem_map_of_mem (mem_live.2 ⟨a, ha, hsuccess, hx⟩)) _
          (List.mem_map_of_mem hy)
  · intro h pre ch post heq
    induction pre using List.reverseRecOn generalizing ch post with
    | nil => exact (hlists ch (by simp [heq])).once
    | append_singleton l c ih =>
        have hbefore : ((live l ++ c.victims).map (·.id)).Nodup :=
          ih c (ch :: post) (by simp [heq])
        have hlive : (live (l ++ [c])).Sublist (live l ++ c.victims) := by
          rw [live_append]
          refine List.Sublist.append_left ?_ _
          cases hc : c.success <;> simp [live, hc]
        rw [List.map_append, List.nodup_append]
        refine ⟨(hlive.map _).nodup hbefore, (hlists ch (by simp [heq])).once, ?_⟩
        intro i hi j hj
        obtain ⟨x, hx, rfl⟩ := List.mem_map.1 hi
        obtain ⟨y, hy, rfl⟩ := List.mem_map.1 hj
        obtain ⟨a, ha, hsuccess, hxa⟩ := mem_live.1 hx
        rw [Apart, heq, List.pairwise_append] at h
        exact h.2.2 a ha ch List.mem_cons_self hsuccess x hxa y hy

/-- Without a bundle put twice, `preempted` holds no bundle twice. -/
theorem PutOnce.nodup_live {choices : List Choice} (h : PutOnce choices) :
    ((live choices).map (·.id)).Nodup := by
  rcases choices.eq_nil_or_concat with rfl | ⟨l, c, rfl⟩
  · exact List.nodup_nil
  · have hlive : (live (l ++ [c])).Sublist (live l ++ c.victims) := by
      rw [live_append]
      refine List.Sublist.append_left ?_ _
      cases hc : c.success <;> simp [live, hc]
    rw [List.concat_eq_append] at h ⊢
    exact (hlive.map _).nodup (h l c [] rfl)

/-! ## The new decision -/

/-- What holds of the variables of `try_calculate_new_decision`. -/
structure DecisionOk (contacts : Nat → Contact) (d : Decision F) : Prop where
  preempted : d.preempted = live d.choices
  lists : ∀ ch ∈ d.choices, ch.Lists contacts
  empty : d.newc = [] → d.probability = zero

theorem DecisionOk.makeRoom {d : Decision F} (h : DecisionOk contacts d)
    (cfg : OptimizerConfig F) (now : UInt64)
    (honce : ∀ k, ((contacts k).contactBundles.map (·.id)).Nodup) (prio : RoutingPriority)
    (size : UInt32) (k : Nat) :
    DecisionOk contacts (d.makeRoom cfg now contacts prio size k).2 := by
  unfold Decision.makeRoom
  dsimp only
  split
  · exact h
  split
  · refine ⟨?_, fun ch hch => ?_, h.empty⟩
    · rw [live_append, ← h.preempted]
      generalize doPreemption cfg now contacts k prio size d.preempted.length = ch
      cases hch : ch.success <;> simp [live, hch]
    · rcases List.mem_append.1 hch with hch | hch
      · exact h.lists ch hch
      · rw [List.mem_singleton.1 hch]
        exact lists_doPreemption honce k prio size _
  · exact h

theorem newc_makeRoom (cfg : OptimizerConfig F) (now : UInt64) (contacts : Nat → Contact)
    (d : Decision F) (prio : RoutingPriority) (size : UInt32) (k : Nat) :
    (d.makeRoom cfg now contacts prio size k).2.newc = d.newc := by
  unfold Decision.makeRoom
  dsimp only
  split
  · rfl
  split
  · rfl
  · rfl

/-- A contact enters the decision at most once, or alone. -/
theorem newc_enter (cfg : OptimizerConfig F) (confidence : Nat → F → F) (d : Decision F)
    (x : Associated F) :
    (d.enter cfg confidence x).2.newc = [x.data] ∨
      (d.enter cfg confidence x).2.newc = d.newc ++ [x.data] ∨
        (d.enter cfg confidence x).2 = d := by
  unfold Decision.enter
  dsimp only
  split
  · exact Or.inl rfl
  split
  · exact Or.inr (Or.inl rfl)
  · exact Or.inr (Or.inr rfl)

/-- Nothing is preempted when a contact enters. -/
theorem enter_kept (cfg : OptimizerConfig F) (confidence : Nat → F → F) (d : Decision F)
    (x : Associated F) :
    (d.enter cfg confidence x).2.preempted = d.preempted ∧
      (d.enter cfg confidence x).2.choices = d.choices := by
  unfold Decision.enter
  dsimp only
  split
  · exact ⟨rfl, rfl⟩
  split
  · exact ⟨rfl, rfl⟩
  · exact ⟨rfl, rfl⟩

theorem DecisionOk.enter {d : Decision F} (h : DecisionOk contacts d)
    (cfg : OptimizerConfig F) (confidence : Nat → F → F) (x : Associated F) :
    DecisionOk contacts (d.enter cfg confidence x).2 := by
  have hempty : (d.enter cfg confidence x).2.newc = [] →
      (d.enter cfg confidence x).2.probability = zero := by
    intro hnil
    rcases newc_enter cfg confidence d x with hnew | hnew | hsame
    · rw [hnew] at hnil
      cases hnil
    · rw [hnew] at hnil
      simp at hnil
    · rw [hsame] at hnil ⊢
      exact h.empty hnil
  obtain ⟨hpreempted, hchoices⟩ := enter_kept cfg confidence d x
  refine ⟨?_, ?_, hempty⟩
  · rw [hpreempted, hchoices]
    exact h.preempted
  · rw [hchoices]
    exact h.lists

/-- **The loop of `try_calculate_new_decision`** keeps its variables right. -/
theorem decisionLoop_ok (honce : ∀ k, ((contacts k).contactBundles.map (·.id)).Nodup)
    (prio : RoutingPriority) (size : UInt32) {d : Decision F} {xs : List (Associated F)}
    (hxs : (xs.map (·.data)).Nodup) (htaken : TakenOnce d.newc xs) (h : DecisionOk contacts d) :
    DecisionOk contacts (decisionLoop cfg confidence now contacts prio size d xs) ∧
      (decisionLoop cfg confidence now contacts prio size d xs).newc.Nodup := by
  induction xs generalizing d with
  | nil => exact ⟨h, htaken.1⟩
  | cons x xs ih =>
      obtain ⟨hx, hxs⟩ := List.nodup_cons.1 hxs
      unfold decisionLoop
      split
      · exact ⟨h, htaken.1⟩
      have hroom := h.makeRoom cfg now honce prio size x.data
      have hnewc := newc_makeRoom cfg now contacts d prio size x.data
      generalize d.makeRoom cfg now contacts prio size x.data = r at hroom hnewc
      obtain ⟨room, d₁⟩ := r
      dsimp only at hroom hnewc ⊢
      rw [← hnewc] at htaken
      split
      · exact ih hxs htaken.next hroom
      have henter := hroom.enter cfg confidence x
      have hcases := newc_enter cfg confidence d₁ x
      generalize d₁.enter cfg confidence x = r at henter hcases
      obtain ⟨done, d₂⟩ := r
      dsimp only at henter hcases ⊢
      have htaken₂ : TakenOnce d₂.newc xs := by
        rcases hcases with hnew | hnew | rfl
        · rw [hnew]
          exact takenOnce_singleton hx
        · rw [hnew]
          exact htaken.take hx
        · exact htaken.next
      split
      · exact ⟨henter, htaken₂.1⟩
      · exact ih hxs htaken₂ henter

/-! ## The new routes -/

/-- **The loop of `router_calculate_fragment_route`** takes no contact twice, and without any contact
the probability stays zero. -/
theorem collectContactsBy_ok (cfg : OptimizerConfig F) (confidence : Nat → F → F)
    (now : UInt64) (contacts : Nat → Contact) (size : UInt32) (prio : RoutingPriority)
    (expTime : UInt64) (excluded : List Nat) (preprocessedSize : UInt32) (res : FoundRoute F)
    {xs : List (Associated F)} (hxs : (xs.map (·.data)).Nodup)
    (htaken : TakenOnce res.contacts xs) (hempty : res.contacts = [] → res.probability = zero) :
    let r := collectContactsBy cfg confidence now contacts size prio expTime excluded
      preprocessedSize res xs
    r.contacts.Nodup ∧ (r.contacts = [] → r.probability = zero) := by
  induction xs generalizing preprocessedSize res with
  | nil => exact ⟨htaken.1, hempty⟩
  | cons x xs ih =>
      obtain ⟨hx, hxs⟩ := List.nodup_cons.1 hxs
      unfold collectContactsBy
      dsimp only
      split
      · exact ⟨htaken.1, hempty⟩
      split
      · exact ih _ _ hxs htaken.next hempty
      split
      · exact ih _ _ hxs htaken.next hempty
      split
      · exact ih _ _ hxs htaken.next hempty
      split
      · exact ⟨List.nodup_singleton _, fun hnil => absurd hnil (List.cons_ne_nil _ _)⟩
      split
      · refine ih _ _ hxs (htaken.take hx) fun hnil => ?_
        simp at hnil
      · exact ih _ _ hxs htaken.next hempty

/-- A route that enters contacts, none of them twice. -/
def FoundRoute.Usable (r : FoundRoute F) : Prop := r.contacts ≠ [] ∧ r.contacts.Nodup

variable {eidTable : CStr → Option (List (Associated F))}

/-- All new routes are usable, one for each bundle. -/
theorem newRoutes_usable {ignored : List Nat} {preempted : List RoutedBundle}
    {routes : List (FoundRoute F)}
    (h : newRoutes cfg confidence eidTable now contacts ignored preempted = some routes) :
    routes.length = preempted.length ∧ ∀ r ∈ routes, r.Usable := by
  induction preempted generalizing routes with
  | nil =>
      cases h
      exact ⟨rfl, fun r hr => absurd hr List.not_mem_nil⟩
  | cons rb rbs ih =>
      unfold newRoutes at h
      dsimp only at h
      split at h
      · cases h
      have hok := collectContactsBy_ok cfg confidence now contacts rb.size rb.prio rb.expTime
        ignored 0 ⟨zero, [], 0⟩ (nodup_routerLookupDestination contacts eidTable rb.destination)
        ⟨List.nodup_nil, fun k hk => absurd hk List.not_mem_nil⟩ fun _ => rfl
      unfold calculateFragmentRouteBy at h
      dsimp only at h hok
      split at h
      · cases h
      next hfound =>
      obtain ⟨rest, hrest, rfl⟩ := Option.map_eq_some_iff.1 h
      obtain ⟨hlength, husable⟩ := ih hrest
      refine ⟨congrArg (· + 1) hlength, fun r hr => ?_⟩
      rcases List.mem_cons.1 hr with rfl | hr
      · refine ⟨fun hnil => ?_, hok.1⟩
        rw [hok.2 hnil, cfg.positive] at hfound
        exact hfound rfl
      · exact husable r hr

end

/-! ## The bundles that move -/

section

variable {F : Type}

/-- The ids of the preempted bundles, which have a route each. -/
theorem map_zip_id {l : List RoutedBundle} {found : List (FoundRoute F)}
    (h : found.length = l.length) : (l.zip found).map (·.1.id) = l.map (·.id) := by
  have hfst : (l.zip found).map Prod.fst = l := List.map_fst_zip h.ge
  conv_rhs => rw [← hfst]
  rw [List.map_map]
  rfl

/-- The preempted bundles move to their new routes. -/
def preemptionMoves (routes : UInt16 → List Nat) (l : List (RoutedBundle × FoundRoute F)) :
    List Move :=
  l.map fun p =>
    ⟨{ p.1 with preemptionImprovement := p.2.preemptionImproved }, routes p.1.id, p.2.contacts⟩

theorem preemptionMoves_update {routes : UInt16 → List Nat} {id : UInt16} {ks : List Nat}
    {l : List (RoutedBundle × FoundRoute F)} (h : id ∉ l.map (·.1.id)) :
    preemptionMoves (Function.update routes id ks) l = preemptionMoves routes l := by
  refine List.map_congr_left fun p hp => ?_
  have hne : p.1.id ≠ id := fun heq => h (heq ▸ List.mem_map_of_mem hp)
  rw [Function.update_of_ne hne]

/-- The second loop of `re_route_preempted_fragments` moves different bundles. -/
theorem applyRoutes_eq {s : Assignments} {l : List (RoutedBundle × FoundRoute F)}
    (hids : (l.map (·.1.id)).Nodup) (hne : ∀ p ∈ l, p.2.contacts ≠ []) :
    applyRoutes s l = (moveAll s.contacts (preemptionMoves s.routes l)).map fun cs =>
      ⟨cs, routesAfter s.routes (preemptionMoves s.routes l), s.released ++ l.map (·.1.id)⟩ := by
  induction l generalizing s with
  | nil =>
      show Except.ok s = .ok ⟨s.contacts, s.routes, s.released ++ []⟩
      rw [List.append_nil]
  | cons p l ih =>
      obtain ⟨rb, r⟩ := p
      obtain ⟨hp, hrest⟩ := List.nodup_cons.1 hids
      unfold applyRoutes Assignments.updateRoutedBundle
      dsimp only
      rw [assertP_of (hne _ List.mem_cons_self), ok_bind]
      show _ = (addToAll { rb with preemptionImprovement := r.preemptionImproved }
        (removeFromAll rb.id s.contacts (s.routes rb.id)) r.contacts >>= fun cs =>
          moveAll cs (preemptionMoves s.routes l)).map _
      cases addToAll { rb with preemptionImprovement := r.preemptionImproved }
        (removeFromAll rb.id s.contacts (s.routes rb.id)) r.contacts with
      | error f => rfl
      | ok cs =>
          rw [ok_bind, ok_bind]
          show applyRoutes
            ⟨cs, Function.update (Function.update s.routes rb.id []) rb.id r.contacts,
              s.released ++ [rb.id]⟩ l = _
          rw [Function.update_idem, ih hrest fun p hp => hne p (List.mem_cons_of_mem _ hp)]
          dsimp only
          rw [preemptionMoves_update hp]
          cases moveAll cs (preemptionMoves s.routes l) with
          | error f => rfl
          | ok cs' =>
              show Except.ok _ = Except.ok _
              rw [List.append_assoc]
              rfl

theorem routesAfter_of_ne {routes routes' : UInt16 → List Nat} {id : UInt16}
    (h : ∀ j ≠ id, routes j = routes' j) (ms : List Move) :
    ∀ j ≠ id, routesAfter routes ms j = routesAfter routes' ms j := by
  induction ms generalizing routes routes' with
  | nil => exact h
  | cons m ms ih =>
      refine ih fun j hj => ?_
      show Function.update routes _ _ j = Function.update routes' _ _ j
      rw [Function.update_apply, Function.update_apply, h j hj]

/-- After the moves a bundle has the contacts of its move, or those from before. -/
theorem routesAfter_cases (routes : UInt16 → List Nat) (ms : List Move) (j : UInt16) :
    routesAfter routes ms j = routes j ∨ ∃ m ∈ ms, routesAfter routes ms j = m.new := by
  induction ms generalizing routes with
  | nil => exact Or.inl rfl
  | cons m ms ih =>
      rcases ih (Function.update routes m.bundle.id m.new) with h | ⟨n, hn, h⟩
      · by_cases hj : j = m.bundle.id
        · subst hj
          rw [Function.update_self] at h
          exact Or.inr ⟨m, List.mem_cons_self, h⟩
        · rw [Function.update_of_ne hj] at h
          exact Or.inl h
      · exact Or.inr ⟨n, List.mem_cons_of_mem m hn, h⟩

end

section

variable {F : Type} [Confidence F] (cfg : OptimizerConfig F) (confidence : Nat → F → F)
  (eidTable : CStr → Option (List (Associated F))) (now : UInt64) (s : Assignments)
  (rb : RoutedBundle)

/-- The contacts without the bundle. -/
def withoutBundle : Nat → Contact := removeFromAll rb.id s.contacts (s.routes rb.id)

/-- The new decision for the bundle. -/
def newDecision : Decision F :=
  tryCalculateNewDecision cfg confidence now (withoutBundle s rb)
    (routerLookupDestination (withoutBundle s rb) eidTable rb.destination) rb.prio rb.size

/-- The new routes of the preempted bundles, if the decision is probable enough and all of them are
found. -/
def preemptedRoutes : Option (List (FoundRoute F)) :=
  let d := newDecision cfg confidence eidTable now s rb
  if atMost cfg.minProbability d.probability then
    newRoutes cfg confidence eidTable now (withoutBundle s rb) d.newc d.preempted
  else none

/-- The bundle, not to be optimized again. -/
def RoutedBundle.optimized : RoutedBundle := { rb with preemptionImprovement := 0 }

/-- The moves by which a decision is applied: those of the preempted bundles, and last the bundle,
which was removed before, enters its new contacts. -/
def plannedMoves (found : List (FoundRoute F)) : List Move :=
  let d := newDecision cfg confidence eidTable now s rb
  preemptionMoves s.routes (d.preempted.zip found) ++ [⟨rb.optimized, [], d.newc⟩]

variable {cfg confidence eidTable now s rb}

theorem bind_pure_eq_map {α β : Type} (x : Except Fault α) (f : α → β) :
    (x >>= fun a => pure (f a)) = x.map f := by
  cases x <;> rfl

theorem map_eq_ok {α β : Type} {x : Except Fault α} {f : α → β} {b : β} :
    x.map f = .ok b ↔ ∃ a, x = .ok a ∧ f a = b := by
  cases x <;> simp [Except.map]

theorem map_bind_eq {α β γ : Type} (x : Except Fault α) (f : α → β) (g : β → Except Fault γ) :
    (x.map f >>= g) = x >>= fun a => g (f a) := by
  cases x <;> rfl

/-- Without all new routes, `re_route_preempted_fragments` changes nothing. -/
theorem reRoute_of_none {x : Assignments} {preempted : List RoutedBundle} {ignored : List Nat}
    (h : newRoutes cfg confidence eidTable now x.contacts ignored preempted = none) :
    reRoutePreemptedFragments cfg confidence eidTable now x preempted ignored =
      .ok (false, x) := by
  have hne : preempted ≠ [] := by
    rintro rfl
    cases h
  unfold reRoutePreemptedFragments
  rw [assertP_of hne, ok_bind, h]
  rfl

theorem reRoute_of_some {x : Assignments} {preempted : List RoutedBundle} {ignored : List Nat}
    {found : List (FoundRoute F)}
    (h : newRoutes cfg confidence eidTable now x.contacts ignored preempted = some found) :
    reRoutePreemptedFragments cfg confidence eidTable now x preempted ignored =
      if preempted ≠ [] then (applyRoutes x (preempted.zip found)).map fun s => (true, s)
      else .error (.other .assertFailed) := by
  unfold reRoutePreemptedFragments
  by_cases hne : preempted ≠ []
  · rw [assertP_of hne, ok_bind, h, if_pos hne]
    dsimp only
    cases applyRoutes x (preempted.zip found) <;> rfl
  · rw [assertP_of_not hne, if_neg hne]
    rfl

/-- The bundle stays at its contacts, if no new routes are found. -/
theorem optimize_of_none (h : preemptedRoutes cfg confidence eidTable now s rb = none) :
    ∃ rb' : RoutedBundle, rb'.id = rb.id ∧ rb'.size = rb.size ∧
      tryOptimizeDecisionPreempt cfg confidence eidTable now true s rb =
        (addToAll rb' (withoutBundle s rb) (s.routes rb.id)).map fun contacts =>
          ⟨false, (newDecision cfg confidence eidTable now s rb).choices, { s with contacts }⟩ := by
  unfold tryOptimizeDecisionPreempt
  by_cases hassoc : (routerLookupDestination (withoutBundle s rb) eidTable
      rb.destination).isEmpty = true
  · refine ⟨rb, rfl, rfl, ?_⟩
    have hchoices : (newDecision cfg confidence eidTable now s rb).choices = [] := by
      rw [newDecision, List.isEmpty_iff.1 hassoc]
      rfl
    rw [hchoices]
    refine (if_neg Bool.false_ne_true).trans ?_
    exact (if_pos hassoc).trans (bind_pure_eq_map _ _)
  · refine ⟨rb.optimized, rfl, rfl, ?_⟩
    have hkept : (if atMost cfg.minProbability
        (newDecision cfg confidence eidTable now s rb).probability then
          reRoutePreemptedFragments cfg confidence eidTable now
            { s with contacts := withoutBundle s rb }
            (newDecision cfg confidence eidTable now s rb).preempted
            (newDecision cfg confidence eidTable now s rb).newc
        else pure (false, { s with contacts := withoutBundle s rb })) =
        .ok (false, { s with contacts := withoutBundle s rb }) := by
      split
      · next hprob =>
        rw [preemptedRoutes, if_pos hprob] at h
        exact reRoute_of_none h
      · rfl
    refine (if_neg Bool.false_ne_true).trans ?_
    refine (if_neg hassoc).trans ?_
    refine (congrArg (· >>= _) hkept).trans ?_
    exact bind_pure_eq_map _ _

/-- The decision is applied, if new routes are found and some bundle is preempted. -/
theorem optimize_of_some {found : List (FoundRoute F)}
    (h : preemptedRoutes cfg confidence eidTable now s rb = some found) :
    tryOptimizeDecisionPreempt cfg confidence eidTable now true s rb =
      let d := newDecision cfg confidence eidTable now s rb
      if d.preempted ≠ [] then
        applyRoutes { s with contacts := withoutBundle s rb } (d.preempted.zip found) >>= fun s' =>
          assertP (d.newc ≠ []) >>= fun _ =>
            (addToAll rb.optimized s'.contacts d.newc).map fun contacts =>
              ⟨true, d.choices,
                { s' with contacts, routes := Function.update s'.routes rb.id d.newc }⟩
      else .error (.other .assertFailed) := by
  have hprob : atMost cfg.minProbability
      (newDecision cfg confidence eidTable now s rb).probability = true := by
    by_contra hno
    rw [preemptedRoutes, if_neg hno] at h
    cases h
  have hassoc : ¬(routerLookupDestination (withoutBundle s rb) eidTable
      rb.destination).isEmpty = true := by
    intro hempty
    have hzero : (newDecision cfg confidence eidTable now s rb).probability = zero := by
      rw [newDecision, List.isEmpty_iff.1 hempty]
      rfl
    rw [hzero, cfg.positive] at hprob
    cases hprob
  rw [preemptedRoutes, if_pos hprob] at h
  unfold tryOptimizeDecisionPreempt
  refine (if_neg Bool.false_ne_true).trans ?_
  refine (if_neg hassoc).trans ?_
  refine (congrArg (· >>= _) ((if_pos hprob).trans (reRoute_of_some h))).trans ?_
  by_cases hne : (newDecision cfg confidence eidTable now s rb).preempted ≠ []
  · refine (congrArg (· >>= _) (if_pos hne)).trans ((map_bind_eq _ _ _).trans ?_)
    dsimp only
    rw [if_pos hne]
    refine congrArg _ (funext fun s' => ?_)
    refine (if_pos rfl).trans (congrArg _ (funext fun _ => ?_))
    exact bind_pure_eq_map _ _
  · refine (congrArg (· >>= _) (if_neg hne)).trans ?_
    dsimp only
    rw [if_neg hne]
    rfl

/-! ## What is conserved -/

/-- What a run keeps of the assignments of bundles to contacts. -/
structure Conserved (s : Assignments) (o : Optimization) : Prop where
  putOnce : PutOnce o.choices
  released : ∃ l : List UInt16, o.state.released = s.released ++ l ∧ l.Nodup
  listed : Listed o.state.contacts o.state.routes
  nonneg : ∀ k, 0 ≤ (o.state.contacts k).remainingCapacityP0
  assigned : ∀ id, s.routes id ≠ [] → o.state.routes id ≠ []
  kept : o.applied = false → o.state.routes = s.routes

variable (cfg confidence eidTable now s rb)

/-- No assertion stops the run, and the assignments are conserved. -/
def Conserves (buffer : Bool) : Prop :=
  ∃ o, tryOptimizeDecisionPreempt cfg confidence eidTable now buffer s rb = .ok o ∧ Conserved s o

/-- When the assignments are conserved: a decision that is probable enough preempts some bundle, no
bundle is preempted from two contacts, the moves of a decision that is applied fit, and otherwise
the bundle finds room where it was. -/
structure PlanFits : Prop where
  needed : atMost cfg.minProbability (newDecision cfg confidence eidTable now s rb).probability →
    (newDecision cfg confidence eidTable now s rb).preempted ≠ []
  apart : Apart (newDecision cfg confidence eidTable now s rb).choices
  fits : ∀ found, preemptedRoutes cfg confidence eidTable now s rb = some found →
    MovesFit (withoutBundle s rb) (plannedMoves cfg confidence eidTable now s rb found)
  back : preemptedRoutes cfg confidence eidTable now s rb = none →
    (s.routes rb.id).Nodup ∧ ∀ k ∈ s.routes rb.id, 0 < capacityAfter s.contacts k rb.size.toNat 0

variable {cfg confidence eidTable now s rb}

/-- Without the bundle, the contacts list the others. -/
theorem listed_without (rb : RoutedBundle) (hlisted : Listed s.contacts s.routes) :
    Listed (withoutBundle s rb) (Function.update s.routes rb.id []) := hlisted.remove rb.id

theorem newDecision_ok (cfg : OptimizerConfig F) (confidence : Nat → F → F)
    (eidTable : CStr → Option (List (Associated F))) (now : UInt64) (rb : RoutedBundle)
    (hlisted : Listed s.contacts s.routes) :
    DecisionOk (withoutBundle s rb) (newDecision cfg confidence eidTable now s rb) ∧
      (newDecision cfg confidence eidTable now s rb).newc.Nodup :=
  decisionLoop_ok (listed_without rb hlisted).once rb.prio rb.size
    (nodup_routerLookupDestination (withoutBundle s rb) eidTable rb.destination)
    ⟨List.nodup_nil, fun _ hk => absurd hk List.not_mem_nil⟩
    ⟨rfl, fun _ hch => absurd hch List.not_mem_nil, fun _ => rfl⟩

/-- The preempted bundles are listed, and the bundle itself is none of them. -/
theorem mem_preempted (hlisted : Listed s.contacts s.routes) {x : RoutedBundle}
    (hx : x ∈ (newDecision cfg confidence eidTable now s rb).preempted) :
    x.id ≠ rb.id ∧ ∃ k, x ∈ (withoutBundle s rb k).contactBundles := by
  have hok := (newDecision_ok cfg confidence eidTable now rb hlisted).1
  rw [hok.preempted] at hx
  obtain ⟨ch, hch, -, hx⟩ := mem_live.1 hx
  have hmem := (hok.lists ch hch).mem x hx
  refine ⟨?_, ch.contact, hmem⟩
  rw [withoutBundle, hlisted.bundles_remove, List.mem_filter] at hmem
  exact of_decide_eq_true hmem.2

/-- **The bundle stays**: this conserves the assignments exactly if it finds room where it was. -/
theorem conserves_of_none (hlisted : Listed s.contacts s.routes)
    (hnonneg : ∀ k, 0 ≤ (s.contacts k).remainingCapacityP0) (hsize : Sized s.contacts rb)
    (h : preemptedRoutes cfg confidence eidTable now s rb = none) :
    Conserves cfg confidence eidTable now s rb true ↔
      Apart (newDecision cfg confidence eidTable now s rb).choices ∧ (s.routes rb.id).Nodup ∧
        ∀ k ∈ s.routes rb.id, 0 < capacityAfter s.contacts k rb.size.toNat 0 := by
  have hlists := (newDecision_ok cfg confidence eidTable now rb hlisted).1.lists
  have hroom : ∀ k, (withoutBundle s rb k).remainingCapacityP0 = capacityAfter s.contacts k
      (if k ∈ s.routes rb.id then rb.size.toNat else 0) 0 := hlisted.p0_remove hsize
  obtain ⟨rb', hid, hsz, hrun⟩ := optimize_of_none h
  unfold Conserves
  rw [hrun, ← putOnce_iff hlists]
  constructor
  · rintro ⟨o, ho, hc⟩
    obtain ⟨cs, hcs, rfl⟩ := map_eq_ok.1 ho
    have hnodup : (s.routes rb.id).Nodup := by
      refine List.nodup_iff_count_le_one.2 fun k => ?_
      have honce := hc.listed.once k
      rw [bundles_addToAll hcs, List.map_append, List.nodup_append, List.map_replicate] at honce
      exact List.nodup_replicate.1 honce.2.1
    refine ⟨hc.putOnce, hnodup, fun k hk => ?_⟩
    rw [addToAll_of_nodup _ _ hnodup] at hcs
    split at hcs
    · next hpos =>
      have := hpos k hk
      rwa [hroom, if_pos hk] at this
    · cases hcs
  · rintro ⟨hput, hnodup, hpos⟩
    have hserved : ∀ k ∈ s.routes rb.id, 0 < (withoutBundle s rb k).remainingCapacityP0 := by
      intro k hk
      rw [hroom, if_pos hk]
      exact hpos k hk
    rw [addToAll_of_nodup _ _ hnodup, if_pos hserved]
    refine ⟨_, rfl, hput, ⟨[], (List.append_nil _).symm, List.nodup_nil⟩, ?_, fun k => ?_,
      fun _ hne => hne, fun _ => rfl⟩
    · have hnone : Function.update s.routes rb.id [] rb'.id = [] := by
        rw [hid, Function.update_self]
      have hback := (listed_without rb hlisted).add (s.routes rb.id) hnone
      rwa [hid, Function.update_idem, Function.update_eq_self] at hback
    · show 0 ≤ (withBundle rb' (withoutBundle s rb) (s.routes rb.id) k).remainingCapacityP0
      rw [p0_withBundle, capacityAfter_add (hroom k), hsz]
      have hsame : ∀ z : Int, capacityAfter s.contacts k (z + 0) (0 + z) =
          (s.contacts k).remainingCapacityP0 := by
        intro z
        rw [← capacityAfter_zero s.contacts k, capacityAfter, capacityAfter]
        congr 1
        ring
      rw [hsame]
      exact hnonneg k

theorem preemptedRoutes_usable {found : List (FoundRoute F)}
    (hfound : preemptedRoutes cfg confidence eidTable now s rb = some found) :
    found.length = (newDecision cfg confidence eidTable now s rb).preempted.length ∧
      ∀ r ∈ found, r.Usable := by
  rw [preemptedRoutes] at hfound
  split at hfound
  · exact newRoutes_usable hfound
  · cases hfound

/-- The moves of a decision are those of different listed bundles. -/
theorem plannedMoves_movable (hlisted : Listed s.contacts s.routes)
    {found : List (FoundRoute F)}
    (hfound : preemptedRoutes cfg confidence eidTable now s rb = some found)
    (hids : ((newDecision cfg confidence eidTable now s rb).preempted.map (·.id)).Nodup) :
    ((plannedMoves cfg confidence eidTable now s rb found).map (·.bundle.id)).Nodup ∧
      ∀ m ∈ plannedMoves cfg confidence eidTable now s rb found,
        Movable (withoutBundle s rb) (Function.update s.routes rb.id []) m := by
  have hlisted' := listed_without rb hlisted
  have hmem : ∀ x ∈ (newDecision cfg confidence eidTable now s rb).preempted,
      x.id ≠ rb.id ∧ ∃ k, x ∈ (withoutBundle s rb k).contactBundles :=
    fun x hx => mem_preempted hlisted hx
  have hnewc := (newDecision_ok cfg confidence eidTable now rb hlisted).2
  obtain ⟨hlength, husable⟩ := preemptedRoutes_usable hfound
  unfold plannedMoves
  dsimp only
  generalize (newDecision cfg confidence eidTable now s rb).preempted = preempted at *
  constructor
  · have hmoved : (preemptionMoves s.routes (preempted.zip found)).map (·.bundle.id) =
        preempted.map (·.id) := by
      rw [← map_zip_id hlength, preemptionMoves, List.map_map]
      rfl
    rw [List.map_append, hmoved, List.nodup_append]
    refine ⟨hids, List.nodup_singleton _, fun i hi j hj => ?_⟩
    obtain ⟨x, hx, rfl⟩ := List.mem_map.1 hi
    rw [List.map_singleton, List.mem_singleton] at hj
    rw [hj]
    exact (hmem x hx).1
  · intro m hm
    rcases List.mem_append.1 hm with hm | hm
    · obtain ⟨p, hp, rfl⟩ := List.mem_map.1 hm
      obtain ⟨hne, j, hj⟩ := hmem p.1 (List.of_mem_zip hp).1
      refine ⟨?_, (husable p.2 (List.of_mem_zip hp).2).2, fun k x hx hid => ?_⟩
      · show s.routes p.1.id = Function.update s.routes rb.id [] p.1.id
        rw [Function.update_of_ne hne]
      · show x.size = p.1.size
        rw [hlisted'.same k j x hx p.1 hj hid]
    · rw [List.mem_singleton.1 hm]
      refine ⟨(Function.update_self rb.id [] s.routes).symm, hnewc, fun k x hx hid => ?_⟩
      rw [withoutBundle, hlisted.bundles_remove, List.mem_filter] at hx
      exact absurd hid (of_decide_eq_true hx.2)

/-- A decision that is probable enough enters some contact. -/
theorem newc_ne_nil (hlisted : Listed s.contacts s.routes) {found : List (FoundRoute F)}
    (hfound : preemptedRoutes cfg confidence eidTable now s rb = some found) :
    (newDecision cfg confidence eidTable now s rb).newc ≠ [] := by
  have hok := (newDecision_ok cfg confidence eidTable now rb hlisted).1
  intro hnil
  rw [preemptedRoutes, hok.empty hnil, cfg.positive] at hfound
  cases hfound

/-- What a decision that is applied does. -/
theorem optimize_applied (hlisted : Listed s.contacts s.routes) {found : List (FoundRoute F)}
    (hfound : preemptedRoutes cfg confidence eidTable now s rb = some found)
    (hids : ((newDecision cfg confidence eidTable now s rb).preempted.map (·.id)).Nodup)
    (hne : (newDecision cfg confidence eidTable now s rb).preempted ≠ []) :
    tryOptimizeDecisionPreempt cfg confidence eidTable now true s rb =
      let d := newDecision cfg confidence eidTable now s rb
      let moves := plannedMoves cfg confidence eidTable now s rb found
      (moveAll (withoutBundle s rb) moves).map fun cs =>
        ⟨true, d.choices, cs, routesAfter (Function.update s.routes rb.id []) moves,
          s.released ++ d.preempted.map (·.id)⟩ := by
  obtain ⟨hlength, husable⟩ := preemptedRoutes_usable hfound
  have hnewc := newc_ne_nil hlisted hfound
  rw [optimize_of_some hfound]
  dsimp only
  rw [if_pos hne]
  unfold plannedMoves
  dsimp only
  generalize newDecision cfg confidence eidTable now s rb = d at *
  rw [applyRoutes_eq (by rwa [map_zip_id hlength])
    fun p hp => (husable p.2 (List.of_mem_zip hp).2).1, map_zip_id hlength, moveAll_append,
    map_bind_eq]
  dsimp only
  have hroutes : ∀ ms : List Move, Function.update (routesAfter s.routes ms) rb.id d.newc =
      routesAfter (Function.update s.routes rb.id []) (ms ++ [⟨rb.optimized, [], d.newc⟩]) := by
    intro ms
    have hlast : routesAfter (Function.update s.routes rb.id [])
        (ms ++ [⟨rb.optimized, [], d.newc⟩]) =
          Function.update (routesAfter (Function.update s.routes rb.id []) ms) rb.id d.newc :=
      List.foldl_append
    rw [hlast]
    funext j
    by_cases hj : j = rb.id
    · rw [hj, Function.update_self, Function.update_self]
    · rw [Function.update_of_ne hj, Function.update_of_ne hj]
      exact (routesAfter_of_ne (fun i hi => Function.update_of_ne hi [] s.routes) ms j hj).symm
  cases moveAll (withoutBundle s rb) (preemptionMoves s.routes (d.preempted.zip found)) with
  | error f => rfl
  | ok cs =>
      rw [ok_bind, ok_bind, assertP_of hnewc, ok_bind, hroutes]
      show _ = (addToAll rb.optimized cs d.newc >>= fun cs => pure cs).map _
      cases addToAll rb.optimized cs d.newc <;> rfl

/-- **A decision is applied**: this conserves the assignments exactly if its moves fit. -/
theorem conserves_of_some (hlisted : Listed s.contacts s.routes)
    {found : List (FoundRoute F)}
    (hfound : preemptedRoutes cfg confidence eidTable now s rb = some found) :
    Conserves cfg confidence eidTable now s rb true ↔
      (newDecision cfg confidence eidTable now s rb).preempted ≠ [] ∧
        Apart (newDecision cfg confidence eidTable now s rb).choices ∧
        MovesFit (withoutBundle s rb) (plannedMoves cfg confidence eidTable now s rb found) := by
  have hok := (newDecision_ok cfg confidence eidTable now rb hlisted).1
  have hlisted' := listed_without rb hlisted
  have hiff := putOnce_iff hok.lists
  -- both sides need a preempted bundle, and no bundle twice
  by_cases hne : (newDecision cfg confidence eidTable now s rb).preempted ≠ []
  swap
  · refine iff_of_false ?_ fun h => hne h.1
    rintro ⟨o, ho, -⟩
    rw [optimize_of_some hfound] at ho
    dsimp only at ho
    rw [if_neg hne] at ho
    cases ho
  by_cases hput : PutOnce (newDecision cfg confidence eidTable now s rb).choices
  swap
  · refine iff_of_false ?_ fun h => hput (hiff.2 h.2.1)
    rintro ⟨o, ho, hc⟩
    refine hput ?_
    rw [optimize_of_some hfound] at ho
    dsimp only at ho
    rw [if_pos hne] at ho
    obtain ⟨s', -, ho⟩ := bind_eq_ok.1 ho
    obtain ⟨_, -, ho⟩ := bind_eq_ok.1 ho
    obtain ⟨cs, -, rfl⟩ := map_eq_ok.1 ho
    exact hc.putOnce
  have hids : ((newDecision cfg confidence eidTable now s rb).preempted.map (·.id)).Nodup := by
    rw [hok.preempted]
    exact hput.nodup_live
  obtain ⟨hmoveIds, hmovable⟩ := plannedMoves_movable hlisted hfound hids
  obtain ⟨hserved, hafter⟩ := moveAll_spec hlisted' hmoveIds hmovable
  unfold Conserves
  rw [optimize_applied hlisted hfound hids hne]
  dsimp only
  constructor
  · rintro ⟨o, ho, hc⟩
    obtain ⟨cs, hcs, rfl⟩ := map_eq_ok.1 ho
    refine ⟨hne, hiff.1 hput, hserved.1 ⟨cs, hcs⟩, fun k => ?_⟩
    rw [← (hafter cs hcs).2 k]
    exact hc.nonneg k
  · rintro ⟨-, -, hfit⟩
    obtain ⟨cs, hcs⟩ := hserved.2 hfit.served
    obtain ⟨hlistedAfter, hp0⟩ := hafter cs hcs
    refine ⟨_, map_eq_ok.2 ⟨cs, hcs, rfl⟩, hput, ⟨_, rfl, hids⟩, hlistedAfter, fun k => ?_,
      fun id hid => ?_, fun hfalse => ?_⟩
    · show 0 ≤ (cs k).remainingCapacityP0
      rw [hp0]
      exact hfit.final k
    · show routesAfter _ (_ ++ [_]) id ≠ []
      rw [routesAfter, List.foldl_append]
      show Function.update (routesAfter _ _) rb.id _ id ≠ []
      by_cases hrb : id = rb.id
      · rw [hrb, Function.update_self]
        exact newc_ne_nil hlisted hfound
      · rw [Function.update_of_ne hrb]
        rcases routesAfter_cases (Function.update s.routes rb.id []) _ id with h | ⟨m, hm, h⟩
        · rw [h, Function.update_of_ne hrb]
          exact hid
        · rw [h]
          obtain ⟨p, hp, rfl⟩ := List.mem_map.1 hm
          exact ((preemptedRoutes_usable hfound).2 p.2 (List.of_mem_zip hp).2).1
    · cases hfalse

/-- **What the optimizer conserves.**  For all contacts that list their bundles, every configuration
and every routed bundle: no assertion stops the run, no bundle is preempted twice, the listing holds
again, no capacity is negative and no bundle is left without contacts, if and only if the plan
fits. -/
theorem conserves_iff (cfg : OptimizerConfig F) (confidence : Nat → F → F)
    (eidTable : CStr → Option (List (Associated F))) (now : UInt64) (buffer : Bool)
    (s : Assignments) (rb : RoutedBundle) (hlisted : Listed s.contacts s.routes)
    (hnonneg : ∀ k, 0 ≤ (s.contacts k).remainingCapacityP0)
    (hrb : ∀ k, ∀ x ∈ (s.contacts k).contactBundles, x.id = rb.id → x = rb) :
    Conserves cfg confidence eidTable now s rb buffer ↔
      (buffer = true → PlanFits cfg confidence eidTable now s rb) := by
  cases buffer with
  | false =>
      refine iff_of_true ⟨⟨false, [], s⟩, rfl, ?_, ⟨[], (List.append_nil _).symm, List.nodup_nil⟩,
        hlisted, hnonneg, fun _ h => h, fun _ => rfl⟩ fun h => ?_
      · exact fun pre ch post h => absurd h.symm (by simp)
      · cases h
  | true =>
      have hsize : Sized s.contacts rb := fun k x hx hid => by rw [hrb k x hx hid]
      refine Iff.trans ?_ ⟨fun h _ => h, fun h => h rfl⟩
      cases hfound : preemptedRoutes cfg confidence eidTable now s rb with
      | none =>
          rw [conserves_of_none hlisted hnonneg hsize hfound]
          constructor
          · rintro ⟨hapart, hback⟩
            refine ⟨fun hprob hnil => ?_, hapart, fun found h => ?_, fun _ => hback⟩
            · rw [preemptedRoutes, if_pos hprob, hnil] at hfound
              cases hfound
            · rw [hfound] at h
              cases h
          · exact fun h => ⟨h.apart, h.back hfound⟩
      | some found =>
          rw [conserves_of_some hlisted hfound]
          constructor
          · rintro ⟨hne, hapart, hfit⟩
            refine ⟨fun _ => hne, hapart, fun found' h => ?_, fun h => ?_⟩
            · rw [hfound] at h
              cases h
              exact hfit
            · rw [hfound] at h
              cases h
          · intro h
            refine ⟨h.needed ?_, h.apart, h.fits found hfound⟩
            by_contra hno
            rw [preemptedRoutes, if_neg hno] at hfound
            cases hfound

end

/-! ## Two runs -/

/-- Confidences in percent. -/
instance : Confidence Nat where
  zero := 0
  either p q := p + q - p * q / 100
  less p q := p < q
  atMost p q := p ≤ q

/-- The configuration at program start. -/
def percentConfig : OptimizerConfig Nat where
  minProbability := 90
  minNodeConfidenceOpportunistic := 20
  minNodeConfidenceDeterministic := 90
  optMaxPreBundles := 9
  optMaxPreBundlesContact := 3
  positive := rfl

/-- A bundle of normal priority for the node `a`, and one of low priority for `b`. -/
def normalBundle : RoutedBundle := ⟨1, .normal, 1000, 3600, "dtn://a/x".toList, 1⟩

/-- A bundle that fills a contact of an hour. -/
def lowBundle : RoutedBundle := ⟨2, .low, 3600000, 3600, "dtn://b/x".toList, 0⟩

/-- The node `a` is reachable over the contact 0, and `b` over the contact 2. -/
def twoNodes (eid : CStr) : Option (List (Associated Nat)) :=
  if eid = "dtn://a".toList then some [⟨0, 100⟩]
  else if eid = "dtn://b".toList then some [⟨2, 100⟩]
  else none

/-- Contacts without bundles. -/
def freeContacts : Nat → Contact
  | 0 => emptyContact 3600 1000
  | 1 => emptyContact 7200 1000
  | 2 => emptyContact 7200 1000
  | _ => noContact

/-- The bundle of low priority at the contact 0, and the other one at the contact 1. -/
def crowded : Assignments where
  contacts := withBundle normalBundle (withBundle lowBundle freeContacts [0]) [1]
  routes := Function.update (Function.update (fun _ => []) 2 [0]) 1 [1]
  released := []

/-- The bundle of normal priority alone at the contact 0. -/
def alone : Assignments where
  contacts := withBundle normalBundle freeContacts [0]
  routes := Function.update (fun _ => []) 1 [0]
  released := []

theorem bundles_freeContacts (k : Nat) : (freeContacts k).contactBundles = [] := by
  unfold freeContacts
  split <;> rfl

theorem listed_freeContacts : Listed freeContacts fun _ => [] := by
  refine ⟨fun k => ?_, fun k id => ?_, fun j k x hx => ?_⟩
  · rw [bundles_freeContacts]
    exact List.nodup_nil
  · rw [bundles_freeContacts]
    exact iff_of_false List.not_mem_nil List.not_mem_nil
  · rw [bundles_freeContacts] at hx
    exact absurd hx List.not_mem_nil

theorem listed_crowded : Listed crowded.contacts crowded.routes :=
  (listed_freeContacts.add [0] (rfl : _ = [])).add [1] rfl

theorem listed_alone : Listed alone.contacts alone.routes :=
  listed_freeContacts.add [0] rfl

theorem crowded_nonneg : ∀ k, 0 ≤ (crowded.contacts k).remainingCapacityP0
  | 0 | 1 | 2 => by decide
  | k + 3 => by simp [crowded, withBundle, freeContacts, noContact]

theorem alone_nonneg : ∀ k, 0 ≤ (alone.contacts k).remainingCapacityP0
  | 0 | 1 | 2 => by decide
  | k + 3 => by simp [alone, withBundle, freeContacts, noContact]

/-- In the crowd, the bundle of low priority makes room for the other one, and gets a contact of its
own. -/
theorem conserves_iff_crowded :
    Conserves percentConfig (fun _ p => p) twoNodes 0 crowded normalBundle true := by
  refine (conserves_iff percentConfig (fun _ p => p) twoNodes 0 true crowded normalBundle
    listed_crowded crowded_nonneg ?_).2 fun _ => ?_
  · intro k x hx hid
    rcases mem_withBundle.1 hx with hx | ⟨-, hx⟩
    · rcases mem_withBundle.1 hx with hx | ⟨-, rfl⟩
      · rw [bundles_freeContacts] at hx
        exact absurd hx List.not_mem_nil
      · exact absurd hid (by decide)
    · exact hx
  have hd : newDecision percentConfig (fun _ p => p) twoNodes 0 crowded normalBundle =
      ⟨100, [0], [lowBundle], [⟨0, [lowBundle], true⟩]⟩ := rfl
  have hroutes : preemptedRoutes percentConfig (fun _ p => p) twoNodes 0 crowded normalBundle =
      some [⟨100, [2], 0⟩] := rfl
  refine ⟨fun _ => ?_, ?_, fun found hfound => ?_, fun hnone => ?_⟩
  · rw [hd]
    exact List.cons_ne_nil _ _
  · rw [hd]
    exact List.pairwise_singleton _ _
  · rw [hroutes] at hfound
    obtain rfl := Option.some.inj hfound
    have hmoves : plannedMoves percentConfig (fun _ p => p) twoNodes 0 crowded normalBundle
        [⟨100, [2], 0⟩] = [⟨lowBundle, [0], [2]⟩, ⟨normalBundle.optimized, [], [0]⟩] := rfl
    rw [hmoves]
    refine ⟨?_, fun k => ?_⟩
    · unfold MovesServed
      decide
    · match k with
      | 0 | 1 | 2 => decide
      | k + 3 =>
          have hfreed : freed (k + 3) [⟨lowBundle, [0], [2]⟩, ⟨normalBundle.optimized, [], [0]⟩] =
              0 := by simp [freed]
          have hclaimed :
              claimed (k + 3) [⟨lowBundle, [0], [2]⟩, ⟨normalBundle.optimized, [], [0]⟩] = 0 := by
            simp [claimed]
          rw [hfreed, hclaimed, capacityAfter_zero]
          exact Int32.le_refl 0
  · rw [hroutes] at hnone
    cases hnone

/-- A contact with capacity left is found again for the only bundle, and no bundle has to be
preempted: the assertion on the number of preempted bundles stops the run. -/
theorem no_preemption_stopped :
    Listed alone.contacts alone.routes ∧ (∀ k, 0 ≤ (alone.contacts k).remainingCapacityP0) ∧
      (∀ k, ∀ x ∈ (alone.contacts k).contactBundles, x.id = normalBundle.id → x = normalBundle) ∧
      alone.routes normalBundle.id ≠ [] ∧
      ¬Conserves percentConfig (fun _ p => p) twoNodes 0 alone normalBundle true := by
  refine ⟨listed_alone, alone_nonneg, fun k x hx _ => ?_, by decide, ?_⟩
  · rcases mem_withBundle.1 hx with hx | ⟨-, hx⟩
    · rw [bundles_freeContacts] at hx
      exact absurd hx List.not_mem_nil
    · exact hx
  · rintro ⟨o, ho, -⟩
    have hrun : tryOptimizeDecisionPreempt percentConfig (fun _ p => p) twoNodes 0 true alone
        normalBundle = .error (.other .assertFailed) := rfl
    rw [hrun] at ho
    cases ho

end ContactRouter
