import DisruptaBLE.Epidemic.Unlimited
import DisruptaBLE.Epidemic.VectorBuilders
import Mathlib.Data.List.Pairwise

/-!
# Direct delivery

An entry without pending transmissions is offered to its destination only, and
`bundle_should_be_offered` recognizes the destination by a search of the EID of
the contact in the destination of the bundle.

`direct_delivery_iff` says for which entries this is the node part of the
destination: those that are expired, and those in whose destination the EID
occurs as the node part or not at all.  `longer_name_served` is a node that gets
the bundles of another one, whose name continues its own.
-/

namespace EpidemicRouter

open PtrHeap

variable {P : RouterParams}

/-! ## Substrings -/

/-- The search finds exactly the substrings. -/
theorem strstr_iff {s sub : CStr} : strstr s sub = true ↔ sub <:+: s := by
  induction s with
  | nil =>
      rw [strstr, List.isEmpty_iff]
      exact List.infix_nil.symm
  | cons c s ih =>
      rw [strstr, Bool.or_eq_true, List.isPrefixOf_iff_prefix, ih]
      exact List.infix_cons_iff.symm

/-- The EID occurs in the destination as its node part or not at all. -/
def OccursAsNode (destination eid : CStr) : Prop :=
  eid <:+: destination → isDestinationNode destination eid = true

/-- An entry without pending transmissions is offered if it has not expired and the EID occurs
in its destination. -/
theorem bundleShouldBeOffered_direct {now : Nat} {eid : CStr} {e : BundleInfo}
    (hnum : e.numPendingTransmissions = 0) :
    bundleShouldBeOffered now eid e = true ↔ now ≤ e.expTime ∧ eid <:+: e.destination := by
  unfold bundleShouldBeOffered
  rw [← strstr_iff]
  by_cases hexp : e.expTime < now
  · rw [if_pos hexp]
    simp only [Bool.false_eq_true, false_iff, not_and]
    intro hle
    omega
  · rw [if_neg hexp, if_pos hnum]
    exact (and_iff_right (not_lt.mp hexp)).symm

/-! ## Offers -/

section Entries

variable {s : Router} {l : List Addr} {a : Addr} {e : BundleInfo}

/-- The summary vector entry of a list entry tells it from the others. -/
theorem ListInv.eq_of_svEntry (h : ListInv s l) {b : Addr} {f : BundleInfo} (ha : a ∈ l)
    (hb : b ∈ l) (he : s.infos.cells a = some e) (hf : s.infos.cells b = some f)
    (hsv : f.svEntry = e.svEntry) : f = e := by
  by_cases hab : a = b
  · subst hab
    exact Option.some.inj (hf.symm.trans he)
  · let Differ (x y : Addr) : Prop := ∀ g g', s.infos.cells x = some g →
      s.infos.cells y = some g' → g.svEntry ≠ g'.svEntry
    have hsymm : Std.Symm Differ :=
      ⟨fun x y hxy g g' hg hg' heq => hxy g' g hg' hg heq.symm⟩
    have hdiffer : Differ a b := List.Pairwise.forall h.distinct ha hb hab
    exact absurd hsv.symm (hdiffer e f he hf)

/-- The walk collects exactly the entries with the property. -/
theorem ListInv.mem_entriesOf (h : ListInv s l) (ha : a ∈ l) (he : s.infos.cells a = some e)
    (p : BundleInfo → Bool) : e.svEntry ∈ entriesOf s p ↔ p e = true := by
  rw [entriesOf_eq h.chain, List.mem_map]
  constructor
  · rintro ⟨f, hf, hsv⟩
    obtain ⟨hf, hprop⟩ := List.mem_filter.mp hf
    obtain ⟨b, hb, hcell⟩ := List.mem_filterMap.mp hf
    rwa [h.eq_of_svEntry ha hb he hcell hsv] at hprop
  · intro hprop
    exact ⟨e, List.mem_filter.mpr ⟨List.mem_filterMap.mpr ⟨a, ha, he⟩, hprop⟩, rfl⟩

/-- An entry that is scheduled should be offered. -/
theorem SendResult.offered {env : Env} {c : Addr} {rc : RouterContact} {s' : Router}
    {out : List Output} (h : SendResult s env l c rc s' out) (he : s.infos.cells a = some e)
    {rb : RoutedBundle} (hmem : .scheduled (some a) rb ∈ out) :
    bundleShouldBeOffered env.now (env.eid rc.contact) e = true := by
  cases h with
  | idle _ => exact absurd hmem List.not_mem_nil
  | moved _ _ => exact absurd hmem List.not_mem_nil
  | sent _ _ _ he' _ _ _ hoffered =>
      cases List.mem_singleton.mp hmem
      cases he.symm.trans he'
      exact hoffered

end Entries

/-! ## The claim about reachable states -/

/-- **Direct delivery.**  In every reachable state, for every list entry without pending
transmissions and every contact: an offer that can be built has the entries that `create_offer_sv`
picks from the list, and the send goes through.  The entry is picked or scheduled only if the
contact is the node of its destination, if and only if the entry has expired or the EID of the
contact occurs in its destination as the node part or not at all. -/
theorem direct_delivery_iff {s : Router} (hreach : RouterReachable P s) {a : Addr}
    {e : BundleInfo} (ha : Listed s a) (he : s.infos.cells a = some e)
    (hnum : e.numPendingTransmissions = 0) (env : Env) {c : Addr} {rc : RouterContact}
    (hc : c ∈ s.routerContacts) (hrc : s.contacts.cells c = some rc) :
    (∀ malloc offer, createOfferSv malloc s env.now (env.eid rc.contact) = .ok (some offer) →
      offer.entries = entriesOf s (bundleShouldBeOffered env.now (env.eid rc.contact))) ∧
    ∃ s' out, sendBundlesToContact s env c = .ok (s', out) ∧
      (((e.svEntry ∈ entriesOf s (bundleShouldBeOffered env.now (env.eid rc.contact)) ∨
          ∃ rb, .scheduled (some a) rb ∈ out) →
        isDestinationNode e.destination (env.eid rc.contact) = true) ↔
      (e.expTime < env.now ∨ OccursAsNode e.destination (env.eid rc.contact))) := by
  obtain ⟨l, key, hinv⟩ := reachable_inv hreach
  have hmem := hinv.list.mem_entriesOf (hinv.mem_of_listed ha) he
    (bundleShouldBeOffered env.now (env.eid rc.contact))
  have hoffered := @bundleShouldBeOffered_direct env.now (env.eid rc.contact) e hnum
  obtain ⟨rc', hrc', -, hnext⟩ := hinv.cursors c hc
  cases hrc.symm.trans hrc'
  obtain ⟨s', out, hsend, hres⟩ := sendBundlesToContact_spec env hinv.list hrc hnext
  refine ⟨fun malloc offer => createOfferSv_entries hinv.list.chain, s', out, hsend, ?_⟩
  constructor
  · intro hnode
    by_cases hexp : e.expTime < env.now
    · exact Or.inl hexp
    · right
      intro hinfix
      exact hnode (Or.inl (hmem.mpr (hoffered.mpr ⟨not_lt.mp hexp, hinfix⟩)))
  · intro hcond hserved
    have hshould : bundleShouldBeOffered env.now (env.eid rc.contact) e = true := by
      rcases hserved with hin | ⟨rb, hrb⟩
      · exact hmem.mp hin
      · exact hres.offered he hrb
    obtain ⟨hle, hinfix⟩ := hoffered.mp hshould
    rcases hcond with hexp | hnode
    · exact absurd hexp (not_lt.mpr hle)
    · exact hnode hinfix

/-! ## Two destinations -/

/-- The router with the contact `dtn://a` and a bundle for direct delivery. -/
def directAdmitted (destination : CStr) : Router :=
  afterOp (afterOp (routerInit demoParams) (.contactEvent 0 true (some 0)))
    (.routeBundle ⟨7, "dtn://me/x".toList, destination, 42, .normal, 100, 50⟩ (some 0) true)

theorem reachable_directAdmitted (destination : CStr)
    (h : GoesThrough (afterOp (routerInit demoParams) (.contactEvent 0 true (some 0)))
      (.routeBundle ⟨7, "dtn://me/x".toList, destination, 42, .normal, 100, 50⟩ (some 0) true)) :
    RouterReachable demoParams (directAdmitted destination) :=
  reachable_admitted h

/-- A bundle for the node itself. -/
theorem own_bundle_offered : ∃ s' out,
    sendBundlesToContact (directAdmitted "dtn://a/x".toList) demoEnv 0 = .ok (s', out) ∧
    ((42 ∈ entriesOf (directAdmitted "dtn://a/x".toList)
        (bundleShouldBeOffered 5 "dtn://a".toList) ∨ ∃ rb, .scheduled (some 0) rb ∈ out) →
      isDestinationNode "dtn://a/x".toList "dtn://a".toList = true) := by
  have hreach := reachable_directAdmitted "dtn://a/x".toList (Eq.refl true)
  have hlisted : Listed (directAdmitted "dtn://a/x".toList) 0 :=
    listed_epidemic rfl ⟨_, rfl, rfl⟩
  obtain ⟨-, s', out, hsend, hiff⟩ :=
    direct_delivery_iff hreach hlisted rfl rfl demoEnv List.mem_cons_self rfl
  exact ⟨s', out, hsend, hiff.mpr (Or.inr fun _ => by decide)⟩

/-- A bundle for `dtn://ab` is offered to `dtn://a`. -/
theorem longer_name_served : ¬ ∀ (malloc : Nat → Bool) (s : Router) (a c : Addr)
    (e : BundleInfo) (rc : RouterContact) (offer : SummaryVector),
    RouterReachable demoParams s → Listed s a → s.infos.cells a = some e →
    e.numPendingTransmissions = 0 → c ∈ s.routerContacts → s.contacts.cells c = some rc →
    createOfferSv malloc s demoEnv.now (demoEnv.eid rc.contact) = .ok (some offer) →
    e.svEntry ∈ offer.entries →
    isDestinationNode e.destination (demoEnv.eid rc.contact) = true := by
  intro hall
  have hreach := reachable_directAdmitted "dtn://ab/x".toList (Eq.refl true)
  have hlisted : Listed (directAdmitted "dtn://ab/x".toList) 0 :=
    listed_epidemic rfl ⟨_, rfl, rfl⟩
  have hnode := hall (fun _ => true) _ 0 0 _ _ ⟨[42], 8, by decide⟩ hreach hlisted rfl rfl
    List.mem_cons_self rfl rfl List.mem_cons_self
  exact absurd hnode (by decide)

end EpidemicRouter
