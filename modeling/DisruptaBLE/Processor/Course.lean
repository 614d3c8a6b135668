import DisruptaBLE.Processor.Reassembly

/-!
# The course of a bundle

What `bundle_dispatch` decides about a bundle, as a function of the state before, and
its specification.

The decisions are made between other actions: a status report may be sent first, and
the bundle is recorded as known.  None of this changes what they depend on, so the
whole course of a bundle is settled when its dispatch begins.  `dispatchCourse` names
it; `DispatchHarmless` says which courses a careful state can take, and `Dispatched`
where the bundle then is.
-/

namespace BundleProcessor

open PtrHeap BundleStorage Outcome

/-! ## Decisions -/

/-- What `bundle_dispatch` does with a bundle. -/
inductive Course where
  /-- The bundle is known already, and is discarded. -/
  | duplicate
  /-- There is no agent id in the destination, and the bundle is deleted. -/
  | undeliverable
  /-- The bundle is a fragment, and waits for the other ones. -/
  | fragment
  /-- The ADU of the bundle is delivered, and the bundle is discarded. -/
  | delivered
  /-- The bundle must not be forwarded any more. -/
  | hopLimitExceeded
  /-- The bundle is sent to the router. -/
  | forwarded
  deriving DecidableEq, Repr

/-- The course of a bundle with a local destination. -/
def deliveryCourse (P : Params) (env : Env) (known : List KnownEntry) (b : Bundle) : Course :=
  if alreadyKnown env known b then .duplicate
  else if !hasFlag b.procFlags flagAdministrativeRecord &&
      (getAgentId P.localEid b.destination).isNone then .undeliverable
  else if b.isFragmented then .fragment
  else .delivered

/-- The course of a bundle from `bundle_dispatch` on. -/
def dispatchCourse (P : Params) (env : Env) (known : List KnownEntry) (b : Bundle) : Course :=
  if bundleEndpointIsLocal P b then deliveryCourse P env known b
  else if hopLimitExceeded P b then .hopLimitExceeded
  else .forwarded

/-- A bundle without the constraint that its dispatch is pending. -/
def Bundle.undispatched (b : Bundle) : Bundle :=
  { b with ret := { b.ret with dispatchPending := false } }

/-- The courses that a careful state can take. -/
def DispatchHarmless (P : Params) (env : Env) (s : Processor) (a : Addr) (b : Bundle) : Prop :=
  match dispatchCourse P env s.known b with
  | .duplicate => b.undispatched.ret = .none
  | .undeliverable => Deletable s a b.undispatched
  | .fragment => b.undispatched.ret = .none ∧ parentKnown env s.known b = false ∧
      FragmentsHarmless s (a :: s.reassembly.flatten)
  | .delivered => b.undispatched.ret = .none ∧ AduHarmless P s (bundleToAdu b).1
  | .hopLimitExceeded => False
  | .forwarded => True

/-- `bundle_deliver_local` up to the search for the slot of a fragment. -/
def beforeSearch (P : Params) (env : Env) (s : Processor) (a : Addr) :
    Except Fault Processor := do
  let s ← s.update a fun b => { b with ret := { b.ret with dispatchPending := false } }
  let b ← s.bundle a
  let (_, s) := bundleRecordAddAndCheckKnown env s b
  let s ← s.when (hasFlag b.procFlags flagReportDelivery) fun s =>
    sendStatusReport P env s a .delivered .noInfo
  s.update a fun b => { b with ret := { b.ret with reassemblyPending := true } }

/-- The memory that the delivery of a fragment needs. -/
def DeliveryRoomy (P : Params) (env : Env) (s : Processor) (a : Addr) : Prop :=
  ∀ s₁, beforeSearch P env s a = .ok s₁ → SlotRoomy env s₁ a

/-- The courses that may end with a delivery. -/
def Audible (P : Params) (env : Env) (known : List KnownEntry) (b : Bundle) : Prop :=
  dispatchCourse P env known b = .delivered ∨
    (dispatchCourse P env known b = .fragment ∧ originalHeld env known b = false)

/-- Nothing is delivered, unless the course of the bundle says so. -/
def Unheard (P : Params) (env : Env) (s : Processor) (b : Bundle) (s' : Processor) : Prop :=
  Audible P env s.known b ∨ s'.delivered = s.delivered

/-- The bundle was sent to the router. -/
def Sent (s s' : Processor) (id : UInt16) : Prop :=
  ∃ sent, s'.outQueue = s.outQueue ++ sent ∧ id ∈ sent

/-- Where a bundle is after its dispatch: nowhere, in the queue of the router, or in the
reassembly list. -/
def Dispatched (s : Processor) (a : Addr) (b : Bundle) (s' : Processor) : Prop :=
  s'.bundles.cells a = none ∨
  (Sent s s' b.id ∧ ∃ b', s'.bundles.cells a = some b' ∧ b'.id = b.id ∧
    b'.ret = b.forwarded.ret) ∨
  (a ∈ s'.reassembly.flatten ∧ ∃ b', s'.bundles.cells a = some b' ∧ b'.id = b.id ∧
    b'.ret = { b.undispatched.ret with reassemblyPending := true })

section Specs

variable {careful exact room : Prop} {P : Params} {env : Env} {s s₁ s' : Processor}
  {m m' : UInt16 → Option Addr} {frags : List Addr} {a : Addr} {b : Bundle}

theorem Sent.of_grew {m₁ : UInt16 → Option Addr} {id : UInt16} (hg : Grew s m s₁ m₁)
    (h : Sent s₁ s' id) : Sent s s' id := by
  obtain ⟨sent₁, hout₁, _⟩ := hg
  obtain ⟨sent, hout, hmem⟩ := h
  exact ⟨sent₁ ++ sent, by rw [hout, hout₁, List.append_assoc], List.mem_append_right _ hmem⟩

theorem Dispatched.of_grew {m₁ : UInt16 → Option Addr} (hg : Grew s m s₁ m₁)
    (h : Dispatched s₁ a b s') : Dispatched s a b s' :=
  h.imp_right fun h => h.imp_left fun ⟨hsent, hcell⟩ => ⟨hsent.of_grew hg, hcell⟩

/-! ## Known bundles -/

theorem alreadyKnown_undispatched (env : Env) (known : List KnownEntry) (b : Bundle) :
    alreadyKnown env known b.undispatched = alreadyKnown env known b := by
  unfold alreadyKnown Bundle.undispatched
  rw [addIfNotExists_ret]
  rfl

theorem reassembledIsKnown_of_subset (env : Env) (known : List KnownEntry)
    (hsub : ∀ e ∈ s₁.known, e ∈ createEntry env.now b false ::
      knownBundleListRemoveBefore known env.now)
    (hpar : parentKnown env known b = false) : bundleReassembledIsKnown s₁ b = false := by
  have hall := List.any_eq_false.mp hpar
  exact List.any_eq_false.mpr fun e he => hall e (hsub e he)

/-! ## Conditions that later states inherit -/

theorem SoundParts.not_accepted (hs : Sound careful exact s m frags)
    (hb : s.bundles.cells a = some b) (hcust : b.ret.custodyAccepted = false) (hc : careful) :
    a ∉ s.accepted := by
  intro hmem
  have hret := (hs.accepted hc).ret hmem hb
  rw [hcust] at hret
  cases hret

theorem SoundParts.not_frag (hs : Sound careful exact s m frags)
    (hb : s.bundles.cells a = some b) (hreas : b.ret.reassemblyPending = false)
    (hc : careful) : a ∉ frags := by
  intro hmem
  have hret : b.ret = .reassemblyOnly := (hs.frags hc).ret hmem hb
  rw [hret] at hreas
  cases hreas

/-- From `s` to `s₁` records were sent, and the bundle at `a` became `b`. -/
structure Led (s : Processor) (m : UInt16 → Option Addr) (a : Addr) (b : Bundle)
    (s₁ : Processor) (m₁ : UInt16 → Option Addr) : Prop where
  cell : s₁.bundles.cells a = some b
  others : ∀ x, x < s.bundles.bound → x ≠ a → s₁.bundles.cells x = s.bundles.cells x
  bound : s.bundles.bound ≤ s₁.bundles.bound
  accepted : s₁.accepted = s.accepted
  reassembly : s₁.reassembly = s.reassembly
  grew : Grew s m s₁ m₁
  known : KeepsKnown s s₁ (a :: s.reassembly.flatten)
  delivered : s₁.delivered = s.delivered
  akin : ∃ c, s.bundles.cells a = some c ∧ b.bare = c.bare

section Led

variable {m₁ m₂ : UInt16 → Option Addr} {s₂ : Processor} {b₁ : Bundle}

theorem Led.refl (hb : s.bundles.cells a = some b) : Led s m a b s m :=
  ⟨hb, fun _ _ _ => rfl, Nat.le_refl _, rfl, rfl, .refl, keepsKnown_of_eq rfl, rfl,
    b, hb, rfl⟩

theorem Led.put (h : Led s m a b s₁ m₁) (b₁ : Bundle) (hbare : b₁.bare = b.bare) :
    Led s m a b₁ (s₁.put a b₁) m₁ where
  cell := put_self _ _ _
  others x hx hxa := (put_ne _ hxa _).trans (h.others x hx hxa)
  bound := h.bound.trans (bound_le_bound_put _ _ _)
  accepted := h.accepted
  reassembly := h.reassembly
  grew := h.grew
  known D hpunct hk := h.known D hpunct hk
  delivered := h.delivered
  akin := by
    obtain ⟨c, hc, hcb⟩ := h.akin
    exact ⟨c, hc, hbare.trans hcb⟩

theorem Led.traffic (h : Led s m a b s₁ m₁) (ht : Traffic s₁ m₁ s₂ m₂) :
    Led s m a b s₂ m₂ where
  cell := ht.cell h.cell
  others x hx hxa :=
    (ht.cells x (Nat.lt_of_lt_of_le hx h.bound)).trans (h.others x hx hxa)
  bound := h.bound.trans ht.bound
  accepted := ht.lists.accepted.trans h.accepted
  reassembly := ht.lists.reassembly.trans h.reassembly
  grew := h.grew.trans ht.grew
  known D hpunct hk := by
    rw [ht.lists.known]
    exact h.known D hpunct hk
  delivered := ht.lists.delivered.trans h.delivered
  akin := h.akin

theorem Led.evolves (h : Led s m a b s₁ m₁) : Evolves s s₁ where
  cells x hx c' hc' := by
    by_cases hxa : x = a
    · subst hxa
      rw [h.cell] at hc'
      obtain rfl := Option.some.inj hc'
      exact h.akin
    · exact ⟨c', by rw [← h.others x hx hxa]; exact hc', rfl⟩
  bound := h.bound

/-- The handling of a bundle that was led to its present state. -/
theorem Led.handled (h : Led s m a b s₁ m₁) (hs : Sound careful exact s m s.reassembly.flatten)
    (hh : Handled careful exact room a s₁ m₁ s' m') : Handled careful exact room a s m s' m' where
  sound := hh.sound
  grew := h.grew.trans hh.grew
  evolves := h.evolves.trans hh.evolves
  slots := by
    rw [← h.reassembly]
    exact hh.slots
  left := by
    rw [← h.reassembly]
    exact hh.left
  sorted hsorted := by
    apply hh.sorted
    rw [h.reassembly]
    intro l hl
    exact (hsorted l hl).evolve fun x hx =>
      h.evolves.cells x (hs.below x (List.mem_flatten.mpr ⟨l, hl, hx⟩))
  orderly hc hroom hord := by
    apply hh.orderly hc hroom
    rw [h.reassembly]
    exact hord.evolve fun x hx => h.evolves.cells x (hs.below x hx)
  known D hpunct hk := by
    apply hh.known D
    · intro x hx c hc
      rw [h.reassembly] at hx
      have hlt : x < s.bundles.bound := by
        rcases List.mem_cons.mp hx with rfl | hx
        · obtain ⟨c₀, hc₀, _⟩ := h.akin
          exact Heap.lt_bound_of_cell hc₀
        · exact hs.below x hx
      obtain ⟨c₀, hc₀, hbare⟩ := h.evolves.cells x hlt c hc
      exact (hpunct x hx c₀ hc₀).of_bare hbare
    · exact h.known D hpunct hk

/-- The bundle was only led. -/
theorem Led.done (h : Led s m a b s₁ m₁) (hs : Sound careful exact s m s.reassembly.flatten)
    (hs₁ : Sound careful exact s₁ m₁ s₁.reassembly.flatten) :
    Handled careful exact room a s m s₁ m₁ :=
  .of_same_slots hs (by rw [← h.reassembly]; exact hs₁) h.grew h.evolves h.reassembly h.known

theorem Led.deletable (h : Led s m a b s₁ m₁) (hdel : Deletable s a b₁) :
    Deletable s₁ a b₁ := by
  unfold Deletable
  rw [h.accepted]
  exact hdel

/-- Bundles in custody are as before. -/
theorem Led.accepted_cells (h : Led s m a b s₁ m₁) (hs : Sound careful exact s m frags)
    (hc : careful) (ha : a ∉ s.accepted) (x : Addr) (hx : x ∈ s.accepted) :
    s₁.bundles.cells x = s.bundles.cells x := by
  obtain ⟨c, hcell, _⟩ := (hs.accepted hc).live x hx
  apply h.others x (Heap.lt_bound_of_cell hcell)
  rintro rfl
  exact ha hx

theorem Led.aduHarmless (h : Led s m a b s₁ m₁) (hs : Sound careful exact s m frags)
    (hc : careful) (ha : a ∉ s.accepted) {adu : Adu} (hadu : AduHarmless P s adu) :
    AduHarmless P s₁ adu :=
  fun hadmin record hparse hcust =>
    (hadu hadmin record hparse hcust).congr h.accepted (h.accepted_cells hs hc ha)

theorem Led.fragmentsHarmless (h : Led s m a b s₁ m₁)
    (hs : Sound careful exact s m s.reassembly.flatten) (hc : careful)
    (hb : s.bundles.cells a = some b₁) (hflags : b.procFlags = b₁.procFlags)
    (hfrag : FragmentsHarmless s (a :: s.reassembly.flatten)) :
    FragmentsHarmless s₁ (a :: s₁.reassembly.flatten) := by
  rw [h.reassembly]
  rcases hfrag with hlen | hno
  · exact Or.inl (by rw [h.accepted]; exact hlen)
  refine Or.inr fun x hx c hcell => ?_
  by_cases hxa : x = a
  · subst hxa
    rw [h.cell] at hcell
    obtain rfl := Option.some.inj hcell
    rw [hflags]
    exact hno x hx b₁ hb
  · have hmem : x ∈ s.reassembly.flatten := (List.mem_cons.mp hx).resolve_left hxa
    obtain ⟨d, hd, _⟩ := (hs.frags hc).live x hmem
    rw [h.others x (Heap.lt_bound_of_cell hd) hxa] at hcell
    exact hno x hx c hcell

end Led

/-! ## Dispatch -/

/-- A status report under a condition. -/
theorem reportWhen_spec (hs : Sound careful exact s m s.reassembly.flatten)
    (hb : s.bundles.cells a = some b) (c : Bool) (status : ReportStatus)
    (reason : ReportReason) :
    Ends (Tolerated careful) (s.when c fun s => sendStatusReport P env s a status reason)
      fun s' => ∃ m', Sound careful exact s' m' s'.reassembly.flatten ∧ Traffic s m s' m' := by
  apply ends_when
  · intro _
    apply (sendStatusReport_spec hs hb status reason).mono
    intro s' ⟨m', hs', htraf⟩
    refine ⟨m', ?_, htraf⟩
    rw [htraf.lists.reassembly]
    exact hs'
  · intro _
    exact ⟨m, hs, .refl⟩

/-- Discarding a bundle without constraints: no list refers to it. -/
theorem bundleDiscard_clean (hs : Sound careful exact s m s.reassembly.flatten)
    (hb : s.bundles.cells a = some b) (hret : careful → b.ret = .none) :
    Ends (Tolerated careful) (bundleDiscard s a) fun s' => ∃ m',
      Handled careful exact True a s m s' m' ∧ Discarded s m a s' m' := by
  have hacc : careful → a ∉ s.accepted := fun hc =>
    hs.not_accepted hb (by rw [hret hc]; rfl) hc
  have hfr : careful → a ∉ s.reassembly.flatten := fun hc =>
    hs.not_frag hb (by rw [hret hc]; rfl) hc
  apply (bundleDiscard_spec hs hb hret hacc hfr).mono
  intro s' ⟨hs', hdisc⟩
  exact ⟨_, .of_same_slots hs hs' hdisc.fades.grew hdisc.fades.evolves hdisc.lists.reassembly
    (keepsKnown_of_eq hdisc.lists.known), hdisc⟩

/-- `bundle_delete` of a bundle that was led to its present state. -/
theorem deleteLed_spec {b₁ : Bundle} {m₁ : UInt16 → Option Addr}
    (hs : Sound careful exact s m s.reassembly.flatten)
    (hs₁ : Sound careful exact s₁ m₁ s₁.reassembly.flatten)
    (hled : Led s m a b₁ s₁ m₁) (hfr : careful → a ∉ s.reassembly.flatten)
    (hdel : careful → Deletable s a b₁) (reason : ReportReason) :
    Ends (Tolerated careful) (bundleDelete P env s₁ a reason) fun s' => ∃ m',
      Handled careful exact True a s m s' m' ∧ s'.bundles.cells a = none ∧
      s'.delivered = s.delivered := by
  have hfr₁ : careful → a ∉ s₁.reassembly.flatten := by
    rw [hled.reassembly]
    exact hfr
  apply (bundleDelete_spec hs₁ hled.cell hfr₁ (fun hc => hled.deletable (hdel hc)) reason).mono
  intro s' ⟨m', hs', hdeleted⟩
  have hhandled : Handled careful exact True a s₁ m₁ s' m' :=
    .of_same_slots hs₁ hs' hdeleted.grew hdeleted.evolves hdeleted.reassembly
      (keepsKnown_of_eq hdeleted.known)
  exact ⟨m', hled.handled hs hhandled, hdeleted.self, hdeleted.delivered.trans hled.delivered⟩

/-- The end of `bundle_deliver_local` for a bundle that is not a fragment. -/
theorem deliver_spec (hs : Sound careful exact s m s.reassembly.flatten)
    (hb : s.bundles.cells a = some b) (hret : careful → b.ret = .none)
    (hlen : exact → b.payloadLength = 0) (hadu : careful → AduHarmless P s (bundleToAdu b).1) :
    Ends (Tolerated careful)
      (do
        let s ← s.update a fun b => (bundleToAdu b).2
        let s ← bundleDiscard s a
        bundleDeliverAdu P s (bundleToAdu b).1)
      fun s' => ∃ m', Handled careful exact True a s m s' m' ∧ s'.bundles.cells a = none := by
  apply ends_of_eq (update_of_cell hb _)
  have hacc : careful → a ∉ s.accepted := fun hc =>
    hs.not_accepted hb (by rw [hret hc]; rfl) hc
  have hfr : careful → a ∉ s.reassembly.flatten := fun hc =>
    hs.not_frag hb (by rw [hret hc]; rfl) hc
  -- the payload has left the bundle, and the byte counter does not know
  have hs₁ : Sound careful exact (s.put a (bundleToAdu b).2) m s.reassembly.flatten := by
    apply hs.set hb
    · rfl
    · intro he
      rw [hlen he]
      rfl
    · intro hc h
      exact absurd h (hacc hc)
    · intro hc h
      exact absurd h (hfr hc)
  have hled := (Led.refl (m := m) hb).put (bundleToAdu b).2 rfl
  apply (bundleDiscard_clean hs₁ hled.cell hret).bind
  intro s₂ ⟨m₂, hh₂, hdisc⟩
  have hadu₂ : careful → AduHarmless P s₂ (bundleToAdu b).1 := by
    intro hc hadmin record hparse hcust
    apply (hadu hc hadmin record hparse hcust).congr hdisc.lists.accepted
    intro x hx
    apply hdisc.of_put.others
    rintro rfl
    exact hacc hc hx
  apply (bundleDeliverAdu_spec hh₂.sound hadu₂).mono
  intro s' ⟨m', hs', hfades, hreas, hknown⟩
  have hh : Handled careful exact True a (s.put a (bundleToAdu b).2) m s' m' := by
    refine .of_same_slots hs₁ ?_ (hh₂.grew.trans hfades.grew)
      (hh₂.evolves.trans hfades.evolves) (hreas.trans hdisc.lists.reassembly)
      (keepsKnown_of_eq (hknown.trans hdisc.lists.known))
    rw [hdisc.lists.reassembly] at hs'
    exact hs'
  exact ⟨m', hled.handled hs hh, hfades.gone hdisc.self⟩

/-- The end of `bundle_deliver_local` for a fragment. -/
theorem awaitFragments_spec (hs : Sound careful exact s m s.reassembly.flatten)
    (hb : s.bundles.cells a = some b) (hret : careful → b.ret = .none)
    (hknown : careful → bundleReassembledIsKnown s b = false)
    (hfrag : careful → FragmentsHarmless s (a :: s.reassembly.flatten)) :
    Ends (Tolerated careful)
      (do
        let s ← s.update a fun b => { b with ret := { b.ret with reassemblyPending := true } }
        bundleAttemptReassembly P env s a)
      fun s' => ∃ m', Handled careful exact
        (SlotRoomy env (s.put a { b with ret := { b.ret with reassemblyPending := true } }) a)
        a s m s' m' ∧
        FragmentKept s' a { b with ret := { b.ret with reassemblyPending := true } } ∧
        bundleReassembledIsKnown s b = false := by
  have hacc : careful → a ∉ s.accepted := fun hc =>
    hs.not_accepted hb (by rw [hret hc]; rfl) hc
  have hfr : careful → a ∉ s.reassembly.flatten := fun hc =>
    hs.not_frag hb (by rw [hret hc]; rfl) hc
  apply ends_of_eq (update_of_cell hb _)
  have hs₁ := hs.set_ret hb { b.ret with reassemblyPending := true }
    (fun hc h => absurd h (hacc hc)) (fun hc h => absurd h (hfr hc))
  have hret₁ : careful → { b.ret with reassemblyPending := true } = .reassemblyOnly := by
    intro hc
    rw [hret hc]
    rfl
  have hled := (Led.refl (m := m) hb).put
    { b with ret := { b.ret with reassemblyPending := true } } rfl
  have hfrag₁ : careful → FragmentsHarmless
      (s.put a { b with ret := { b.ret with reassemblyPending := true } })
      (a :: s.reassembly.flatten) := by
    intro hc
    exact hled.fragmentsHarmless hs hc hb rfl (hfrag hc)
  apply (bundleAttemptReassembly_spec hs₁ hled.cell hret₁ hfr hfrag₁ hknown).mono
  intro s' ⟨m', hh, hkept, hnone⟩
  exact ⟨m', hled.handled hs hh, hkept, hnone⟩

/-- `bundle_deliver_local` after the bundle was found to be unknown. -/
theorem deliverUnknown_spec {m₁ : UInt16 → Option Addr}
    (hs : Sound careful exact s m s.reassembly.flatten) (hb : s.bundles.cells a = some b)
    (hfr : careful → a ∉ s.reassembly.flatten) (hlocal : bundleEndpointIsLocal P b = true)
    (hnew : alreadyKnown env s.known b = false)
    (hsafe : careful → DispatchHarmless P env s a b)
    (hlen : exact → dispatchCourse P env s.known b = .delivered → b.payloadLength = 0)
    (hs₁ : Sound careful exact s₁ m₁ s₁.reassembly.flatten) (hled : Led s m a b.undispatched s₁ m₁)
    (hparent : careful → parentKnown env s.known b = false →
      bundleReassembledIsKnown s₁ b.undispatched = false)
    (horiginal : originalHeld env s.known b = true →
      bundleReassembledIsKnown s₁ b.undispatched = true) :
    Ends (Tolerated careful)
      (if !hasFlag b.procFlags flagAdministrativeRecord &&
          (getAgentId P.localEid b.destination).isNone then
        bundleDelete P env s₁ a .destEidUnintelligible
      else if b.isFragmented then do
        let s ← s₁.update a fun b => { b with ret := { b.ret with reassemblyPending := true } }
        bundleAttemptReassembly P env s a
      else do
        let s ← s₁.update a fun b => (bundleToAdu b).2
        let s ← bundleDiscard s a
        bundleDeliverAdu P s (bundleToAdu b.undispatched).1)
      fun s' => ∃ m', Handled careful exact (dispatchCourse P env s.known b = .fragment →
          SlotRoomy env (s₁.put a { b.undispatched with
            ret := { b.undispatched.ret with reassemblyPending := true } }) a) a s m s' m' ∧
        Dispatched s a b s' ∧ Unheard P env s b s' := by
  unfold DispatchHarmless at hsafe
  unfold Unheard Audible
  unfold dispatchCourse deliveryCourse at hsafe hlen ⊢
  simp only [hlocal, if_true, hnew, Bool.false_eq_true, if_false] at hsafe hlen ⊢
  split
  · next hagent =>
    simp only [hagent, if_true] at hsafe
    apply (deleteLed_spec hs hs₁ hled hfr hsafe _).mono
    intro s' ⟨m', hh, hgone, hdeliv⟩
    exact ⟨m', hh.any, Or.inl hgone, Or.inr hdeliv⟩
  · next hagent =>
    rw [if_neg hagent] at hsafe hlen
    split
    · next hfrag =>
      simp only [hfrag, if_true] at hsafe
      have hfrag₁ : careful → FragmentsHarmless s₁ (a :: s₁.reassembly.flatten) := fun hc =>
        hled.fragmentsHarmless hs hc hb rfl (hsafe hc).2.2
      apply (awaitFragments_spec hs₁ hled.cell (fun hc => (hsafe hc).1)
        (fun hc => hparent hc (hsafe hc).2.1) hfrag₁).mono
      intro s' ⟨m', hh, hkept, hnone⟩
      have hheld : originalHeld env s.known b = false := by
        cases hheld : originalHeld env s.known b with
        | false => rfl
        | true => exact (horiginal hheld).symm.trans hnone
      refine ⟨m', hled.handled hs (hh.mono fun h => h rfl), ?_, Or.inl (Or.inr ⟨rfl, hheld⟩)⟩
      rcases hkept with hgone | ⟨hcell, hmem⟩
      · exact Or.inl hgone
      · exact Or.inr (Or.inr ⟨hmem, _, hcell, rfl, rfl⟩)
    · next hfrag =>
      simp only [hfrag, Bool.false_eq_true, if_false] at hsafe hlen
      have hadu₁ : careful → AduHarmless P s₁ (bundleToAdu b.undispatched).1 := by
        intro hc
        have hcust : b.ret.custodyAccepted = false :=
          congrArg RetConstraints.custodyAccepted (hsafe hc).1
        exact hled.aduHarmless hs hc (hs.not_accepted hb hcust hc) (hsafe hc).2
      apply (deliver_spec hs₁ hled.cell (fun hc => (hsafe hc).1) (fun he => hlen he trivial)
        hadu₁).mono
      intro s' ⟨m', hh, hgone⟩
      exact ⟨m', hled.handled hs hh.any, Or.inl hgone, Or.inl (Or.inl rfl)⟩

/-- A bundle is recorded as known: entries stay, and at most its own is added. -/
theorem recordKnown_led (env : Env) (hb : s.bundles.cells a = some b) :
    ∃ known n, bundleRecordAddAndCheckKnown env (s.put a b.undispatched) b.undispatched =
        (alreadyKnown env s.known b,
          { s.put a b.undispatched with known := known, requests := n }) ∧
      Led s m a b.undispatched { s.put a b.undispatched with known := known, requests := n } m ∧
      (∀ e ∈ known, e ∈ createEntry env.now b.undispatched false ::
        knownBundleListRemoveBefore s.known env.now) ∧
      knownBundleListRemoveBefore s.known env.now ⊆ known := by
  have hled₀ := (Led.refl (m := m) hb).put b.undispatched rfl
  obtain ⟨mem, n, hrec⟩ :=
    bundleRecordAddAndCheckKnown_spec env (s.put a b.undispatched) b.undispatched
  rw [show (s.put a b.undispatched).known = s.known from rfl, alreadyKnown_undispatched] at hrec
  refine ⟨_, n, hrec, ?_, ?_, ?_⟩
  · refine ⟨hled₀.cell, hled₀.others, hled₀.bound, rfl, rfl, hled₀.grew, ?_, rfl, hled₀.akin⟩
    intro D hpunct hk
    have hb' : Punctual D b.undispatched :=
      (hpunct a List.mem_cons_self b hb).of_bare rfl
    dsimp only
    split
    · exact hk.removeBefore _
    · exact (hk.removeBefore _).add hb' _ _ _
  · intro e he
    split at he
    · exact List.mem_cons_of_mem _ he
    · exact mem_addIfNotExists he
  · split
    · exact List.Subset.refl _
    · exact subset_addIfNotExists _ _ _ _ _

/-- **`bundle_deliver_local`**. -/
theorem bundleDeliverLocal_spec (hs : Sound careful exact s m s.reassembly.flatten)
    (hb : s.bundles.cells a = some b) (hfr : careful → a ∉ s.reassembly.flatten)
    (hlocal : bundleEndpointIsLocal P b = true)
    (hsafe : careful → DispatchHarmless P env s a b)
    (hlen : exact → dispatchCourse P env s.known b = .delivered → b.payloadLength = 0) :
    Ends (Tolerated careful) (bundleDeliverLocal P env s a) fun s' => ∃ m',
      Handled careful exact (dispatchCourse P env s.known b = .fragment →
        DeliveryRoomy P env s a) a s m s' m' ∧
      Dispatched s a b s' ∧ Unheard P env s b s' := by
  unfold bundleDeliverLocal
  apply ends_of_eq (update_of_cell hb _)
  have hs₀ : Sound careful exact (s.put a b.undispatched) m s.reassembly.flatten :=
    hs.set_ret hb _ (fun hc h => (hs.accepted hc).ret h hb) (fun hc h => absurd h (hfr hc))
  have hled₀ := (Led.refl (m := m) hb).put b.undispatched rfl
  apply ends_of_eq (bundle_of_cell hled₀.cell)
  obtain ⟨known, n, hrec, hled₁, hentries, hstay⟩ := recordKnown_led env (m := m) hb
  rw [show ({ b with ret := { b.ret with dispatchPending := false } } : Bundle) =
    b.undispatched from rfl]
  simp only [hrec]
  cases hwas : alreadyKnown env s.known b with
  | true =>
      have hret : careful → b.undispatched.ret = .none := by
        intro hc
        have hharm := hsafe hc
        simpa only [DispatchHarmless, dispatchCourse, deliveryCourse, hlocal, hwas, if_true]
          using hharm
      rw [if_pos rfl]
      apply (bundleDiscard_clean
        (s := { s.put a b.undispatched with known := known, requests := n }) hs₀ hled₁.cell
        hret).mono
      intro s' ⟨m', hh, hdisc⟩
      exact ⟨m', hled₁.handled hs hh.any, Or.inl hdisc.self,
        Or.inr (hdisc.lists.delivered.trans hled₁.delivered)⟩
  | false =>
      rw [if_neg (by simp)]
      apply (reportWhen_spec
        (s := { s.put a b.undispatched with known := known, requests := n }) hs₀ hled₁.cell
        _ _ _).bind_of_ok
      intro s₂ hreport ⟨m₂, hs₂, htraf⟩
      have hled₂ := hled₁.traffic htraf
      have hroom : DeliveryRoomy P env s a → SlotRoomy env (s₂.put a { b.undispatched with
          ret := { b.undispatched.ret with reassemblyPending := true } }) a := by
        intro h
        apply h
        have hupdate : s.update a (fun b =>
            { b with ret := { b.ret with dispatchPending := false } }) =
            .ok (s.put a b.undispatched) := update_of_cell hb _
        unfold beforeSearch
        rw [hupdate, ok_bind, bundle_of_cell hled₀.cell, ok_bind]
        simp only [hrec]
        rw [hreport, ok_bind]
        exact update_of_cell hled₂.cell _
      have hpar : careful → parentKnown env s.known b = false →
          bundleReassembledIsKnown s₂ b.undispatched = false := by
        intro _ hpar
        have hsame : s₂.known = known := htraf.lists.known
        apply reassembledIsKnown_of_subset env s.known
        · rw [hsame]
          exact hentries
        · exact hpar
      have horiginal : originalHeld env s.known b = true →
          bundleReassembledIsKnown s₂ b.undispatched = true := by
        intro hheld
        obtain ⟨e, he, hpar⟩ := List.any_eq_true.mp hheld
        have hsame : s₂.known = known := htraf.lists.known
        refine List.any_eq_true.mpr ⟨e, ?_, hpar⟩
        rw [hsame]
        exact hstay he
      apply (deliverUnknown_spec hs hb hfr hlocal hwas hsafe hlen hs₂ hled₂ hpar horiginal).mono
      intro s' ⟨m', hh, hrest⟩
      exact ⟨m', hh.mono fun h hcourse => hroom (h hcourse), hrest⟩

/-- **`bundle_dispatch`**. -/
theorem bundleDispatch_spec (hs : Sound careful exact s m s.reassembly.flatten)
    (hb : s.bundles.cells a = some b) (hfr : careful → a ∉ s.reassembly.flatten)
    (hsafe : careful → DispatchHarmless P env s a b)
    (hlen : exact → dispatchCourse P env s.known b = .delivered → b.payloadLength = 0) :
    Ends (Tolerated careful) (bundleDispatch P env s a) fun s' => ∃ m',
      Handled careful exact (dispatchCourse P env s.known b = .fragment →
        DeliveryRoomy P env s a) a s m s' m' ∧
      Dispatched s a b s' ∧ Unheard P env s b s' := by
  unfold bundleDispatch
  apply ends_of_eq (bundle_of_cell hb)
  split
  · next hlocal => exact bundleDeliverLocal_spec hs hb hfr hlocal hsafe hlen
  · next hremote =>
    have hhop : careful → hopLimitExceeded P b = false := by
      intro hc
      have hharm := hsafe hc
      unfold DispatchHarmless dispatchCourse at hharm
      rw [if_neg hremote] at hharm
      cases hexc : hopLimitExceeded P b with
      | false => rfl
      | true =>
          rw [hexc] at hharm
          exact hharm.elim
    apply (bundleForward_spec hs hb hfr hhop).bind
    rintro ⟨_, s'⟩ ⟨b', hcell, hid, hret, hs', hout, hlists, hev⟩
    have hsent : Sent s s' b.id := ⟨[b.id], hout, by simp⟩
    exact ⟨m, .of_same_slots hs hs' ⟨[b.id], hout, fun _ _ h => Or.inl h⟩ hev
      hlists.reassembly (keepsKnown_of_eq hlists.known),
      Or.inr (Or.inl ⟨hsent, b', hcell, hid, hret⟩), Or.inr hlists.delivered⟩

end Specs

end BundleProcessor
