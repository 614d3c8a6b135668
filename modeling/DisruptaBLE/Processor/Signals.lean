import DisruptaBLE.Processor.Reception

/-!
# Signals

Specifications of the other signals and of `handle_signal` as a whole.

`SignalHarmless` collects what a careful state can handle, signal by signal.  A bundle
that waits for reassembly must not be touched, since the reassembly list refers to it: of
the signals about it only `TRANSMISSION_SUCCESS` is harmless, and `BUNDLE_ROUTED` if no
custody is requested.
-/

namespace BundleProcessor

open PtrHeap BundleStorage Outcome

/-! ## Conditions -/

/-- The course of a bundle that a signal has dispatched, if it has. -/
def signalCourse (P : Params) (env : Env) (s : Processor) (a : Addr) (b : Bundle) :
    BundleSignal → Option Course
  | .incoming =>
      match receptionCourse env s a b with
      | .dispatched b' => some (dispatchCourse P env s.known b')
      | _ => none
  | .localDispatch => some (dispatchCourse P env s.known b)
  | _ => none

/-- The signals that may end with a delivery. -/
def SignalAudible (P : Params) (env : Env) (s : Processor) (a : Addr) (b : Bundle) :
    BundleSignal → Prop
  | .incoming => ∃ b', receptionCourse env s a b = .dispatched b' ∧ Audible P env s.known b'
  | .localDispatch => Audible P env s.known b
  | _ => False

/-- The signals about a bundle that a careful state can handle. -/
def SignalHarmless (P : Params) (env : Env) (s : Processor) (a : Addr) (b : Bundle) :
    BundleSignal → Prop
  | .incoming => a ∉ s.reassembly.flatten ∧ ReceptionHarmless P env s a b
  | .routed => a ∈ s.reassembly.flatten → asksForCustody b = false
  | .forwardingContraindicated _ | .expired | .transmissionFailure =>
      a ∉ s.reassembly.flatten ∧ Deletable s a b
  | .reschedule => a ∉ s.reassembly.flatten ∧
      (env.pushed s.requests = false → Deletable s a b)
  | .transmissionSuccess => True
  | .localDispatch => a ∉ s.reassembly.flatten ∧ DispatchHarmless P env s a b

/-- The memory that a signal needs which has a fragment dispatched. -/
def BundleRoomy (P : Params) (env : Env) (s : Processor) (a : Addr) : BundleSignal → Prop
  | .incoming => ∀ s₁, beforeDispatch P env s a = .ok s₁ → DeliveryRoomy P env s₁ a
  | .localDispatch => DeliveryRoomy P env s a
  | _ => True

/-- The lists of fragments and of known bundles are as before, and nothing was
delivered. -/
structure SameTracks (s s' : Processor) : Prop where
  reassembly : s'.reassembly = s.reassembly
  known : s'.known = s.known
  delivered : s'.delivered = s.delivered

section Specs

variable {careful exact room : Prop} {P : Params} {env : Env} {s s₁ s' : Processor}
  {m m₁ m' : UInt16 → Option Addr} {frags : List Addr} {a : Addr} {b b₁ : Bundle}

/-! ## The other signals -/

theorem ends_assertP {c : Bool} {γ : Type} {f : Unit → Except Fault γ} {Q : γ → Prop}
    (h : c = true → Ends (Tolerated careful) (f ()) Q) :
    Ends (Tolerated careful) (assertP c >>= f) Q := by
  cases c with
  | false => exact tolerated_other _
  | true => exact h rfl

/-- The effect of accepting custody of a bundle. -/
structure Accepted (careful exact : Prop) (s : Processor) (m : UInt16 → Option Addr)
    (a : Addr) (s' : Processor) : Prop where
  sound : Sound careful exact s' m s'.reassembly.flatten
  cell : ∃ b', s'.bundles.cells a = some b'
  grew : Grew s m s' m
  evolves : Evolves s s'
  tracks : SameTracks s s'

/-- **`custody_manager_accept`**. -/
theorem custodyManagerAccept_spec (hs : Sound careful exact s m s.reassembly.flatten)
    (hb : s.bundles.cells a = some b) (hcust : b.ret.custodyAccepted = false)
    (hfr : careful → a ∉ s.reassembly.flatten) :
    Ends (Tolerated careful) (custodyManagerAccept P s a) fun r =>
      Accepted careful exact s m a r.2 := by
  unfold custodyManagerAccept
  apply (custodyManagerHasRedundantBundle_spec hb fun hc => hs.acceptedLive hc).bind
  intro _ _
  apply ends_assertP
  intro _
  obtain ⟨s₂, b₂, heq, hs₂, hled₂, _, hret₂⟩ := storageIsAcceptable_led hs (Led.refl hb)
  apply ends_of_eq heq
  apply ends_assertP
  intro _
  have hb₂ := hled₂.cell
  have hacc₂ : careful → a ∉ s₂.accepted := hs₂.not_accepted hb₂ (by rw [hret₂]; exact hcust)
  have hfr₂ : careful → a ∉ s₂.reassembly.flatten := by
    rw [hled₂.reassembly]
    exact hfr
  -- the bundle is marked, and then the array refers to it
  have hmark := hs₂.set_ret hb₂ { b₂.ret with custodyAccepted := true }
    (fun hc h => absurd h (hacc₂ hc)) (fun hc h => absurd h (hfr₂ hc))
  have hs₃ : Sound careful exact
      ({ s₂ with accepted := s₂.accepted ++ [a] }.put a
        { b₂ with ret := { b₂.ret with custodyAccepted := true } }) m
      s₂.reassembly.flatten := by
    refine ⟨hmark.rep, hmark.stored, hmark.ids, hmark.bytes, hmark.below, ?_, hmark.frags⟩
    intro hc
    exact ((hmark.accepted hc).cons (put_self _ _ _) rfl (hacc₂ hc)).perm
      (List.perm_append_singleton _ _)
  have hled₃ := hled₂.put { b₂ with ret := { b₂.ret with custodyAccepted := true } } rfl
  have hb₂' : ({ s₂ with accepted := s₂.accepted ++ [a] } : Processor).bundles.cells a =
      some b₂ := hb₂
  apply ends_of_eq (update_of_cell hb₂' _)
  apply ends_of_eq (bundle_of_cell (put_self _ _ _))
  have hknown₂ : s₂.known = s.known := by
    rcases custodyManagerStorageIsAcceptable_eq hb with h | ⟨n, h⟩
    · rw [heq] at h
      obtain ⟨_, rfl⟩ := Prod.mk.inj (Except.ok.inj h)
      rfl
    · rw [heq] at h
      obtain ⟨_, rfl⟩ := Prod.mk.inj (Except.ok.inj h)
      rfl
  split
  · apply ends_of_eq (update_of_cell (put_self _ _ _) _)
    have hev := (hled₃.put { b₂ with
      ret := { b₂.ret with custodyAccepted := true }
      currentCustodian := P.localEid } rfl).evolves
    exact ⟨hs₃.set_same (put_self _ _ _) rfl rfl rfl, ⟨_, put_self _ _ _⟩, hled₃.grew,
      ⟨hev.cells, hev.bound⟩, ⟨hled₃.reassembly, hknown₂, hled₃.delivered⟩⟩
  · exact ⟨hs₃, ⟨_, put_self _ _ _⟩, hled₃.grew,
      ⟨hled₃.evolves.cells, hled₃.evolves.bound⟩,
      ⟨hled₃.reassembly, hknown₂, hled₃.delivered⟩⟩

/-- The tracks of a state are as before after records were sent. -/
theorem Traffic.tracks (h : Traffic s m s' m') : SameTracks s s' :=
  ⟨h.lists.reassembly, h.lists.known, h.lists.delivered⟩

theorem SameTracks.trans (h₁ : SameTracks s s₁) (h₂ : SameTracks s₁ s') : SameTracks s s' :=
  ⟨h₂.reassembly.trans h₁.reassembly, h₂.known.trans h₁.known,
    h₂.delivered.trans h₁.delivered⟩

theorem SameTracks.refl : SameTracks s s := ⟨rfl, rfl, rfl⟩

/-- Other bundles than the fragments were handled, and nothing was delivered. -/
theorem SameTracks.handled (h : SameTracks s s')
    (hs : Sound careful exact s m s.reassembly.flatten)
    (hs' : Sound careful exact s' m' s'.reassembly.flatten) (hgrew : Grew s m s' m')
    (hev : Evolves s s') : Handled careful exact room a s m s' m' :=
  .of_same_slots hs (by rw [← h.reassembly]; exact hs') hgrew hev h.reassembly
    (keepsKnown_of_eq h.known)

/-- A custody signal under a condition. -/
theorem signalWhen_spec (hs : Sound careful exact s m s.reassembly.flatten)
    (hb : s.bundles.cells a = some b) (c : Bool) (signal : CustodySignal) :
    Ends (Tolerated careful) (s.when c fun s => sendCustodySignal P env s a signal)
      fun s' => ∃ m', Sound careful exact s' m' s'.reassembly.flatten ∧ Traffic s m s' m' := by
  apply ends_when
  · intro _
    apply (sendCustodySignal_spec hs hb signal).mono
    intro s' ⟨m', hs', htraf⟩
    refine ⟨m', ?_, htraf⟩
    rw [htraf.lists.reassembly]
    exact hs'
  · intro _
    exact ⟨m, hs, .refl⟩

/-- **`bundle_forwarding_scheduled`**. -/
theorem bundleForwardingScheduled_spec (hs : Sound careful exact s m s.reassembly.flatten)
    (hb : s.bundles.cells a = some b)
    (hsafe : careful → a ∈ s.reassembly.flatten → asksForCustody b = false) :
    Ends (Tolerated careful) (bundleForwardingScheduled P env s a) fun s' => ∃ m',
      Handled careful exact True a s m s' m' ∧ SameTracks s s' := by
  unfold bundleForwardingScheduled
  apply ends_of_eq (bundle_of_cell hb)
  split
  · next hcond =>
    simp only [Bool.and_eq_true, Bool.not_eq_true', decide_eq_true_eq] at hcond
    obtain ⟨⟨hreq, hcust⟩, hver⟩ := hcond
    have hfr : careful → a ∉ s.reassembly.flatten := by
      intro hc hmem
      have hno := hsafe hc hmem
      simp [asksForCustody, hreq, hver] at hno
    apply (custodyManagerAccept_spec hs hb hcust hfr).bind
    rintro ⟨accepted, s₁⟩ hacc
    dsimp only
    obtain ⟨b₁, hb₁⟩ := hacc.cell
    split
    · exact ⟨m, hacc.tracks.handled hs hacc.sound hacc.grew hacc.evolves, hacc.tracks⟩
    · apply (reportWhen_spec hacc.sound hb₁ _ _ _).bind
      intro s₂ ⟨m₂, hs₂, htraf₂⟩
      apply (sendCustodySignal_spec hs₂ (htraf₂.cell hb₁) _).mono
      intro s' ⟨m', hs', htraf⟩
      have htracks := (hacc.tracks.trans htraf₂.tracks).trans htraf.tracks
      refine ⟨m', htracks.handled hs ?_ ((hacc.grew.trans htraf₂.grew).trans htraf.grew)
        ((hacc.evolves.trans htraf₂.evolves).trans htraf.evolves), htracks⟩
      rw [htraf.lists.reassembly]
      exact hs'
  · exact ⟨m, SameTracks.refl.handled hs hs .refl .refl, .refl⟩

/-- **`bundle_forwarding_success`**. -/
theorem bundleForwardingSuccess_spec (hs : Sound careful exact s m s.reassembly.flatten)
    (hb : s.bundles.cells a = some b) :
    Ends (Tolerated careful) (bundleForwardingSuccess P env s a) fun s' => ∃ m',
      Handled careful exact True a s m s' m' ∧ SameTracks s s' := by
  unfold bundleForwardingSuccess
  apply ends_of_eq (bundle_of_cell hb)
  apply (reportWhen_spec hs hb _ _ _).bind
  intro s₁ ⟨m₁, hs₁, htraf⟩
  have hb₁ := htraf.cell hb
  apply ends_of_eq (update_of_cell hb₁ _)
  have hs₂ := hs₁.set_ret hb₁ { b.ret with forwardPending := false, flagOwn := false }
    (fun hc h => (hs₁.accepted hc).ret h hb₁)
    (fun hc h => by
      have hret : b.ret = .reassemblyOnly := (hs₁.frags hc).ret h hb₁
      rw [hret]
      rfl)
  have hled := ((Led.refl (m := m) hb).traffic htraf).put
    { b with ret := { b.ret with forwardPending := false, flagOwn := false } } rfl
  have htracks : SameTracks s (s₁.put a
      { b with ret := { b.ret with forwardPending := false, flagOwn := false } }) :=
    ⟨hled.reassembly, htraf.lists.known, hled.delivered⟩
  apply ends_of_eq (bundle_of_cell (put_self _ _ _))
  split
  · next hnone =>
    apply (bundleDiscard_clean hs₂ (put_self _ _ _) (fun _ => hnone)).mono
    intro s' ⟨m', hh, hdisc⟩
    exact ⟨m', hled.handled hs hh, htracks.trans
      ⟨hdisc.lists.reassembly, hdisc.lists.known, hdisc.lists.delivered⟩⟩
  · exact ⟨m₁, hled.done hs hs₂, htracks⟩

/-- `bundle_delete` as the last step of a signal. -/
theorem deleteAfter_spec (hs : Sound careful exact s m s.reassembly.flatten)
    (hs₁ : Sound careful exact s₁ m₁ s₁.reassembly.flatten) (hb : s.bundles.cells a = some b)
    (htraf : Traffic s m s₁ m₁) (hfr : careful → a ∉ s.reassembly.flatten)
    (hdel : careful → Deletable s a b) (reason : ReportReason) :
    Ends (Tolerated careful) (bundleDelete P env s₁ a reason) fun s' => ∃ m',
      Handled careful exact True a s m s' m' ∧ SameTracks s s' := by
  have hled := (Led.refl (m := m) hb).traffic htraf
  have hfr₁ : careful → a ∉ s₁.reassembly.flatten := by
    rw [htraf.lists.reassembly]
    exact hfr
  apply (bundleDelete_spec hs₁ hled.cell hfr₁ (fun hc => hled.deletable (hdel hc)) reason).mono
  intro s' ⟨m', hs', hdeleted⟩
  have htracks := htraf.tracks.trans
    ⟨hdeleted.reassembly, hdeleted.known, hdeleted.delivered⟩
  refine ⟨m', htracks.handled hs ?_ (htraf.grew.trans hdeleted.grew)
    (htraf.evolves.trans hdeleted.evolves), htracks⟩
  rw [hdeleted.reassembly]
  exact hs'

/-- **`bundle_forwarding_failed`**. -/
theorem bundleForwardingFailed_spec (hs : Sound careful exact s m s.reassembly.flatten)
    (hb : s.bundles.cells a = some b) (hfr : careful → a ∉ s.reassembly.flatten)
    (hdel : careful → Deletable s a b) (reason : ReportReason) :
    Ends (Tolerated careful) (bundleForwardingFailed P env s a reason) fun s' => ∃ m',
      Handled careful exact True a s m s' m' ∧ SameTracks s s' := by
  unfold bundleForwardingFailed
  apply ends_of_eq (bundle_of_cell hb)
  apply (signalWhen_spec hs hb _ _).bind
  intro s₁ ⟨m₁, hs₁, htraf⟩
  exact deleteAfter_spec hs hs₁ hb htraf hfr hdel reason

/-- **`bundle_dangling`**. -/
theorem bundleDangling_spec (hs : Sound careful exact s m s.reassembly.flatten)
    (hb : s.bundles.cells a = some b) (hfr : careful → a ∉ s.reassembly.flatten)
    (hdel : careful → env.pushed s.requests = false → Deletable s a b) :
    Ends (Tolerated careful) (bundleDangling P env s a) fun s' => ∃ m',
      Handled careful exact True a s m s' m' ∧ SameTracks s s' := by
  unfold bundleDangling
  apply ends_of_eq (bundle_of_cell hb)
  split
  · next hdrop =>
    have hcust : b.ret.custodyAccepted = false := by
      simp only [Bool.not_eq_true', Bool.or_eq_false_iff] at hdrop
      exact hdrop.1
    exact deleteAfter_spec hs hs hb .refl hfr
      (fun hc h => absurd h (hs.not_accepted hb hcust hc)) _
  · unfold sendBundle
    rw [if_neg (by decide)]
    cases hpush : env.pushed s.requests with
    | true =>
        refine ⟨m, ?_, ⟨rfl, rfl, rfl⟩⟩
        exact .of_same_slots hs hs ⟨[b.id], rfl, fun _ _ h => Or.inl h⟩
          ⟨fun _ _ c h => ⟨c, h, rfl⟩, Nat.le_refl _⟩ rfl (keepsKnown_of_eq rfl)
    | false =>
        have htraf : Traffic s m { s with requests := s.requests + 1 } m :=
          ⟨fun _ _ => rfl, Nat.le_refl _, ⟨[], by simp, fun _ _ h => Or.inl h⟩,
            ⟨rfl, rfl, rfl, rfl⟩⟩
        have hs₁ : Sound careful exact { s with requests := s.requests + 1 } m
            s.reassembly.flatten := hs
        exact deleteAfter_spec hs hs₁ hb htraf hfr (fun hc => hdel hc hpush) _

/-! ## All signals -/

/-- **The cases of `handle_signal`**. -/
theorem handleBundleSignal_spec (hs : Sound careful exact s m s.reassembly.flatten)
    (hb : s.bundles.cells a = some b) (type : BundleSignal)
    (hsafe : careful → SignalHarmless P env s a b type)
    (hlen : exact → signalCourse P env s a b type = some .delivered → b.payloadLength = 0) :
    Ends (Tolerated careful) (handleBundleSignal P env s a type) fun s' => ∃ m',
      Handled careful exact
        (signalCourse P env s a b type = some .fragment → BundleRoomy P env s a type) a s m s' m' ∧
      (type = .incoming ∨ type = .localDispatch ∨ SameTracks s s') ∧
      (SignalAudible P env s a b type ∨ s'.delivered = s.delivered) := by
  have hother : ∀ {x : Except Fault Processor},
      Ends (Tolerated careful) x (fun s' => ∃ m', Handled careful exact True a s m s' m' ∧
        SameTracks s s') →
      Ends (Tolerated careful) x fun s' => ∃ m', Handled careful exact
        (signalCourse P env s a b type = some .fragment → BundleRoomy P env s a type) a s m s' m' ∧
        (type = .incoming ∨ type = .localDispatch ∨ SameTracks s s') ∧
        (SignalAudible P env s a b type ∨ s'.delivered = s.delivered) := by
    intro x hx
    apply hx.mono
    intro s' ⟨m', hh, htracks⟩
    exact ⟨m', hh.any, Or.inr (Or.inr htracks), Or.inr htracks.delivered⟩
  cases type with
  | incoming =>
      have hlen' : exact → ∀ b', receptionCourse env s a b = .dispatched b' →
          dispatchCourse P env s.known b' = .delivered → b'.payloadLength = 0 := by
        intro he b' hrec hcourse
        obtain ⟨blocksBefore, blocksAfter, rfl⟩ := received_of_dispatched hrec
        refine hlen he ?_
        simp only [signalCourse, hrec, hcourse]
      apply (bundleReceive_spec hs hb (fun hc => (hsafe hc).1) (fun hc => (hsafe hc).2)
        hlen').mono
      intro s' ⟨m', hh, _, hunheard⟩
      have hroom : (signalCourse P env s a b .incoming = some .fragment →
          BundleRoomy P env s a .incoming) → ReceptionRoomy P env s a b := by
        intro h b' hrec hcourse
        apply h
        simp only [signalCourse, hrec, hcourse]
      refine ⟨m', hh.mono hroom, Or.inl rfl, ?_⟩
      rcases hunheard with ⟨b', hrec, haudible | hdeliv⟩ | hdeliv
      · exact Or.inl ⟨b', hrec, haudible⟩
      · exact Or.inr hdeliv
      · exact Or.inr hdeliv
  | routed => exact hother (bundleForwardingScheduled_spec hs hb hsafe)
  | forwardingContraindicated reason =>
      exact hother (bundleForwardingFailed_spec hs hb (fun hc => (hsafe hc).1)
        (fun hc => (hsafe hc).2) reason)
  | expired =>
      exact hother (deleteAfter_spec hs hs hb .refl (fun hc => (hsafe hc).1)
        (fun hc => (hsafe hc).2) _)
  | reschedule =>
      exact hother (bundleDangling_spec hs hb (fun hc => (hsafe hc).1)
        (fun hc => (hsafe hc).2))
  | transmissionSuccess => exact hother (bundleForwardingSuccess_spec hs hb)
  | transmissionFailure =>
      exact hother (bundleForwardingFailed_spec hs hb (fun hc => (hsafe hc).1)
        (fun hc => (hsafe hc).2) _)
  | localDispatch =>
      apply (bundleDispatch_spec hs hb (fun hc => (hsafe hc).1) (fun hc => (hsafe hc).2)
        (fun he hcourse => hlen he (congrArg some hcourse))).mono
      intro s' ⟨m', hh, _, hunheard⟩
      have hroom : (signalCourse P env s a b .localDispatch = some .fragment →
          BundleRoomy P env s a .localDispatch) →
          dispatchCourse P env s.known b = .fragment → DeliveryRoomy P env s a :=
        fun h hcourse => h (congrArg some hcourse)
      exact ⟨m', hh.mono hroom, Or.inr (Or.inl rfl), hunheard⟩

/-- The bundle that a signal is about. -/
def About (s : Processor) (sig : Signal) (type : BundleSignal) (a : Addr) (b : Bundle) : Prop :=
  ∃ id, sig = .bundle id type ∧ bundleStorageGet s.store id = .ok (some a) ∧
    s.bundles.cells a = some b

/-- The signals that a careful state can handle. -/
def Harmless (P : Params) (env : Env) (s : Processor) (sig : Signal) : Prop :=
  ∀ type a b, About s sig type a b → SignalHarmless P env s a b type

/-- No payload leaves a bundle by its delivery. -/
def KeepsPayload (P : Params) (env : Env) (s : Processor) (sig : Signal) : Prop :=
  ∀ type a b, About s sig type a b → signalCourse P env s a b type = some .delivered →
    b.payloadLength = 0

/-- The bundle that a signal has dispatched is punctual. -/
def SignalPunctual (D : Lineage → UInt64) (s : Processor) (sig : Signal) : Prop :=
  ∀ type a b, About s sig type a b → type = .incoming ∨ type = .localDispatch → Punctual D b

/-- All fragments that wait for reassembly have a property. -/
def SlotsAll (p : Bundle → Prop) (s : Processor) : Prop :=
  ∀ x ∈ s.reassembly.flatten, ∀ c, s.bundles.cells x = some c → p c

/-- If the signal has a fragment dispatched and there is memory for a new slot, there is
memory for its entry too. -/
def SignalRoomy (P : Params) (env : Env) (s : Processor) (sig : Signal) : Prop :=
  ∀ type a b, About s sig type a b → signalCourse P env s a b type = some .fragment →
    BundleRoomy P env s a type

/-- The effect of a signal on the state as a whole. -/
structure SignalDone (careful exact : Prop) (P : Params) (env : Env) (sig : Signal)
    (s : Processor) (m : UInt16 → Option Addr) (s' : Processor)
    (m' : UInt16 → Option Addr) : Prop where
  sound : Sound careful exact s' m' s'.reassembly.flatten
  evolves : Evolves s s'
  slots : ∀ x ∈ s'.reassembly.flatten, x ∈ s.reassembly.flatten ∨
    ∃ type b, About s sig type x b ∧ (type = .incoming ∨ type = .localDispatch)
  sorted : (∀ l ∈ s.reassembly, ByOffset s.bundles l) → ∀ l ∈ s'.reassembly, ByOffset s'.bundles l
  orderly : careful → SignalRoomy P env s sig → OrderlySlots s.bundles s.reassembly →
    OrderlySlots s'.bundles s'.reassembly
  known : ∀ D, SignalPunctual D s sig → SlotsAll (Punctual D) s → KnownSound D s.known →
    KnownSound D s'.known
  unheard : s'.delivered = s.delivered ∨
    ∃ type a b, About s sig type a b ∧ SignalAudible P env s a b type

/-- A property that depends on what stays of a bundle only. -/
def Lasting (p : Bundle → Prop) : Prop := ∀ b b' : Bundle, b'.bare = b.bare → p b → p b'

theorem lasting_punctual (D : Lineage → UInt64) : Lasting (Punctual D) :=
  fun _ _ hbare h => h.of_bare hbare

/-- The fragments keep a lasting property, if the bundle of the signal has it. -/
theorem SignalDone.slotsAll {sig : Signal} {p : Bundle → Prop}
    (hdone : SignalDone careful exact P env sig s m s' m') (hp : Lasting p)
    (hs : Sound careful exact s m s.reassembly.flatten) (hslots : SlotsAll p s)
    (hsig : ∀ type a b, About s sig type a b → type = .incoming ∨ type = .localDispatch →
      p b) : SlotsAll p s' := by
  intro x hx c' hc'
  rcases hdone.slots x hx with hmem | ⟨type, b, habout, htype⟩
  · obtain ⟨c, hc, hbare⟩ := hdone.evolves.cells x (hs.below x hmem) c' hc'
    exact hp c c' hbare (hslots x hmem c hc)
  · obtain ⟨_, _, _, hb⟩ := id habout
    obtain ⟨c, hc, hbare⟩ := hdone.evolves.cells x (Heap.lt_bound_of_cell hb) c' hc'
    rw [hb] at hc
    obtain rfl := Option.some.inj hc
    exact hp b c' hbare (hsig type x b habout htype)

/-- Signals without a bundle. -/
theorem SameTracks.signalDone {sig : Signal} (h : SameTracks s s')
    (hs : Sound careful exact s m s.reassembly.flatten)
    (hs' : Sound careful exact s' m s'.reassembly.flatten) (hev : Evolves s s') :
    SignalDone careful exact P env sig s m s' m where
  sound := hs'
  evolves := hev
  slots x hx := by
    rw [h.reassembly] at hx
    exact Or.inl hx
  sorted hsorted l hl := by
    rw [h.reassembly] at hl
    exact (hsorted l hl).evolve fun x hx =>
      hev.cells x (hs.below x (List.mem_flatten.mpr ⟨l, hl, hx⟩))
  orderly _ _ hord := by
    rw [h.reassembly]
    exact hord.evolve fun x hx => hev.cells x (hs.below x hx)
  known D _ _ hk := by
    rw [h.known]
    exact hk
  unheard := Or.inl h.delivered

/-- **`handle_signal`**. -/
theorem handleSignal_spec (hs : Sound careful exact s m s.reassembly.flatten) (sig : Signal)
    (hsafe : careful → Harmless P env s sig) (hlen : exact → KeepsPayload P env s sig) :
    Ends (Tolerated careful) (handleSignal P env s sig) fun s' => ∃ m',
      SignalDone careful exact P env sig s m s' m' := by
  cases sig with
  | agentRegister sinkIdentifier =>
      unfold handleSignal agentRegister malloc
      rw [ends_ok]
      have hev : ∀ agents n, Evolves s { s with agents := agents, requests := n } :=
        fun _ _ => ⟨fun _ _ c h => ⟨c, h, rfl⟩, Nat.le_refl _⟩
      split
      · exact ⟨m, SameTracks.refl.signalDone hs hs .refl⟩
      · dsimp only
        split
        · exact ⟨m, SameTracks.signalDone ⟨rfl, rfl, rfl⟩ hs hs (hev _ _)⟩
        · exact ⟨m, SameTracks.signalDone ⟨rfl, rfl, rfl⟩ hs hs (hev _ _)⟩
  | agentDeregister sinkIdentifier =>
      exact ⟨m, SameTracks.signalDone ⟨rfl, rfl, rfl⟩ hs hs
        ⟨fun _ _ c h => ⟨c, h, rfl⟩, Nat.le_refl _⟩⟩
  | bundle id type =>
      unfold handleSignal
      apply ends_outside
      intro found hfound
      have hget := hfound
      rw [hs.rep.get] at hfound
      obtain rfl := Except.ok.inj hfound
      cases hm : m id with
      | none => exact ⟨m, SameTracks.refl.signalDone hs hs .refl⟩
      | some a =>
          rw [hm] at hget
          obtain ⟨b, hb, _⟩ := hs.stored id a hm
          have habout : About s (.bundle id type) type a b := ⟨id, rfl, hget, hb⟩
          apply (handleBundleSignal_spec hs hb type (fun hc => hsafe hc type a b habout)
            (fun he => hlen he type a b habout)).mono
          intro s' ⟨m', hh, htracks, hunheard⟩
          refine ⟨m', hh.sound, hh.evolves, ?_, hh.sorted,
            fun hc hroom => hh.orderly hc (hroom type a b habout), ?_, ?_⟩
          · intro x hx
            rcases htracks with htype | htype | htracks
            · rcases List.mem_cons.mp (hh.slots hx) with rfl | hmem
              · exact Or.inr ⟨type, b, habout, Or.inl htype⟩
              · exact Or.inl hmem
            · rcases List.mem_cons.mp (hh.slots hx) with rfl | hmem
              · exact Or.inr ⟨type, b, habout, Or.inr htype⟩
              · exact Or.inl hmem
            · rw [htracks.reassembly] at hx
              exact Or.inl hx
          · intro D hpunct hslots hk
            have hall : type = .incoming ∨ type = .localDispatch →
                ∀ x ∈ a :: s.reassembly.flatten, ∀ c, s.bundles.cells x = some c →
                  Punctual D c := by
              intro htype x hx c hc
              rcases List.mem_cons.mp hx with rfl | hx
              · rw [hb] at hc
                obtain rfl := Option.some.inj hc
                exact hpunct type x b habout htype
              · exact hslots x hx c hc
            rcases htracks with htype | htype | htracks
            · exact hh.known D (hall (Or.inl htype)) hk
            · exact hh.known D (hall (Or.inr htype)) hk
            · rw [htracks.known]
              exact hk
          · rcases hunheard with h | h
            · exact Or.inr ⟨type, a, b, habout, h⟩
            · exact Or.inl h

end Specs

end BundleProcessor
