import DisruptaBLE.Processor.Runs

/-!
# Bundles after their reception

`arrival_settled`: once `BP_SIGNAL_BUNDLE_INCOMING` was handled for a bundle, the bundle
is gone, or the router has it, or it waits for reassembly; and no other bundle is left
that nothing refers to.  This fails for the bundles whose custody is requested and
possible: `bundle_receive` does nothing with them.
-/

namespace BundleProcessor

open PtrHeap BundleStorage Outcome

/-- No id leads to the bundle. -/
def Removed (s : Processor) (a : Addr) : Prop :=
  ∀ id, bundleStorageGet s.store id ≠ .ok (some a)

/-- The bundle is stored, and its id was sent to the router since the state `s`. -/
def Queued (s s' : Processor) (id : UInt16) (a : Addr) : Prop :=
  bundleStorageGet s'.store id = .ok (some a) ∧ Sent s s' id ∧
    ∃ b, s'.bundles.cells a = some b ∧ b.ret.forwardPending = true

/-- The bundle is stored, and the reassembly list refers to it. -/
def Waiting (s : Processor) (id : UInt16) (a : Addr) : Prop :=
  bundleStorageGet s.store id = .ok (some a) ∧ a ∈ s.reassembly.flatten ∧
    ∃ b, s.bundles.cells a = some b ∧ b.ret.reassemblyPending = true

/-- The queue to the router or the reassembly list refers to a bundle. -/
def Referred (s : Processor) (id : UInt16) (x : Addr) : Prop :=
  id ∈ s.outQueue ∨ x ∈ s.reassembly.flatten

/-- A stored bundle that nothing refers to. -/
def Forgotten (s : Processor) (id : UInt16) (x : Addr) : Prop :=
  bundleStorageGet s.store id = .ok (some x) ∧ ¬ Referred s id x

/-- The bundle `a` came to exactly one end, and no other bundle was forgotten over it. -/
def ArrivalSettled (s s' : Processor) (id : UInt16) (a : Addr) : Prop :=
  ((Removed s' a ∧ ¬ Queued s s' id a ∧ ¬ Waiting s' id a) ∨
    (¬ Removed s' a ∧ Queued s s' id a ∧ ¬ Waiting s' id a) ∨
    (¬ Removed s' a ∧ ¬ Queued s s' id a ∧ Waiting s' id a)) ∧
  ∀ id' x, x ≠ a → Forgotten s' id' x → Forgotten s id' x

/-- The reception of a bundle ends with the question whether its custody is possible:
it is requested, not redundant, and acceptable. -/
def CustodyPossible (env : Env) (s : Processor) (a : Addr) (b : Bundle) : Prop :=
  expiredOnArrival env b = false ∧ ∃ b', b.received = some b' ∧ asksForCustody b' = true ∧
    redundant s b' = false ∧ acceptable s a b' = true

section Arrival

variable {P : Params} {env : Env} {s s' : Processor} {m m' : UInt16 → Option Addr}
  {id : UInt16} {a : Addr} {b : Bundle}

theorem stranded_iff : receptionCourse env s a b = .stranded ↔ CustodyPossible env s a b := by
  unfold receptionCourse CustodyPossible
  cases expiredOnArrival env b with
  | true => simp
  | false =>
      cases hrec : b.received with
      | none => simp
      | some b' =>
          simp only [Bool.false_eq_true, if_false, Option.some.injEq, true_and,
            exists_eq_left']
          cases asksForCustody b' with
          | false => simp
          | true =>
              cases redundant s b' with
              | true => simp
              | false =>
                  cases acceptable s a b' with
                  | true => simp
                  | false => simp

theorem removed_of_none {frags : List Addr} (hs : Sound False False s m frags)
    (ha : s.bundles.cells a = none) : Removed s a := by
  intro id hget
  rw [hs.rep.get] at hget
  exact hs.not_stored_of_none ha id (Except.ok.inj hget)

theorem get_of_cell {frags : List Addr} (hs : Sound False False s m frags)
    (hb : s.bundles.cells a = some b) (hid : b.id ≠ invId) :
    bundleStorageGet s.store b.id = .ok (some a) := by
  rw [hs.rep.get, hs.ids a b hb hid]

/-- Where the bundle is: the three ends exclude each other. -/
theorem ends_of_dispatched {frags : List Addr} (hs' : Sound False False s' m' frags)
    (hid : b.id ≠ invId) (hret : b.undispatched.ret = .none) (h : Dispatched s a b s') :
    (Removed s' a ∧ ¬ Queued s s' b.id a ∧ ¬ Waiting s' b.id a) ∨
    (¬ Removed s' a ∧ Queued s s' b.id a ∧ ¬ Waiting s' b.id a) ∨
    (¬ Removed s' a ∧ ¬ Queued s s' b.id a ∧ Waiting s' b.id a) := by
  obtain ⟨hforward, hreass⟩ : b.ret.forwardPending = false ∧ b.ret.reassemblyPending = false :=
    ⟨congrArg RetConstraints.forwardPending hret, congrArg RetConstraints.reassemblyPending hret⟩
  rcases h with hnone | ⟨hsent, b', hb', hid', hret'⟩ | ⟨hmem, b', hb', hid', hret'⟩
  · have hgone := removed_of_none hs' hnone
    exact Or.inl ⟨hgone, fun hq => hgone _ hq.1, fun hw => hgone _ hw.1⟩
  · have hget := get_of_cell hs' hb' (by rw [hid']; exact hid)
    rw [hid'] at hget
    refine Or.inr (Or.inl ⟨fun hgone => hgone _ hget, ⟨hget, hsent, b', hb', ?_⟩, ?_⟩)
    · rw [hret']
      rfl
    · rintro ⟨_, _, c, hc, hpending⟩
      rw [hb'] at hc
      obtain rfl := Option.some.inj hc
      rw [hret', show b.forwarded.ret.reassemblyPending = false from hreass] at hpending
      cases hpending
  · have hget := get_of_cell hs' hb' (by rw [hid']; exact hid)
    rw [hid'] at hget
    refine Or.inr (Or.inr ⟨fun hgone => hgone _ hget, ?_, ⟨hget, hmem, b', hb', ?_⟩⟩)
    · rintro ⟨_, _, c, hc, hpending⟩
      rw [hb'] at hc
      obtain rfl := Option.some.inj hc
      rw [hret', show b.undispatched.ret.forwardPending = false from hforward] at hpending
      cases hpending
    · rw [hret']

/-- No other bundle is forgotten while a bundle is handled. -/
theorem Handled.not_forgotten {room : Prop} (h : Handled False False room a s m s' m')
    (hs : Sound False False s m s.reassembly.flatten) {id' : UInt16} {x : Addr}
    (hforg : Forgotten s' id' x) : Forgotten s id' x := by
  obtain ⟨hget, hno⟩ := hforg
  rw [h.sound.rep.get] at hget
  have hm' : m' id' = some x := Except.ok.inj hget
  obtain ⟨sent, hout, hnew⟩ := h.grew
  rcases hnew id' x hm' with hm | hsent
  · refine ⟨by rw [hs.rep.get, hm], ?_⟩
    rintro (hq | hw)
    · exact hno (Or.inl (by rw [hout]; exact List.mem_append_left _ hq))
    · rcases h.left x hw with hmem | hnone
      · exact hno (Or.inr hmem)
      · exact h.sound.not_stored_of_none hnone id' hm'
  · exact absurd (Or.inl (by rw [hout]; exact List.mem_append_right _ hsent)) hno

/-- **No stranded bundle.**  A bundle that was received came to exactly one end, and no
bundle is forgotten, unless its custody is requested and possible; and then it is
stranded, if the custody manager refers to bundles at all. -/
theorem arrival_settled (P : Params) (env : Env) (s s' : Processor) (id : UInt16) (a : Addr)
    (b : Bundle) (h : Reachable P (fun _ _ _ => True) s)
    (habout : About s (.bundle id .incoming) .incoming a b) (hnew : b.ret = .none)
    (hrun : handleSignal P env s (.bundle id .incoming) = .ok s') :
    (¬ CustodyPossible env s a b → ArrivalSettled s s' id a) ∧
      (AcceptedLive s → (ArrivalSettled s s' id a ↔ ¬ CustodyPossible env s a b)) := by
  obtain ⟨m, hs⟩ := h.sound False False False.elim False.elim
  obtain ⟨id', hsig, hget, hb⟩ := habout
  obtain ⟨rfl, _⟩ := Signal.bundle.inj hsig
  have hm : m id = some a := by
    rw [hs.rep.get] at hget
    exact Except.ok.inj hget
  obtain rfl := hs.id_eq hb hm
  have hid : b.id ≠ invId := by
    intro hinv
    exact hs.not_stored hb hinv _ hm
  have hrecv : bundleReceive P env s a = .ok s' := by
    rw [← hrun, handleSignal, hget]
    rfl
  obtain ⟨m', hh, hsettled, _⟩ := (bundleReceive_spec hs hb False.elim False.elim
    False.elim).of_ok hrecv
  have hothers : ∀ id' x, x ≠ a → Forgotten s' id' x → Forgotten s id' x :=
    fun _ _ _ hforg => hh.not_forgotten hs hforg
  have hgone : s'.bundles.cells a = none → ArrivalSettled s s' b.id a := by
    intro hnone
    have hremoved := removed_of_none hh.sound hnone
    exact ⟨Or.inl ⟨hremoved, fun hq => hremoved _ hq.1, fun hw => hremoved _ hw.1⟩, hothers⟩
  have hundis : b.undispatched.ret = .none := by
    unfold Bundle.undispatched
    rw [hnew]
    rfl
  have hwhen : ¬ CustodyPossible env s a b → ArrivalSettled s s' b.id a := by
    intro hno
    rw [← stranded_iff] at hno
    have hend := hsettled (Or.inr hno)
    cases hcourse : receptionCourse env s a b with
    | expired =>
        rw [hcourse] at hend
        exact hgone hend
    | unintelligible =>
        rw [hcourse] at hend
        exact hgone hend
    | redundant =>
        rw [hcourse] at hend
        exact hgone (hend hundis)
    | refused =>
        rw [hcourse] at hend
        exact hgone (hend hundis)
    | stranded => exact absurd hcourse hno
    | dispatched b₁ =>
        rw [hcourse] at hend
        obtain ⟨blocksBefore, blocksAfter, rfl⟩ := received_of_dispatched hcourse
        exact ⟨ends_of_dispatched hh.sound hid hundis hend, hothers⟩
  refine ⟨hwhen, fun hlive => ⟨fun hset hcust => ?_, hwhen⟩⟩
  have hend := hsettled (Or.inl hlive)
  rw [stranded_iff.mpr hcust] at hend
  obtain ⟨b', hb', hid', hret'⟩ := hend
  have hget' := get_of_cell hh.sound hb' (by rw [hid']; exact hid)
  rw [hid'] at hget'
  have hforward : b'.ret.forwardPending = false := by
    rw [hret', Bundle.arrived, hnew]
    rfl
  have hreass : b'.ret.reassemblyPending = false := by
    rw [hret', Bundle.arrived, hnew]
    rfl
  rcases hset.1 with ⟨hremoved, _⟩ | ⟨_, ⟨_, _, c, hc, hpending⟩, _⟩ |
    ⟨_, _, _, _, c, hc, hpending⟩
  · exact hremoved _ hget'
  · rw [hb'] at hc
    obtain rfl := Option.some.inj hc
    rw [hforward] at hpending
    cases hpending
  · rw [hb'] at hc
    obtain rfl := Option.some.inj hc
    rw [hreass] at hpending
    cases hpending

end Arrival

/-- A bundle for another node is queued. -/
theorem arrival_settled_forwarded :
    ∃ s s', Reachable smallNode (fun _ _ _ => True) s ∧
      handleSignal smallNode calm s (.bundle 1 .incoming) = .ok s' ∧ s'.outQueue = [1] ∧
      ArrivalSettled s s' 1 0 := by
  have h := reachable_holding (fun _ _ _ => True) (b := note "dtn://x/a" []) rfl
  have habout : About (holding (note "dtn://x/a" [])) (.bundle 1 .incoming) .incoming 0
      { note "dtn://x/a" [] with id := 1 } := ⟨1, rfl, rfl, rfl⟩
  refine ⟨_, handling (holding (note "dtn://x/a" [])) (.bundle 1 .incoming), h, rfl, rfl, ?_⟩
  apply (arrival_settled smallNode calm _ _ 1 0 _ h habout rfl rfl).1
  rw [← stranded_iff]
  decide +kernel

/-- A bundle of version 6 whose custody is requested. -/
def entrusted : Bundle :=
  { note "dtn://x/a" [] with
    protocolVersion := 6
    procFlags := flagCustodyTransferRequested ||| flagSingletonEndpoint
    currentCustodian := eidNone }

/-- A bundle whose custody is requested stays where it is. -/
theorem custody_request_stranded :
    ¬ ∀ (P : Params) (env : Env) (s s' : Processor) (id : UInt16) (a : Addr) (b : Bundle),
      Reachable P (fun _ _ _ => True) s →
      About s (.bundle id .incoming) .incoming a b → b.ret = .none →
      handleSignal P env s (.bundle id .incoming) = .ok s' → ArrivalSettled s s' id a := by
  intro hall
  have h := reachable_holding (fun _ _ _ => True) (b := entrusted) rfl
  have habout : About (holding entrusted) (.bundle 1 .incoming) .incoming 0
      { entrusted with id := 1 } := ⟨1, rfl, rfl, rfl⟩
  obtain ⟨hset, _⟩ := hall smallNode calm _
    (handling (holding entrusted) (.bundle 1 .incoming)) 1 0 _ h habout rfl rfl
  have hget : bundleStorageGet (handling (holding entrusted) (.bundle 1 .incoming)).store 1 =
      .ok (some 0) := rfl
  rcases hset with ⟨hremoved, _⟩ | ⟨_, ⟨_, ⟨sent, hout, hmem⟩, _⟩, _⟩ | ⟨_, _, _, hmem, _⟩
  · exact hremoved 1 hget
  · obtain rfl : [] = sent := hout
    cases hmem
  · cases hmem

end BundleProcessor
