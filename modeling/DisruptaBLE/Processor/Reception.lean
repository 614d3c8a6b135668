import DisruptaBLE.Processor.Course

/-!
# The reception of a bundle

What `bundle_receive` decides about a bundle, as a function of the state before, and its
specification.  `receptionCourse` names the outcome: the bundle is deleted because it is
expired or cannot be processed; it is handed to `bundle_dispatch`; or, if its custody is
requested, it is discarded as redundant, refused, or left alone.  In the last case
nothing is done with the bundle, and nobody will come back to it.
-/

namespace BundleProcessor

open PtrHeap BundleStorage Outcome

/-! ## Decisions -/

/-- The blocks that the loop of `bundle_receive` keeps, unless it deletes the bundle. -/
def keptBlocks : Bool → List Block → Option (List Block)
  | _, [] => some []
  | true, x :: xs => (keptBlocks false xs).map (x :: ·)
  | false, x :: xs =>
      if x.type = blockTypePayload then (keptBlocks false xs).map (x :: ·)
      else if hasFlag x.flags blockFlagDeleteBundleIfUnproc then none
      else if hasFlag x.flags blockFlagDiscardIfUnproc then keptBlocks true xs
      else (keptBlocks false xs).map
        ({ x with flags := x.flags ||| blockFlagFwdUnproc } :: ·)

/-- A bundle with the constraint that its dispatch is pending. -/
def Bundle.arrived (b : Bundle) : Bundle :=
  { b with ret := { b.ret with dispatchPending := true } }

/-- A bundle after the block loop, unless it is deleted. -/
def Bundle.received (b : Bundle) : Option Bundle :=
  match keptBlocks false b.blocksBefore, keptBlocks false b.blocksAfter with
  | some blocksBefore, some blocksAfter => some { b.arrived with blocksBefore, blocksAfter }
  | _, _ => none

/-- Whether custody of a bundle is requested, in a version that knows of custody. -/
def asksForCustody (b : Bundle) : Bool :=
  hasFlag b.procFlags flagCustodyTransferRequested && b.protocolVersion = 6

/-- The test of `find` in the custody manager. -/
def custodyMatch (creationTimestampMs : UInt64) (sequenceNumber : UInt16) (source : CStr)
    (fragmentOffset fragmentLength : UInt32) (c : Bundle) : Bool :=
  c.creationTimestampMs = creationTimestampMs && c.sequenceNumber = sequenceNumber.toUInt64 &&
    c.source = source &&
    (!c.isFragmented || (c.fragmentOffset = fragmentOffset && c.payloadLength = fragmentLength))

/-- Whether the custody manager has accepted a bundle like this one. -/
def redundant (s : Processor) (b : Bundle) : Bool :=
  s.accepted.any fun x => ((s.bundles.cells x).map (custodyMatch b.creationTimestampMs
    b.sequenceNumber.toUInt16 b.source b.fragmentOffset b.payloadLength)).getD false

/-- Whether the custody manager has room for a bundle. -/
def acceptable (s : Processor) (a : Addr) (b : Bundle) : Bool :=
  s.accepted.length < custodyMaxBundleCount && a ∉ s.accepted &&
    !(custodyMaxBundleSize < (bundleGetSerializedSize b).1 ||
      (b.protocolVersion = 6 && !hasFlag b.procFlags flagSingletonEndpoint))

/-- What `bundle_receive` does with a bundle. -/
inductive Reception where
  /-- The bundle is expired, and is deleted. -/
  | expired
  /-- A block cannot be processed, and the bundle is deleted. -/
  | unintelligible
  /-- Custody was accepted before, and the bundle is discarded. -/
  | redundant
  /-- Custody is not possible, and the bundle is deleted. -/
  | refused
  /-- Custody is possible, and nothing happens. -/
  | stranded
  /-- The bundle is dispatched. -/
  | dispatched (b : Bundle)
  deriving DecidableEq, Repr

/-- The course of a bundle from `bundle_receive` on. -/
def receptionCourse (env : Env) (s : Processor) (a : Addr) (b : Bundle) : Reception :=
  if expiredOnArrival env b then .expired
  else
    match b.received with
    | none => .unintelligible
    | some b =>
        if asksForCustody b then
          if redundant s b then .redundant
          else if !acceptable s a b then .refused
          else .stranded
        else .dispatched b

/-- The receptions that a careful state can take. -/
def ReceptionHarmless (P : Params) (env : Env) (s : Processor) (a : Addr) (b : Bundle) : Prop :=
  match receptionCourse env s a b with
  | .expired | .unintelligible | .refused => Deletable s a b.arrived
  | .redundant | .stranded => True
  | .dispatched b => DispatchHarmless P env s a b

/-- The references of the custody manager lead to bundles. -/
def AcceptedLive (s : Processor) : Prop := ∀ x ∈ s.accepted, ∃ b, s.bundles.cells x = some b

/-- Where a bundle is after its reception. -/
def Settled (s : Processor) (a : Addr) (b : Bundle) (s' : Processor) : Reception → Prop
  | .expired | .unintelligible => s'.bundles.cells a = none
  | .redundant | .refused => b.undispatched.ret = .none → s'.bundles.cells a = none
  | .stranded => ∃ b', s'.bundles.cells a = some b' ∧ b'.id = b.id ∧ b'.ret = b.arrived.ret
  | .dispatched b => Dispatched s a b s'

/-- Nothing is delivered, unless the bundle is dispatched to an agent. -/
def ReceptionUnheard (P : Params) (env : Env) (s : Processor) (a : Addr) (b : Bundle)
    (s' : Processor) : Prop :=
  (∃ b', receptionCourse env s a b = .dispatched b' ∧ Unheard P env s b' s') ∨
    s'.delivered = s.delivered

/-- `bundle_receive` up to the dispatch of the bundle. -/
def beforeDispatch (P : Params) (env : Env) (s : Processor) (a : Addr) :
    Except Fault Processor := do
  let s ← s.update a fun b => { b with ret := { b.ret with dispatchPending := true } }
  let b ← s.bundle a
  let s ← s.when (hasFlag b.procFlags flagReportReception) fun s =>
    sendStatusReport P env s a .received .noInfo
  let (blocksBefore, s) ← handleBlocks P env a false b.blocksBefore s
  let (blocksAfter, s) ← handleBlocks P env a false b.blocksAfter s
  s.update a fun b =>
    { b with blocksBefore := blocksBefore.getD [], blocksAfter := blocksAfter.getD [] }

/-- The memory that the reception of a fragment needs. -/
def ReceptionRoomy (P : Params) (env : Env) (s : Processor) (a : Addr) (b : Bundle) : Prop :=
  ∀ b', receptionCourse env s a b = .dispatched b' →
    dispatchCourse P env s.known b' = .fragment →
    ∀ s₁, beforeDispatch P env s a = .ok s₁ → DeliveryRoomy P env s₁ a

section Specs

variable {careful exact room : Prop} {P : Params} {env : Env} {s s₁ s' : Processor}
  {m m₁ m' : UInt16 → Option Addr} {frags : List Addr} {a : Addr} {b b₁ : Bundle}

/-- **The block loop** of `bundle_receive`. -/
theorem handleBlocks_spec (skip : Bool) (l : List Block)
    (hs : Sound careful exact s m s.reassembly.flatten) (hb : s.bundles.cells a = some b) :
    Ends (Tolerated careful) (handleBlocks P env a skip l s) fun r =>
      r.1 = keptBlocks skip l ∧ ∃ m', Sound careful exact r.2 m' r.2.reassembly.flatten ∧
        Traffic s m r.2 m' := by
  have hnil : ∃ m', Sound careful exact s m' s.reassembly.flatten ∧ Traffic s m s m' :=
    ⟨m, hs, .refl⟩
  induction l generalizing skip s m with
  | nil =>
      cases skip with
      | false => exact ⟨rfl, hnil⟩
      | true => exact ⟨rfl, hnil⟩
  | cons x xs ih =>
      have hkeep : ∀ (y : Block) {s m}, Sound careful exact s m s.reassembly.flatten →
          s.bundles.cells a = some b →
          Ends (Tolerated careful)
            (handleBlocks P env a false xs s >>= fun r => pure (r.1.map (y :: ·), r.2)) fun r =>
            r.1 = (keptBlocks false xs).map (y :: ·) ∧
            ∃ m', Sound careful exact r.2 m' r.2.reassembly.flatten ∧ Traffic s m r.2 m' := by
        intro y s m hs hb
        apply (ih false hs hb ⟨m, hs, .refl⟩).bind
        rintro ⟨kept, s'⟩ ⟨rfl, hrest⟩
        exact ⟨rfl, hrest⟩
      cases skip with
      | true => exact hkeep x hs hb
      | false =>
          unfold handleBlocks keptBlocks
          split
          · exact hkeep x hs hb
          apply (reportWhen_spec hs hb _ _ _).bind
          intro s₁ ⟨m₁, hs₁, htraf⟩
          have hb₁ := htraf.cell hb
          split
          · exact ⟨rfl, m₁, hs₁, htraf⟩
          split
          · apply (ih true hs₁ hb₁ ⟨m₁, hs₁, .refl⟩).mono
            rintro r ⟨hr, m', hs', htraf'⟩
            exact ⟨hr, m', hs', htraf.trans htraf'⟩
          · apply (hkeep _ hs₁ hb₁).mono
            rintro r ⟨hr, m', hs', htraf'⟩
            exact ⟨hr, m', hs', htraf.trans htraf'⟩

/-! ## Custody -/

theorem SoundParts.acceptedLive (hs : Sound careful exact s m frags) (hc : careful) :
    AcceptedLive s := by
  intro x hx
  obtain ⟨c, hcell, _⟩ := (hs.accepted hc).live x hx
  exact ⟨c, hcell⟩

theorem Led.acceptedLive (h : Led s m a b s₁ m₁) (hlive : AcceptedLive s) : AcceptedLive s₁ := by
  intro x hx
  rw [h.accepted] at hx
  by_cases hxa : x = a
  · exact ⟨b, by rw [hxa]; exact h.cell⟩
  · obtain ⟨c, hcell⟩ := hlive x hx
    exact ⟨c, by rw [h.others x (Heap.lt_bound_of_cell hcell) hxa]; exact hcell⟩

/-- `find` over references that lead to bundles. -/
theorem custodyFind_eq {l : List Addr} (ts : UInt64) (seq : UInt16) (source : CStr)
    (offset length : UInt32) (hlive : ∀ x ∈ l, ∃ b, s.bundles.cells x = some b) :
    custodyFind s ts seq source offset length l =
      .ok (l.find? fun x => ((s.bundles.cells x).map
        (custodyMatch ts seq source offset length)).getD false) := by
  induction l with
  | nil => rfl
  | cons x xs ih =>
      obtain ⟨c, hc⟩ := hlive x List.mem_cons_self
      have htest : (decide (c.creationTimestampMs = ts) &&
          decide (c.sequenceNumber = seq.toUInt64) && decide (c.source = source) &&
          (!c.isFragmented || decide (c.fragmentOffset = offset) &&
            decide (c.payloadLength = length))) = custodyMatch ts seq source offset length c := rfl
      unfold custodyFind
      rw [bundle_of_cell hc, ok_bind, ih fun y hy => hlive y (List.mem_cons_of_mem _ hy),
        List.find?_cons, hc, htest]
      cases hmatch : custodyMatch ts seq source offset length c with
      | true => simp [hmatch, pure, Except.pure]
      | false => simp [hmatch]

/-- A search of `find` without a result has seen all references. -/
theorem live_of_custodyFind_none {l : List Addr} {ts : UInt64} {seq : UInt16} {source : CStr}
    {offset length : UInt32} (h : custodyFind s ts seq source offset length l = .ok none) :
    ∀ x ∈ l, ∃ b, s.bundles.cells x = some b := by
  induction l with
  | nil => simp
  | cons y ys ih =>
      unfold custodyFind at h
      cases hy : s.bundles.cells y with
      | none =>
          rw [bundle_of_none hy] at h
          cases h
      | some c =>
          rw [bundle_of_cell hy, ok_bind] at h
          split at h
          · cases h
          · intro x hx
            rcases List.mem_cons.mp hx with rfl | hx
            · exact ⟨c, hy⟩
            · exact ih h x hx

/-- **`custody_manager_has_redundant_bundle`**.  Without a redundant bundle all references
were followed, so they lead to bundles. -/
theorem custodyManagerHasRedundantBundle_spec (hb : s.bundles.cells a = some b)
    (hlive : careful → AcceptedLive s) :
    Ends (Tolerated careful) (custodyManagerHasRedundantBundle s a) fun r =>
      (AcceptedLive s → r = redundant s b) ∧ (r = false → AcceptedLive s) := by
  unfold custodyManagerHasRedundantBundle
  apply ends_of_eq (bundle_of_cell hb)
  by_cases h : AcceptedLive s
  · rw [custodyFind_eq _ _ _ _ _ h]
    refine ⟨fun _ => ?_, fun _ => h⟩
    rw [redundant, Bool.eq_iff_iff, List.find?_isSome, List.any_eq_true]
  · cases hfind : custodyFind s b.creationTimestampMs b.sequenceNumber.toUInt16 b.source
        b.fragmentOffset b.payloadLength s.accepted with
    | error f => exact (custodyFind_spec careful _ _ _ _ _ hlive).of_error hfind
    | ok found =>
        cases found with
        | none => exact absurd (live_of_custodyFind_none hfind) h
        | some x => exact ⟨fun hlive' => absurd hlive' h, nofun⟩

theorem bundleGetSerializedSize_snd (b : Bundle) :
    ∃ n, (bundleGetSerializedSize b).2 = { b with primaryBlockLength := n } := by
  unfold bundleGetSerializedSize
  split
  · exact ⟨_, rfl⟩
  split
  · exact ⟨b.primaryBlockLength, rfl⟩
  · exact ⟨b.primaryBlockLength, rfl⟩

/-- **`custody_manager_storage_is_acceptable`**: at most the primary block length of the
bundle changes. -/
theorem custodyManagerStorageIsAcceptable_eq (hb : s.bundles.cells a = some b) :
    custodyManagerStorageIsAcceptable s a = .ok (acceptable s a b, s) ∨
    ∃ n, custodyManagerStorageIsAcceptable s a =
      .ok (acceptable s a b, s.put a { b with primaryBlockLength := n }) := by
  unfold custodyManagerStorageIsAcceptable acceptable
  rw [bundle_of_cell hb, ok_bind]
  by_cases hlen : custodyMaxBundleCount ≤ s.accepted.length
  · refine Or.inl ?_
    simp [hlen, Nat.not_lt.mpr hlen]
    rfl
  by_cases hmem : a ∈ s.accepted
  · refine Or.inl ?_
    simp [hlen, hmem]
    rfl
  · obtain ⟨n, hn⟩ := bundleGetSerializedSize_snd b
    refine Or.inr ⟨n, ?_⟩
    simp only [hlen, hmem, if_false]
    rw [update_of_cell hb, ok_bind, hn]
    simp [Nat.lt_of_not_le hlen]
    rfl

theorem redundant_of_led (h : Led s m a b₁ s₁ m₁) (hb : s.bundles.cells a = some b)
    (hsame : ∀ ts seq source offset length, custodyMatch ts seq source offset length b₁ =
      custodyMatch ts seq source offset length b)
    (hred : redundant s b₁ = true) : redundant s₁ b₁ = true := by
  unfold redundant at hred ⊢
  rw [h.accepted]
  obtain ⟨x, hx, hm⟩ := List.any_eq_true.mp hred
  refine List.any_eq_true.mpr ⟨x, hx, ?_⟩
  by_cases hxa : x = a
  · rw [hxa, hb, Option.map_some, ← hsame] at hm
    rw [hxa, h.cell, Option.map_some]
    exact hm
  · cases hcell : s.bundles.cells x with
    | none => simp [hcell] at hm
    | some c =>
        rw [h.others x (Heap.lt_bound_of_cell hcell) hxa]
        exact hm

/-- A state with records that were sent has the same redundant bundles, if the references
of the custody manager lead to bundles. -/
theorem redundant_led (h : Led s m a b₁ s₁ m₁) (hb : s.bundles.cells a = some b)
    (hlive : AcceptedLive s)
    (hsame : ∀ ts seq source offset length, custodyMatch ts seq source offset length b₁ =
      custodyMatch ts seq source offset length b) :
    redundant s₁ b₁ = redundant s b₁ := by
  rw [Bool.eq_iff_iff]
  refine ⟨fun hred => ?_, redundant_of_led h hb hsame⟩
  unfold redundant at hred ⊢
  rw [h.accepted] at hred
  obtain ⟨x, hx, hm⟩ := List.any_eq_true.mp hred
  refine List.any_eq_true.mpr ⟨x, hx, ?_⟩
  by_cases hxa : x = a
  · rw [hxa, h.cell, Option.map_some, hsame] at hm
    rw [hxa, hb, Option.map_some]
    exact hm
  · obtain ⟨c, hcell⟩ := hlive x hx
    rw [h.others x (Heap.lt_bound_of_cell hcell) hxa] at hm
    exact hm

/-! ## Reception -/

/-- A custody signal. -/
theorem signalLed_spec (hs₁ : Sound careful exact s₁ m₁ s₁.reassembly.flatten)
    (hled : Led s m a b₁ s₁ m₁) (signal : CustodySignal) :
    Ends (Tolerated careful) (sendCustodySignal P env s₁ a signal) fun s₂ => ∃ m₂,
      Sound careful exact s₂ m₂ s₂.reassembly.flatten ∧ Led s m a b₁ s₂ m₂ := by
  apply (sendCustodySignal_spec hs₁ hled.cell signal).mono
  intro s₂ ⟨m₂, hs₂, htraf⟩
  refine ⟨m₂, ?_, hled.traffic htraf⟩
  rw [htraf.lists.reassembly]
  exact hs₂

/-- What the block loop leaves as it is. -/
theorem received_eq (h : b.received = some b₁) :
    ∃ blocksBefore blocksAfter, b₁ = { b.arrived with blocksBefore, blocksAfter } := by
  unfold Bundle.received at h
  split at h
  · exact ⟨_, _, (Option.some.inj h).symm⟩
  · cases h

/-- The bundle that is dispatched at the end of a reception. -/
theorem received_of_course (h : receptionCourse env s a b = .dispatched b₁) :
    b.received = some b₁ ∧ asksForCustody b₁ = false := by
  unfold receptionCourse at h
  split at h
  · cases h
  · cases hrec : b.received with
    | none =>
        rw [hrec] at h
        cases h
    | some b₂ =>
        rw [hrec] at h
        dsimp only at h
        split at h
        · split at h
          · cases h
          · split at h
            · cases h
            · cases h
        · next hasks =>
          obtain rfl := Reception.dispatched.inj h
          exact ⟨rfl, (Bool.not_eq_true _).mp hasks⟩

theorem received_of_dispatched (h : receptionCourse env s a b = .dispatched b₁) :
    ∃ blocksBefore blocksAfter, b₁ = { b.arrived with blocksBefore, blocksAfter } :=
  received_eq (received_of_course h).1

theorem Deletable.of_ret (h : Deletable s a b) (hret : b₁.ret = b.ret) : Deletable s a b₁ := by
  unfold Deletable
  rw [hret]
  exact h

/-- The check of the custody manager leaves the bundle alone, up to its length field. -/
theorem storageIsAcceptable_led (hs₁ : Sound careful exact s₁ m₁ s₁.reassembly.flatten)
    (hled : Led s m a b₁ s₁ m₁) :
    ∃ s₂ b₂, custodyManagerStorageIsAcceptable s₁ a = .ok (acceptable s a b₁, s₂) ∧
      Sound careful exact s₂ m₁ s₂.reassembly.flatten ∧ Led s m a b₂ s₂ m₁ ∧
      b₂.id = b₁.id ∧ b₂.ret = b₁.ret := by
  have hacc : acceptable s₁ a b₁ = acceptable s a b₁ := by
    unfold acceptable
    rw [hled.accepted]
  rw [← hacc]
  rcases custodyManagerStorageIsAcceptable_eq hled.cell with heq | ⟨n, heq⟩
  · exact ⟨s₁, b₁, heq, hs₁, hled, rfl, rfl⟩
  · exact ⟨_, _, heq, hs₁.set_same hled.cell rfl rfl rfl, hled.put _ rfl, rfl, rfl⟩

/-- The refusal of a redundant bundle. -/
theorem refuseRedundant_spec (hs : Sound careful exact s m s.reassembly.flatten)
    (hs₁ : Sound careful exact s₁ m₁ s₁.reassembly.flatten)
    (hled : Led s m a b₁ s₁ m₁) (hfr : careful → a ∉ s.reassembly.flatten) :
    Ends (Tolerated careful)
      (do
        let s ← sendCustodySignal P env s₁ a ⟨false, csReasonRedundantReception⟩
        let s ← s.update a fun b => { b with ret := { b.ret with dispatchPending := false } }
        let b ← s.bundle a
        if b.ret = .none then bundleDiscard s a else pure s)
      fun s' => ∃ m', Handled careful exact True a s m s' m' ∧
        (b₁.undispatched.ret = .none → s'.bundles.cells a = none) ∧
        s'.delivered = s.delivered := by
  apply (signalLed_spec hs₁ hled _).bind
  intro s₂ ⟨m₂, hs₂, hled₂⟩
  have hs₃ : Sound careful exact (s₂.put a b₁.undispatched) m₂ s₂.reassembly.flatten := by
    apply hs₂.set_ret hled₂.cell
    · intro hc h
      have hcust := (hs₂.accepted hc).ret h hled₂.cell
      exact hcust
    · intro hc h
      rw [hled₂.reassembly] at h
      exact absurd h (hfr hc)
  have hled₃ := hled₂.put b₁.undispatched rfl
  apply ends_of_eq (update_of_cell hled₂.cell _)
  apply ends_of_eq (bundle_of_cell hled₃.cell)
  split
  · next hnone =>
    apply (bundleDiscard_clean hs₃ hled₃.cell (fun _ => hnone)).mono
    intro s' ⟨m', hh, hdisc⟩
    exact ⟨m', hled₃.handled hs hh, fun _ => hdisc.self,
      hdisc.lists.delivered.trans hled₃.delivered⟩
  · next hsome =>
    exact ⟨m₂, hled₃.done hs hs₃, fun h => absurd h hsome, hled₃.delivered⟩

/-- A bundle whose custody is requested, after the block loop. -/
theorem custody_spec (hs : Sound careful exact s m s.reassembly.flatten)
    (hb : s.bundles.cells a = some b) (hfr : careful → a ∉ s.reassembly.flatten)
    (hs₁ : Sound careful exact s₁ m₁ s₁.reassembly.flatten) (hled : Led s m a b₁ s₁ m₁)
    (hrec : b.received = some b₁) (hasks : asksForCustody b₁ = true)
    (hexp : expiredOnArrival env b = false)
    (hsafe : careful → ReceptionHarmless P env s a b) :
    Ends (Tolerated careful) (custodyOrDispatch P env s₁ a) fun s' => ∃ m',
      Handled careful exact (ReceptionRoomy P env s a b) a s m s' m' ∧
      (AcceptedLive s ∨ receptionCourse env s a b ≠ .stranded →
        Settled s a b s' (receptionCourse env s a b)) ∧
      ReceptionUnheard P env s a b s' := by
  obtain ⟨blocksBefore, blocksAfter, hb₁⟩ := received_eq hrec
  have hret₁ : b₁.ret = b.arrived.ret := by rw [hb₁]
  have hid₁ : b₁.id = b.id := by rw [hb₁]; rfl
  have hcourse : receptionCourse env s a b =
      if redundant s b₁ then .redundant else if !acceptable s a b₁ then .refused
      else .stranded := by
    simp only [receptionCourse, hexp, hrec, hasks, Bool.false_eq_true, if_false, if_true]
  unfold ReceptionHarmless at hsafe
  unfold custodyOrDispatch
  apply ends_of_eq (bundle_of_cell hled.cell)
  rw [show (hasFlag b₁.procFlags flagCustodyTransferRequested && decide (b₁.protocolVersion = 6))
    = true from hasks, if_pos rfl]
  apply (custodyManagerHasRedundantBundle_spec hled.cell
    (fun hc => hled.acceptedLive (hs.acceptedLive hc))).bind
  intro r hr
  have hsame : ∀ ts seq source offset length, custodyMatch ts seq source offset length b₁ =
      custodyMatch ts seq source offset length b := by
    intro ts seq source offset length
    rw [hb₁]
    rfl
  have hlive_r : AcceptedLive s → r = redundant s b₁ := by
    intro hlive
    rw [hr.1 (hled.acceptedLive hlive)]
    exact redundant_led hled hb hlive hsame
  cases r with
  | true =>
      rw [if_pos rfl]
      apply (refuseRedundant_spec hs hs₁ hled hfr).mono
      intro s' ⟨m', hh, hgone, hdeliv⟩
      have hgone' : b.undispatched.ret = .none → s'.bundles.cells a = none := by
        intro hnone
        apply hgone
        unfold Bundle.undispatched
        rw [hret₁]
        exact hnone
      refine ⟨m', hh.any, fun hcond => ?_, Or.inr hdeliv⟩
      rw [hcourse] at hcond ⊢
      -- a reference to no bundle may have come to lead to a report meanwhile
      cases hred : redundant s b₁ with
      | true => exact hgone'
      | false =>
          cases hacc : acceptable s a b₁ with
          | false => exact hgone'
          | true =>
              rw [hred, hacc] at hcond
              rcases hcond with hlive | hno
              · rw [hred] at hlive_r
                exact absurd (hlive_r hlive) (by simp)
              · exact absurd rfl hno
  | false =>
      have hred : redundant s b₁ = false := by
        cases hred : redundant s b₁ with
        | false => rfl
        | true => exact ((hr.1 (hr.2 rfl)).trans (redundant_of_led hled hb hsame hred)).symm
      rw [hred] at hcourse
      rw [if_neg (by simp)]
      obtain ⟨s₂, b₂, heq, hs₂, hled₂, hid₂, hret₂⟩ := storageIsAcceptable_led hs₁ hled
      rw [heq, ok_bind]
      cases hacc : acceptable s a b₁ with
      | false =>
          rw [hacc] at hcourse
          apply (signalLed_spec hs₂ hled₂ _).bind
          intro s₃ ⟨m₃, hs₃, hled₃⟩
          have hdel : careful → Deletable s a b₂ := by
            intro hc
            have hharm := hsafe hc
            rw [hcourse] at hharm
            exact Deletable.of_ret hharm (hret₂.trans hret₁)
          apply (deleteLed_spec hs hs₃ hled₃ hfr hdel _).mono
          intro s' ⟨m', hh, hgone, hdeliv⟩
          refine ⟨m', hh.any, fun _ => ?_, Or.inr hdeliv⟩
          rw [hcourse]
          exact fun _ => hgone
      | true =>
          rw [hacc] at hcourse
          refine ⟨m₁, hled₂.done hs hs₂, fun _ => ?_, Or.inr hled₂.delivered⟩
          rw [hcourse]
          exact ⟨b₂, hled₂.cell, hid₂.trans hid₁, hret₂.trans hret₁⟩

theorem Led.dispatchHarmless (hled : Led s m a b₁ s₁ m₁)
    (hs : Sound careful exact s m s.reassembly.flatten) (hc : careful)
    (hb : s.bundles.cells a = some b) (hknown : s₁.known = s.known)
    (hrec : b.received = some b₁) (hsafe : DispatchHarmless P env s a b₁) :
    DispatchHarmless P env s₁ a b₁ := by
  obtain ⟨blocksBefore, blocksAfter, hb₁⟩ := received_eq hrec
  unfold DispatchHarmless at hsafe ⊢
  rw [hknown]
  cases hcourse : dispatchCourse P env s.known b₁ with
  | duplicate =>
      rw [hcourse] at hsafe
      exact hsafe
  | undeliverable =>
      rw [hcourse] at hsafe
      exact hled.deletable hsafe
  | fragment =>
      rw [hcourse] at hsafe
      exact ⟨hsafe.1, hsafe.2.1,
        hled.fragmentsHarmless hs hc hb (by rw [hb₁]; rfl) hsafe.2.2⟩
  | delivered =>
      rw [hcourse] at hsafe
      have hret : b₁.ret.custodyAccepted = false :=
        congrArg RetConstraints.custodyAccepted hsafe.1
      have hcust : b.ret.custodyAccepted = false := by
        rw [hb₁] at hret
        exact hret
      exact ⟨hsafe.1, hled.aduHarmless hs hc (hs.not_accepted hb hcust hc) hsafe.2⟩
  | hopLimitExceeded =>
      rw [hcourse] at hsafe
      exact hsafe
  | forwarded => trivial

/-- The end of `bundle_receive`, for a bundle that passed the block loop. -/
theorem receiveBlocks_spec (hs : Sound careful exact s m s.reassembly.flatten)
    (hb : s.bundles.cells a = some b) (hfr : careful → a ∉ s.reassembly.flatten)
    (hs₁ : Sound careful exact s₁ m₁ s₁.reassembly.flatten) (hled : Led s m a b₁ s₁ m₁)
    (hknown : s₁.known = s.known) (hrec : b.received = some b₁)
    (hexp : expiredOnArrival env b = false) (hbefore : beforeDispatch P env s a = .ok s₁)
    (hsafe : careful → ReceptionHarmless P env s a b)
    (hlen : exact → ∀ b', receptionCourse env s a b = .dispatched b' →
      dispatchCourse P env s.known b' = .delivered → b'.payloadLength = 0) :
    Ends (Tolerated careful) (custodyOrDispatch P env s₁ a) fun s' => ∃ m',
      Handled careful exact (ReceptionRoomy P env s a b) a s m s' m' ∧
      (AcceptedLive s ∨ receptionCourse env s a b ≠ .stranded →
        Settled s a b s' (receptionCourse env s a b)) ∧
      ReceptionUnheard P env s a b s' := by
  cases hasks : asksForCustody b₁ with
  | true => exact custody_spec hs hb hfr hs₁ hled hrec hasks hexp hsafe
  | false =>
      have hcourse : receptionCourse env s a b = .dispatched b₁ := by
        simp only [receptionCourse, hexp, hrec, hasks, Bool.false_eq_true, if_false]
      unfold custodyOrDispatch
      apply ends_of_eq (bundle_of_cell hled.cell)
      rw [show (hasFlag b₁.procFlags flagCustodyTransferRequested &&
        decide (b₁.protocolVersion = 6)) = false from hasks, if_neg (by simp)]
      have hfr₁ : careful → a ∉ s₁.reassembly.flatten := by
        rw [hled.reassembly]
        exact hfr
      have hsafe₁ : careful → DispatchHarmless P env s₁ a b₁ := by
        intro hc
        have hharm := hsafe hc
        unfold ReceptionHarmless at hharm
        rw [hcourse] at hharm
        exact hled.dispatchHarmless hs hc hb hknown hrec hharm
      have hlen₁ : exact → dispatchCourse P env s₁.known b₁ = .delivered →
          b₁.payloadLength = 0 := by
        intro he
        rw [hknown]
        exact hlen he b₁ hcourse
      apply (bundleDispatch_spec hs₁ hled.cell hfr₁ hsafe₁ hlen₁).mono
      intro s' ⟨m', hh, hdisp, hunheard⟩
      have hroom : ReceptionRoomy P env s a b →
          dispatchCourse P env s₁.known b₁ = .fragment → DeliveryRoomy P env s₁ a := by
        intro h
        rw [hknown]
        intro hfragment
        exact h b₁ hcourse hfragment s₁ hbefore
      refine ⟨m', hled.handled hs (hh.mono hroom), fun _ => ?_, Or.inl ⟨b₁, hcourse, ?_⟩⟩
      · rw [hcourse]
        exact hdisp.of_grew hled.grew
      · unfold Unheard at hunheard ⊢
        rw [hknown, hled.delivered] at hunheard
        exact hunheard

/-- `bundle_receive` up to the dispatch, from the runs of its parts. -/
theorem beforeDispatch_of_runs {s₂ s₃ : Processor} {blocksBefore blocksAfter : List Block}
    (hb : s.bundles.cells a = some b)
    (hrun₁ : (s.put a b.arrived).when (hasFlag b.procFlags flagReportReception)
      (fun s => sendStatusReport P env s a .received .noInfo) = .ok s₁)
    (hrun₂ : handleBlocks P env a false b.blocksBefore s₁ = .ok (some blocksBefore, s₂))
    (hrun₃ : handleBlocks P env a false b.blocksAfter s₂ = .ok (some blocksAfter, s₃))
    (hcell : s₃.bundles.cells a = some b.arrived) :
    beforeDispatch P env s a = .ok (s₃.put a { b.arrived with blocksBefore, blocksAfter }) := by
  have hupdate : s.update a (fun b => { b with ret := { b.ret with dispatchPending := true } }) =
      .ok (s.put a b.arrived) := update_of_cell hb _
  unfold beforeDispatch
  rw [hupdate, ok_bind, bundle_of_cell (put_self _ _ _), ok_bind,
    show Processor.when _ (hasFlag b.arrived.procFlags _) _ = _ from hrun₁, ok_bind,
    show handleBlocks P env a false b.arrived.blocksBefore s₁ = _ from hrun₂, ok_bind]
  dsimp only
  rw [show handleBlocks P env a false b.arrived.blocksAfter s₂ = _ from hrun₃, ok_bind]
  exact update_of_cell hcell _

/-- **`bundle_receive`**. -/
theorem bundleReceive_spec (hs : Sound careful exact s m s.reassembly.flatten)
    (hb : s.bundles.cells a = some b) (hfr : careful → a ∉ s.reassembly.flatten)
    (hsafe : careful → ReceptionHarmless P env s a b)
    (hlen : exact → ∀ b', receptionCourse env s a b = .dispatched b' →
      dispatchCourse P env s.known b' = .delivered → b'.payloadLength = 0) :
    Ends (Tolerated careful) (bundleReceive P env s a) fun s' => ∃ m',
      Handled careful exact (ReceptionRoomy P env s a b) a s m s' m' ∧
      (AcceptedLive s ∨ receptionCourse env s a b ≠ .stranded →
        Settled s a b s' (receptionCourse env s a b)) ∧
      ReceptionUnheard P env s a b s' := by
  -- both early ends of the reception delete the bundle
  have hdelete : ∀ {s₁ m₁} (course : Reception) (reason : ReportReason),
      course = .expired ∨ course = .unintelligible → receptionCourse env s a b = course →
      Sound careful exact s₁ m₁ s₁.reassembly.flatten → Led s m a b.arrived s₁ m₁ →
      Ends (Tolerated careful) (bundleDelete P env s₁ a reason) fun s' => ∃ m',
        Handled careful exact (ReceptionRoomy P env s a b) a s m s' m' ∧
        (AcceptedLive s ∨ receptionCourse env s a b ≠ .stranded →
          Settled s a b s' (receptionCourse env s a b)) ∧
        ReceptionUnheard P env s a b s' := by
    intro s₁ m₁ course reason hearly hcourse hs₁ hled
    have hdel : careful → Deletable s a b.arrived := by
      intro hc
      have hharm := hsafe hc
      unfold ReceptionHarmless at hharm
      rcases hearly with rfl | rfl
      · rw [hcourse] at hharm
        exact hharm
      · rw [hcourse] at hharm
        exact hharm
    apply (deleteLed_spec hs hs₁ hled hfr hdel reason).mono
    intro s' ⟨m', hh, hgone, hdeliv⟩
    refine ⟨m', hh.any, fun _ => ?_, Or.inr hdeliv⟩
    rcases hearly with rfl | rfl
    · rw [hcourse]
      exact hgone
    · rw [hcourse]
      exact hgone
  unfold bundleReceive
  apply ends_of_eq (update_of_cell hb _)
  have hs₀ : Sound careful exact (s.put a b.arrived) m s.reassembly.flatten :=
    hs.set_ret hb _ (fun hc h => (hs.accepted hc).ret h hb) (fun hc h => absurd h (hfr hc))
  have hled₀ := (Led.refl (m := m) hb).put b.arrived rfl
  apply ends_of_eq (bundle_of_cell hled₀.cell)
  apply (reportWhen_spec (s := s.put a b.arrived) hs₀ hled₀.cell _ _ _).bind_of_ok
  intro s₁ hrun₁ ⟨m₁, hs₁, htraf₁⟩
  have hled₁ := hled₀.traffic htraf₁
  have hknown₁ : s₁.known = s.known := htraf₁.lists.known
  cases hexp : expiredOnArrival env b with
  | true =>
      rw [show expiredOnArrival env b.arrived = true from hexp, if_pos rfl]
      exact hdelete .expired _ (Or.inl rfl) (by simp [receptionCourse, hexp]) hs₁ hled₁
  | false =>
      rw [show expiredOnArrival env b.arrived = false from hexp, if_neg (by simp)]
      apply (handleBlocks_spec false b.blocksBefore hs₁ hled₁.cell).bind_of_ok
      rintro ⟨kept₁, s₂⟩ hrun₂ ⟨hkept₁, m₂, hs₂, htraf₂⟩
      have hled₂ := hled₁.traffic htraf₂
      have hknown₂ : s₂.known = s.known := htraf₂.lists.known.trans hknown₁
      cases kept₁ with
      | none =>
          refine hdelete .unintelligible _ (Or.inr rfl) ?_ hs₂ hled₂
          simp [receptionCourse, hexp, Bundle.received, ← hkept₁]
      | some blocksBefore =>
          apply (handleBlocks_spec false b.blocksAfter hs₂ hled₂.cell).bind_of_ok
          rintro ⟨kept₂, s₃⟩ hrun₃ ⟨hkept₂, m₃, hs₃, htraf₃⟩
          have hled₃ := hled₂.traffic htraf₃
          have hknown₃ : s₃.known = s.known := htraf₃.lists.known.trans hknown₂
          cases kept₂ with
          | none =>
              refine hdelete .unintelligible _ (Or.inr rfl) ?_ hs₃ hled₃
              simp [receptionCourse, hexp, Bundle.received, ← hkept₁, ← hkept₂]
          | some blocksAfter =>
              apply ends_of_eq (update_of_cell hled₃.cell _)
              have hrec : b.received = some { b.arrived with blocksBefore, blocksAfter } := by
                simp [Bundle.received, ← hkept₁, ← hkept₂]
              have hs₄ : Sound careful exact
                  (s₃.put a { b.arrived with blocksBefore, blocksAfter }) m₃
                  s₃.reassembly.flatten := hs₃.set_same hled₃.cell rfl rfl rfl
              have hbefore := beforeDispatch_of_runs hb hrun₁ hrun₂ hrun₃ hled₃.cell
              exact receiveBlocks_spec hs hb hfr hs₄ (hled₃.put _ rfl) hknown₃ hrec hexp hbefore
                hsafe hlen

end Specs

end BundleProcessor
