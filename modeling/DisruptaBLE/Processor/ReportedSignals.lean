import DisruptaBLE.Processor.Reports

/-!
# The reports of a signal

`handleBundleSignal_told`: the handling of a signal generates no other reports than the
ones that `SignalAsks` names, all of them are about the bundle of the signal, and after a
report of its deletion the bundle is gone.

A handler reports at several points, and goes on after each of them.  `Filed` collects
what was reported on the way, and `Told` is the account at the end.
-/

namespace BundleProcessor

open PtrHeap BundleStorage Outcome

section Told

variable {P : Params} {env : Env} {s s₁ s' : Processor} {m m₁ : UInt16 → Option Addr}
  {a : Addr} {b b₁ : Bundle}

/-! ## Forwarding and reassembly -/

theorem hopCountValidation_silent (del : Deletion) (s : Processor) (a : Addr) :
    Ends (Tolerated False) (hopCountValidationWith del P env s a) fun r =>
      r.1 = true → SameLogs s r.2 := by
  unfold hopCountValidationWith
  apply ends_read
  intro b _
  cases findBlockByType b.blocks blockTypeHopCount with
  | none => exact fun _ => .refl
  | some block =>
      dsimp only
      cases P.hopCountParse block.data.bytes with
      | none => exact fun _ => .refl
      | some hopCount =>
          dsimp only
          split
          · apply (ends_any _).bind
            intro s₁ _
            exact nofun
          · unfold malloc
            cases env.malloc s.requests with
            | none => exact fun _ => ⟨rfl, rfl, rfl, rfl⟩
            | some gap =>
                apply (silent_update _ a _).bind
                intro s₁ hlogs _
                exact ⟨hlogs.reports, hlogs.administered, hlogs.delivered, hlogs.agents⟩

/-- `bundle_forward` without a timeout reports nothing: a bundle whose hop limit is
exceeded is reported as deleted, but then used again. -/
theorem bundleForward_silent (hs : Sound False False s m s.reassembly.flatten)
    (hb : s.bundles.cells a = some b) :
    Ends (Tolerated False) (bundleForward P env s a 0) fun r => SameLogs s r.2 := by
  rcases hopCountValidationWith_cases P env (bundleDelete P env) hs hb
    with ⟨_, s₁, b₁, hrun, hb₁, _⟩ | ⟨_, hrun⟩
  · have hlogs : SameLogs s s₁ := (hopCountValidation_silent _ s a).of_ok hrun rfl
    unfold bundleForward bundleForwardWith
    rw [hrun, ok_bind]
    simp only [Bool.not_true, Bool.false_eq_true, if_false]
    apply ends_of_eq (update_of_cell hb₁ _)
    apply ends_of_eq (update_of_cell (put_self _ _ _) _)
    apply ends_of_eq (bundle_of_cell (put_self _ _ _))
    apply (silent_queue env 0 (fun _ _ _ hne => absurd rfl hne) b₁.id).mono
    intro r h
    exact hlogs.trans ⟨h.reports, h.administered, h.delivered, h.agents⟩
  · exact bundleForward_exceeded id hs hb hrun

/-- The search for a slot deletes a fragment if there is no memory to enter it. -/
theorem joinSlot_told (hs : Sound False False s m s.reassembly.flatten)
    (hb : s.bundles.cells a = some b) :
    Ends (Tolerated False) (joinSlot P env s a) (Told P env a b (fun status =>
      status = .deleted ∧ b.asksDeletion = true ∧ joinedSlot env s a = .ok none) s) := by
  -- a slot that may be complete without the fragment leaves the fragment deleted
  have hdeleted : ∀ {n : Nat} (before after : List (List Addr)) (slot : List Addr),
      (joinedSlot env s a = .ok none) →
      Sound False False s m (before ++ slot :: after).flatten →
      Ends (Tolerated False)
        (bundleDelete P env { s with requests := n } a .depletedStorage >>= fun s =>
          tryReassemble P env s before slot after)
        (Told P env a b (fun status => status = .deleted ∧ b.asksDeletion = true ∧
          joinedSlot env s a = .ok none) s) := by
    intro n before after slot hnone hs₀
    apply ((bundleDelete_told (s := { s with requests := n }) hb _).and
      (bundleDelete_spec (s := { s with requests := n }) hs₀ hb False.elim False.elim _)).bind
    intro s₁ ⟨⟨htold, hgone, _⟩, m₁, hs₁, _⟩
    apply ((tryReassemble_reports s₁ before slot after).and
      (tryReassemble_spec hs₁ False.elim)).mono
    intro s' ⟨hreports, m', _, hfades, _⟩
    obtain ⟨new, heq, hnew⟩ := htold
    refine ⟨new, hreports.trans heq, fun r hr => ⟨?_, fun _ => hfades.gone hgone⟩⟩
    exact (hnew r hr).1.mono .refl fun _ h => ⟨h.1, h.2, hnone⟩
  unfold joinSlot
  apply (findSlot_spec (hs.alive (List.Subset.refl _)) hb).bind_of_ok
  intro found hsearch ⟨hfound, _⟩
  cases found with
  | some found =>
      obtain ⟨before, slot, after⟩ := found
      obtain ⟨hreas, _⟩ := hfound before slot after rfl
      unfold addToReassemblyBundleList malloc
      dsimp only
      rw [bind_assoc]
      apply (ends_any _).bind_of_ok
      intro slot' hins _
      cases hmem : env.malloc s.requests with
      | none =>
          dsimp only
          rw [bind_assoc]
          apply hdeleted
          · unfold joinedSlot
            rw [hsearch, ok_bind]
            dsimp only
            rw [hins, ok_bind, hmem]
            rfl
          · rw [← hreas]
            exact hs
      | some gap =>
          apply (tryReassemble_reports _ before slot' after).mono
          intro s' hreports
          exact told_of_reports hreports
  | none =>
      dsimp only
      unfold malloc
      cases hmem : env.malloc s.requests with
      | none =>
          apply (bundleDelete_told (s := { s with requests := s.requests + 1 }) hb _).mono
          intro s' ⟨htold, _⟩
          refine htold.mono .refl fun _ h => ⟨h.1, h.2, ?_⟩
          unfold joinedSlot
          rw [hsearch, ok_bind]
          dsimp only
          rw [hmem]
          rfl
      | some gap =>
          dsimp only
          unfold addToReassemblyBundleList insertFragment malloc
          rw [ok_bind]
          dsimp only
          cases hmem₂ : env.malloc (s.requests + 1) with
          | none =>
              dsimp only
              rw [bind_assoc]
              have hnone : joinedSlot env s a = .ok none := by
                unfold joinedSlot
                rw [hsearch, ok_bind]
                dsimp only
                rw [hmem, hmem₂]
                rfl
              have hflat : (s.reassembly ++ [] :: []).flatten = s.reassembly.flatten := by simp
              exact hdeleted s.reassembly [] [] hnone (by rw [hflat]; exact hs)
          | some gap =>
              apply (tryReassemble_reports _ _ _ _).mono
              intro s' hreports
              exact told_of_reports hreports

/-! ## Dispatch -/

theorem undispatched_akin (b : Bundle) : b.undispatched.Akin b := ⟨rfl, rfl⟩

/-- `bundle_deliver_local` up to the search for a slot reports at most the delivery. -/
theorem beforeSearch_filed (hb : s.bundles.cells a = some b) :
    Ends (Tolerated False) (beforeSearch P env s a) (Filed P env a b (fun status =>
      status = .delivered ∧ hasFlag b.procFlags flagReportDelivery = true) s) := by
  unfold beforeSearch
  apply ends_of_eq (update_of_cell hb _)
  apply ends_of_eq (bundle_of_cell (put_self _ _ _))
  obtain ⟨known, n, hrec, hled, _⟩ := recordKnown_led env (m := fun _ => none) hb
  rw [show ({ b with ret := { b.ret with dispatchPending := false } } : Bundle) =
    b.undispatched from rfl]
  simp only [hrec]
  apply (reportWhen_filed hled.cell _ _ _).bind
  intro s₁ hfiled
  apply (silent_update s₁ a _).mono
  intro s₂ hlogs
  have hfiled₁ := hfiled.mono (undispatched_akin b) fun _ h => h
  exact Filed.trans ⟨hfiled₁.reports, hfiled₁.administered, hfiled₁.delivered, hfiled₁.agents⟩
    hlogs.filed

/-- `bundle_attempt_reassembly` of a fragment that waits. -/
theorem bundleAttemptReassembly_told (hs : Sound False False s m s.reassembly.flatten)
    (hb : s.bundles.cells a = some b) :
    Ends (Tolerated False) (bundleAttemptReassembly P env s a) (Told P env a b (fun status =>
      status = .deleted ∧ b.asksDeletion = true ∧ joinedSlot env s a = .ok none) s) := by
  apply ends_intro
  · intro s' hrun
    obtain ⟨_, _, _, hnew⟩ := (bundleAttemptReassembly_spec hs hb False.elim False.elim False.elim
      False.elim).of_ok hrun
    unfold bundleAttemptReassembly at hrun
    rw [bundle_of_cell hb, ok_bind, hnew] at hrun
    exact (joinSlot_told hs hb).of_ok hrun
  · exact fun _ _ => False.elim

/-- The course of a bundle with a local destination that is not known. -/
theorem course_of_unknown (hlocal : bundleEndpointIsLocal P b = true)
    (hnew : alreadyKnown env s.known b = false) :
    dispatchCourse P env s.known b =
      if !hasFlag b.procFlags flagAdministrativeRecord &&
        (getAgentId P.localEid b.destination).isNone then .undeliverable
      else if b.isFragmented then .fragment else .delivered := by
  unfold dispatchCourse deliveryCourse
  rw [if_pos hlocal, hnew, if_neg (by simp)]

/-- The rule for the dispatch of a bundle with a local destination that is not known: what
is left is the end of `bundle_deliver_local`. -/
theorem ends_dispatchUnknown (hs : Sound False False s m s.reassembly.flatten)
    (hb : s.bundles.cells a = some b) (hlocal : bundleEndpointIsLocal P b = true)
    (hnew : alreadyKnown env s.known b = false) {Q : Processor → Prop}
    (h : ∀ s₁ m₁, Sound False False s₁ m₁ s₁.reassembly.flatten →
      s₁.bundles.cells a = some b.undispatched →
      Filed P env a b (fun status => status = .delivered ∧
        hasFlag b.procFlags flagReportDelivery = true) s s₁ →
      Ends (Tolerated False)
        (if !hasFlag b.procFlags flagAdministrativeRecord &&
            (getAgentId P.localEid b.destination).isNone then
          bundleDelete P env s₁ a .destEidUnintelligible
        else if b.isFragmented then do
          let s ← s₁.update a fun b => { b with ret := { b.ret with reassemblyPending := true } }
          bundleAttemptReassembly P env s a
        else do
          let s ← s₁.update a fun b => (bundleToAdu b).2
          let s ← bundleDiscard s a
          bundleDeliverAdu P s (bundleToAdu b.undispatched).1) Q) :
    Ends (Tolerated False) (bundleDispatch P env s a) Q := by
  unfold bundleDispatch
  apply ends_of_eq (bundle_of_cell hb)
  rw [if_pos hlocal]
  unfold bundleDeliverLocal
  apply ends_of_eq (update_of_cell hb _)
  apply ends_of_eq (bundle_of_cell (put_self _ _ _))
  obtain ⟨known, n, hrec, hled, _⟩ := recordKnown_led env (m := m) hb
  rw [show ({ b with ret := { b.ret with dispatchPending := false } } : Bundle) =
    b.undispatched from rfl]
  simp only [hrec]
  rw [hnew, if_neg (by simp)]
  have hs₀ : Sound False False (s.put a b.undispatched) m s.reassembly.flatten :=
    hs.set_ret hb _ False.elim False.elim
  apply ((reportWhen_filed hled.cell _ _ _).and (reportWhen_spec
    (s := { s.put a b.undispatched with known := known, requests := n }) hs₀ hled.cell
    _ _ _)).bind
  intro s₁ ⟨hfiled, m₁, hs₁, htraf⟩
  have hfiled' := hfiled.mono (undispatched_akin b) fun _ h => h
  exact h s₁ m₁ hs₁ (htraf.cell hled.cell)
    ⟨hfiled'.reports, hfiled'.administered, hfiled'.delivered, hfiled'.agents⟩

/-- The end of `bundle_deliver_local`, for a bundle that is not known and no fragment. -/
theorem deliverUnknown_told (hcell : s₁.bundles.cells a = some b.undispatched)
    (hcourse : dispatchCourse P env s.known b =
      if !hasFlag b.procFlags flagAdministrativeRecord &&
        (getAgentId P.localEid b.destination).isNone then .undeliverable
      else if b.isFragmented then .fragment else .delivered)
    (hfragment : dispatchCourse P env s.known b ≠ .fragment)
    (hfiled : Filed P env a b (fun status => status = .delivered ∧
      hasFlag b.procFlags flagReportDelivery = true) s s₁) :
    Ends (Tolerated False)
      (if !hasFlag b.procFlags flagAdministrativeRecord &&
          (getAgentId P.localEid b.destination).isNone then
        bundleDelete P env s₁ a .destEidUnintelligible
      else if b.isFragmented then do
        let s ← s₁.update a fun b => { b with ret := { b.ret with reassemblyPending := true } }
        bundleAttemptReassembly P env s a
      else do
        let s ← s₁.update a fun b => (bundleToAdu b).2
        let s ← bundleDiscard s a
        bundleDeliverAdu P s (bundleToAdu b.undispatched).1)
      (Told P env a b (DispatchAsks P env s a b) s) := by
  split
  · next hagent =>
    rw [if_pos hagent] at hcourse
    apply (bundleDelete_told hcell _).mono
    intro s' ⟨htold, _⟩
    have htold' := htold.mono (undispatched_akin b) fun _ h => h
    refine (hfiled.told (by simp) htold').mono .refl fun status h => ?_
    rcases h with ⟨rfl, hflag⟩ | ⟨rfl, hasks⟩
    · exact ⟨hflag, Or.inl hcourse⟩
    · exact ⟨hasks, Or.inl hcourse⟩
  · next hagent =>
    rw [if_neg hagent] at hcourse
    split
    · next hfrag =>
      rw [if_pos hfrag] at hcourse
      exact absurd hcourse hfragment
    · next hfrag =>
      rw [if_neg hfrag] at hcourse
      apply (silent_update s₁ a _).bind
      intro s₂ hlogs₂
      apply (silent_bundleDiscard s₂ a).bind
      intro s₃ hlogs₃
      apply (bundleDeliverAdu_handed s₃ _).mono
      intro s' ⟨hreports, _⟩
      have hquiet : Told P env a b (fun _ => False) s₁ s' :=
        told_of_reports (hreports.trans (hlogs₂.trans hlogs₃).reports)
      refine (hfiled.told (by simp) hquiet).mono .refl fun status h => ?_
      rcases h with ⟨rfl, hflag⟩ | h
      · exact ⟨hflag, Or.inr (Or.inr hcourse)⟩
      · exact h.elim

/-- The dispatch of a fragment reports what it is asked to. -/
theorem dispatchFragment_told (hs : Sound False False s m s.reassembly.flatten)
    (hb : s.bundles.cells a = some b)
    (hfragment : dispatchCourse P env s.known b = .fragment) :
    Ends (Tolerated False) (bundleDispatch P env s a)
      (Told P env a b (DispatchAsks P env s a b) s) := by
  rw [bundleDispatch_fragment hb hfragment]
  apply ((beforeSearch_filed hb).and (beforeSearch_spec hs hb False.elim)).bind_of_ok
  intro s₁ hbefore ⟨hfiled, m₁, hs₁, hled, _⟩
  apply (bundleAttemptReassembly_told hs₁ hled.cell).mono
  intro s' htold
  have htold' := htold.mono (b := b) ⟨rfl, rfl⟩ fun _ h => h
  refine (hfiled.told (by simp) htold').mono .refl fun status h => ?_
  rcases h with ⟨rfl, hflag⟩ | ⟨rfl, hasks, hnone⟩
  · exact ⟨hflag, Or.inr (Or.inl hfragment)⟩
  · exact ⟨hasks, Or.inr ⟨hfragment, s₁, hbefore, hnone⟩⟩

/-- **`bundle_dispatch`** reports what it is asked to. -/
theorem bundleDispatch_told (hs : Sound False False s m s.reassembly.flatten)
    (hb : s.bundles.cells a = some b) :
    Ends (Tolerated False) (bundleDispatch P env s a)
      (Told P env a b (DispatchAsks P env s a b) s) := by
  by_cases hfragment : dispatchCourse P env s.known b = .fragment
  · exact dispatchFragment_told hs hb hfragment
  cases hlocal : bundleEndpointIsLocal P b with
  | true =>
      cases hwas : alreadyKnown env s.known b with
      | true =>
          obtain ⟨known, n, hrec, _⟩ := recordKnown_led env (m := m) hb
          unfold bundleDispatch bundleDeliverLocal
          apply ends_of_eq (bundle_of_cell hb)
          rw [if_pos hlocal]
          apply ends_of_eq (update_of_cell hb _)
          apply ends_of_eq (bundle_of_cell (put_self _ _ _))
          rw [show ({ b with ret := { b.ret with dispatchPending := false } } : Bundle) =
            b.undispatched from rfl]
          simp only [hrec]
          rw [hwas, if_pos rfl]
          apply (silent_bundleDiscard _ a).mono
          intro s' hlogs
          exact told_of_reports hlogs.reports
      | false =>
          apply ends_dispatchUnknown hs hb hlocal hwas
          intro s₁ m₁ _ hcell hfiled
          exact deliverUnknown_told hcell (course_of_unknown hlocal hwas) hfragment hfiled
  | false =>
      unfold bundleDispatch
      apply ends_of_eq (bundle_of_cell hb)
      rw [if_neg (by simp [hlocal])]
      apply (bundleForward_silent hs hb).bind
      rintro ⟨sent, s'⟩ hlogs
      exact told_of_reports hlogs.reports

/-! ## Reception -/

/-- The block loop reports the reception for the blocks that ask for it. -/
theorem handleBlocks_filed (skip : Bool) (l : List Block)
    (hs : Sound False False s m s.reassembly.flatten) (hb : s.bundles.cells a = some b) :
    Ends (Tolerated False) (handleBlocks P env a skip l s) fun r =>
      Filed P env a b (fun status => status = .received ∧ blocksAsk skip l = true) s r.2 := by
  induction l generalizing skip s m with
  | nil =>
      cases skip with
      | false => exact SameLogs.refl.filed
      | true => exact SameLogs.refl.filed
  | cons x xs ih =>
      have hkeep : ∀ (y : Block) {s m}, Sound False False s m s.reassembly.flatten →
          s.bundles.cells a = some b →
          Ends (Tolerated False)
            (handleBlocks P env a false xs s >>= fun r => pure (r.1.map (y :: ·), r.2)) fun r =>
            Filed P env a b (fun status => status = .received ∧ blocksAsk false xs = true)
              s r.2 := by
        intro y s m hs hb
        apply (ih false hs hb).bind
        rintro ⟨kept, s'⟩ hfiled
        exact hfiled
      cases skip with
      | true => exact hkeep x hs hb
      | false =>
          unfold handleBlocks blocksAsk
          split
          · exact hkeep x hs hb
          apply ((reportWhen_filed hb _ _ _).and (reportWhen_spec hs hb _ _ _)).bind
          intro s₁ hreported
          obtain ⟨hfiled, m₁, hs₁, htraf⟩ := hreported
          have hb₁ := htraf.cell hb
          split
          · next hdelete =>
            exact hfiled.mono .refl fun _ h => ⟨h.1, by simp [h.2]⟩
          next hdelete =>
          have hfirst : Filed P env a b (fun status => status = .received ∧
              (hasFlag x.flags blockFlagReportIfUnproc ||
                (!hasFlag x.flags blockFlagDeleteBundleIfUnproc &&
                  blocksAsk (hasFlag x.flags blockFlagDiscardIfUnproc) xs)) = true) s s₁ :=
            hfiled.mono .refl fun _ h => ⟨h.1, by simp [h.2]⟩
          split
          · next hdiscard =>
            apply (ih true hs₁ hb₁).mono
            intro r hrest
            refine hfirst.trans (hrest.mono .refl fun _ h => ⟨h.1, ?_⟩)
            simp [hdelete, hdiscard, h.2]
          · next hdiscard =>
            apply (hkeep _ hs₁ hb₁).mono
            intro r hrest
            refine hfirst.trans (hrest.mono .refl fun _ h => ⟨h.1, ?_⟩)
            simp [hdelete, hdiscard, h.2]

theorem arrived_akin (b : Bundle) : b.arrived.Akin b := ⟨rfl, rfl⟩

theorem received_akin (h : b.received = some b₁) :
    b₁.Akin b ∧ b₁.asksDeletion = b.asksDeletion := by
  obtain ⟨blocksBefore, blocksAfter, rfl⟩ := received_eq h
  exact ⟨⟨rfl, rfl⟩, rfl⟩

/-- A bundle whose custody is requested is reported as deleted if it is refused. -/
theorem custody_told (hb : s.bundles.cells a = some b)
    (hs₁ : Sound False False s₁ m₁ s₁.reassembly.flatten) (hled : Led s m a b₁ s₁ m₁)
    (hrec : b.received = some b₁) (hasks : asksForCustody b₁ = true)
    (hexp : expiredOnArrival env b = false) :
    Ends (Tolerated False) (custodyOrDispatch P env s₁ a) (Told P env a b₁ (fun status =>
      status = .deleted ∧ b.asksDeletion = true ∧ receptionCourse env s a b = .refused) s₁) := by
  obtain ⟨blocksBefore, blocksAfter, hb₁⟩ := received_eq hrec
  have hsame : ∀ ts seq source offset length, custodyMatch ts seq source offset length b₁ =
      custodyMatch ts seq source offset length b := by
    intro ts seq source offset length
    rw [hb₁]
    rfl
  unfold custodyOrDispatch
  apply ends_of_eq (bundle_of_cell hled.cell)
  rw [show (hasFlag b₁.procFlags flagCustodyTransferRequested && decide (b₁.protocolVersion = 6))
    = true from hasks, if_pos rfl]
  apply (custodyManagerHasRedundantBundle_spec hled.cell False.elim).bind
  intro r hr
  cases r with
  | true =>
      rw [if_pos rfl]
      apply (silent_sendCustodySignal s₁ a _).bind
      intro s₂ hlogs₂
      apply (silent_update s₂ a _).bind
      intro s₃ hlogs₃
      apply ends_read
      intro c _
      have hlogs := hlogs₂.trans hlogs₃
      split
      · apply (silent_bundleDiscard s₃ a).mono
        intro s' hlogs'
        exact told_of_reports (hlogs.trans hlogs').reports
      · exact told_of_reports hlogs.reports
  | false =>
      have hred : redundant s b₁ = false := by
        cases hred : redundant s b₁ with
        | false => rfl
        | true => exact ((hr.1 (hr.2 rfl)).trans (redundant_of_led hled hb hsame hred)).symm
      rw [if_neg (by simp)]
      have hacc : acceptable s₁ a b₁ = acceptable s a b₁ := by
        unfold acceptable
        rw [hled.accepted]
      have hcourse : receptionCourse env s a b =
          if !acceptable s a b₁ then .refused else .stranded := by
        simp only [receptionCourse, hexp, hrec, hasks, hred, Bool.false_eq_true, if_false,
          if_true]
      -- at most the primary block length of the bundle is written
      obtain ⟨s₂, b₂, heq, hs₂, hcell₂, hlogs₂, hakin₂, hasks₂⟩ : ∃ s₂ b₂,
          custodyManagerStorageIsAcceptable s₁ a = .ok (acceptable s a b₁, s₂) ∧
          Sound False False s₂ m₁ s₂.reassembly.flatten ∧ s₂.bundles.cells a = some b₂ ∧
          SameLogs s₁ s₂ ∧ b₂.Akin b₁ ∧ b₂.asksDeletion = b₁.asksDeletion := by
        rw [← hacc]
        rcases custodyManagerStorageIsAcceptable_eq hled.cell with heq | ⟨n, heq⟩
        · exact ⟨s₁, b₁, heq, hs₁, hled.cell, .refl, .refl, rfl⟩
        · exact ⟨_, _, heq, hs₁.set_same hled.cell rfl rfl rfl, put_self _ _ _,
            ⟨rfl, rfl, rfl, rfl⟩, ⟨rfl, rfl⟩, rfl⟩
      rw [heq, ok_bind]
      dsimp only
      split
      · next hrefuse =>
        rw [if_pos hrefuse] at hcourse
        apply ((silent_sendCustodySignal s₂ a _).and
          (sendCustodySignal_spec hs₂ hcell₂ _)).bind
        intro s₃ hsent
        obtain ⟨hlogs₃, _, _, htraf⟩ := hsent
        apply (bundleDelete_told (htraf.cell hcell₂) _).mono
        intro s' hdeleted
        obtain ⟨htold, _⟩ := hdeleted
        have hquiet : Filed P env a b₁ (fun _ => False) s₁ s₃ := (hlogs₂.trans hlogs₃).filed
        refine (hquiet.told id (htold.mono hakin₂ fun _ h => h)).mono .refl fun status h => ?_
        rcases h with h | ⟨rfl, hasked⟩
        · exact h.elim
        · exact ⟨rfl, (received_akin hrec).2.symm.trans (hasks₂.symm.trans hasked), hcourse⟩
      · exact told_of_reports hlogs₂.reports

/-- The end of `bundle_receive`, for a bundle that passed the block loop. -/
theorem receiveBlocks_told (hb : s.bundles.cells a = some b)
    (hs₁ : Sound False False s₁ m₁ s₁.reassembly.flatten) (hled : Led s m a b₁ s₁ m₁)
    (hrec : b.received = some b₁)
    (hexp : expiredOnArrival env b = false) (hbefore : beforeDispatch P env s a = .ok s₁)
    (hfiled : Filed P env a b (fun status => status = .received ∧
      (hasFlag b.procFlags flagReportReception = true ∨
        (expiredOnArrival env b = false ∧ b.blocksAsk = true))) s s₁) :
    Ends (Tolerated False) (custodyOrDispatch P env s₁ a)
      (Told P env a b (ReceptionAsks P env s a b) s) := by
  obtain ⟨hakin, _⟩ := received_akin hrec
  cases hasks : asksForCustody b₁ with
  | true =>
      apply (custody_told hb hs₁ hled hrec hasks hexp).mono
      intro s' htold
      refine (hfiled.told (by simp) (htold.mono hakin fun _ h => h)).mono .refl fun status h => ?_
      rcases h with h | ⟨rfl, hasked, hcourse⟩
      · exact Or.inl h
      · exact Or.inr (Or.inl ⟨rfl, hasked, Or.inr (Or.inr hcourse)⟩)
  | false =>
      have hcourse : receptionCourse env s a b = .dispatched b₁ := by
        simp only [receptionCourse, hexp, hrec, hasks, Bool.false_eq_true, if_false]
      unfold custodyOrDispatch
      apply ends_of_eq (bundle_of_cell hled.cell)
      rw [show (hasFlag b₁.procFlags flagCustodyTransferRequested &&
        decide (b₁.protocolVersion = 6)) = false from hasks, if_neg (by simp)]
      apply (bundleDispatch_told hs₁ hled.cell).mono
      intro s' htold
      refine (hfiled.told (by simp) (htold.mono hakin fun _ h => h)).mono .refl fun status h => ?_
      rcases h with h | hasked
      · exact Or.inl h
      · exact Or.inr (Or.inr ⟨b₁, s₁, hcourse, hbefore, hasked⟩)

/-- **`bundle_receive`** reports what it is asked to. -/
theorem bundleReceive_told (hs : Sound False False s m s.reassembly.flatten)
    (hb : s.bundles.cells a = some b) :
    Ends (Tolerated False) (bundleReceive P env s a)
      (Told P env a b (ReceptionAsks P env s a b) s) := by
  -- both early ends of the reception delete the bundle
  have hdelete : ∀ {s₁} (reason : ReportReason),
      receptionCourse env s a b = .expired ∨ receptionCourse env s a b = .unintelligible →
      s₁.bundles.cells a = some b.arrived →
      Filed P env a b (fun status => status = .received ∧
        (hasFlag b.procFlags flagReportReception = true ∨
          (expiredOnArrival env b = false ∧ b.blocksAsk = true))) s s₁ →
      Ends (Tolerated False) (bundleDelete P env s₁ a reason)
        (Told P env a b (ReceptionAsks P env s a b) s) := by
    intro s₁ reason hearly hcell hfiled
    apply (bundleDelete_told hcell reason).mono
    intro s' ⟨htold, _⟩
    refine (hfiled.told (by simp) (htold.mono (arrived_akin b) fun _ h => h)).mono .refl
      fun status h => ?_
    rcases h with h | ⟨rfl, hasks⟩
    · exact Or.inl h
    · exact Or.inr (Or.inl ⟨rfl, hasks, hearly.imp_right Or.inl⟩)
  unfold bundleReceive
  apply ends_of_eq (update_of_cell hb _)
  have hs₀ : Sound False False (s.put a b.arrived) m s.reassembly.flatten :=
    hs.set_ret hb _ False.elim False.elim
  have hled₀ := (Led.refl (m := m) hb).put b.arrived rfl
  apply ends_of_eq (bundle_of_cell hled₀.cell)
  apply ((reportWhen_filed hled₀.cell _ _ _).and (reportWhen_spec (s := s.put a b.arrived) hs₀
    hled₀.cell _ _ _)).bind_of_ok
  intro s₁ hrun₁ ⟨hreport, m₁, hs₁, htraf₁⟩
  have hled₁ := hled₀.traffic htraf₁
  have hfiled₁ : Filed P env a b (fun status => status = .received ∧
      (hasFlag b.procFlags flagReportReception = true ∨
        (expiredOnArrival env b = false ∧ b.blocksAsk = true))) s s₁ := by
    have h := hreport.mono (arrived_akin b) fun _ h => h
    exact Filed.mono ⟨h.reports, h.administered, h.delivered, h.agents⟩ .refl
      fun _ h => ⟨h.1, Or.inl h.2⟩
  cases hexp : expiredOnArrival env b with
  | true =>
      rw [show expiredOnArrival env b.arrived = true from hexp, if_pos rfl]
      exact hdelete _ (Or.inl (by simp [receptionCourse, hexp])) hled₁.cell hfiled₁
  | false =>
      rw [show expiredOnArrival env b.arrived = false from hexp, if_neg (by simp)]
      apply ((handleBlocks_filed false b.blocksBefore hs₁ hled₁.cell).and
        (handleBlocks_spec false b.blocksBefore hs₁ hled₁.cell)).bind_of_ok
      rintro ⟨kept₁, s₂⟩ hrun₂ ⟨hreport₂, hkept₁, m₂, hs₂, htraf₂⟩
      have hled₂ := hled₁.traffic htraf₂
      have hfiled₂ := hfiled₁.trans (hreport₂.mono (arrived_akin b) fun _ h =>
        ⟨h.1, Or.inr ⟨hexp, by simp [Bundle.blocksAsk, h.2]⟩⟩)
      cases kept₁ with
      | none =>
          refine hdelete _ (Or.inr ?_) hled₂.cell hfiled₂
          simp [receptionCourse, hexp, Bundle.received, ← hkept₁]
      | some blocksBefore =>
          apply ((handleBlocks_filed false b.blocksAfter hs₂ hled₂.cell).and
            (handleBlocks_spec false b.blocksAfter hs₂ hled₂.cell)).bind_of_ok
          rintro ⟨kept₂, s₃⟩ hrun₃ ⟨hreport₃, hkept₂, m₃, hs₃, htraf₃⟩
          have hled₃ := hled₂.traffic htraf₃
          have hfiled₃ := hfiled₂.trans (hreport₃.mono (arrived_akin b) fun _ h =>
            ⟨h.1, Or.inr ⟨hexp, by simp [Bundle.blocksAsk, ← hkept₁, h.2]⟩⟩)
          cases kept₂ with
          | none =>
              refine hdelete _ (Or.inr ?_) hled₃.cell hfiled₃
              simp [receptionCourse, hexp, Bundle.received, ← hkept₁, ← hkept₂]
          | some blocksAfter =>
              apply ends_of_eq (update_of_cell hled₃.cell _)
              have hrec : b.received = some { b.arrived with blocksBefore, blocksAfter } := by
                simp [Bundle.received, ← hkept₁, ← hkept₂]
              have hbefore := beforeDispatch_of_runs hb hrun₁ hrun₂ hrun₃ hled₃.cell
              exact receiveBlocks_told hb (hs₃.set_same hled₃.cell rfl rfl rfl)
                (hled₃.put _ rfl) hrec hexp hbefore
                ⟨hfiled₃.reports, hfiled₃.administered, hfiled₃.delivered, hfiled₃.agents⟩

/-! ## Signals -/

/-- `custody_manager_accept` writes no log, and leaves the bundle akin to what it was. -/
theorem custodyManagerAccept_silent (hb : s.bundles.cells a = some b) :
    Ends (Tolerated False) (custodyManagerAccept P s a) fun r =>
      SameLogs s r.2 ∧ ∀ b', r.2.bundles.cells a = some b' → b'.Akin b := by
  unfold custodyManagerAccept
  apply (ends_any _).bind
  intro redundant _
  apply ends_assertP
  intro _
  obtain ⟨s₁, b₁, heq, hcell, hlogs, hakin⟩ : ∃ s₁ b₁, custodyManagerStorageIsAcceptable s a =
      .ok (acceptable s a b, s₁) ∧ s₁.bundles.cells a = some b₁ ∧ SameLogs s s₁ ∧
      b₁.Akin b := by
    rcases custodyManagerStorageIsAcceptable_eq hb with heq | ⟨n, heq⟩
    · exact ⟨s, b, heq, hb, .refl, .refl⟩
    · exact ⟨_, _, heq, put_self _ _ _, ⟨rfl, rfl, rfl, rfl⟩, ⟨rfl, rfl⟩⟩
  apply ends_of_eq heq
  apply ends_assertP
  intro _
  have hcell' : ({ s₁ with accepted := s₁.accepted ++ [a] } : Processor).bundles.cells a =
      some b₁ := hcell
  apply ends_of_eq (update_of_cell hcell' _)
  apply ends_of_eq (bundle_of_cell (put_self _ _ _))
  have hself : ∀ {s : Processor} {c b' : Bundle}, (s.put a c).bundles.cells a = some b' →
      c.Akin b₁ → b'.Akin b := by
    intro s c b' hb' hc
    rw [put_self] at hb'
    obtain rfl := Option.some.inj hb'
    exact hc.trans hakin
  split
  · apply ends_of_eq (update_of_cell (put_self _ _ _) _)
    exact ⟨⟨hlogs.reports, hlogs.administered, hlogs.delivered, hlogs.agents⟩,
      fun b' hb' => hself hb' ⟨rfl, rfl⟩⟩
  · exact ⟨⟨hlogs.reports, hlogs.administered, hlogs.delivered, hlogs.agents⟩,
      fun b' hb' => hself hb' ⟨rfl, rfl⟩⟩

/-- **`bundle_forwarding_scheduled`** reports at most that custody was accepted. -/
theorem bundleForwardingScheduled_told (hs : Sound False False s m s.reassembly.flatten)
    (hb : s.bundles.cells a = some b) :
    Ends (Tolerated False) (bundleForwardingScheduled P env s a)
      (Told P env a b (SignalAsks P env s a b .routed) s) := by
  unfold bundleForwardingScheduled
  apply ends_of_eq (bundle_of_cell hb)
  split
  · next hcond =>
    simp only [Bool.and_eq_true, Bool.not_eq_true', decide_eq_true_eq] at hcond
    obtain ⟨⟨hreq, hcust⟩, hver⟩ := hcond
    apply ((custodyManagerAccept_silent hb).and
      (custodyManagerAccept_spec hs hb hcust False.elim)).bind
    rintro ⟨accepted, s₁⟩ ⟨⟨hlogs, hakin⟩, haccepted⟩
    obtain ⟨b₁, hb₁⟩ := haccepted.cell
    dsimp only
    split
    · exact told_of_reports hlogs.reports
    · apply (reportWhen_filed hb₁ _ _ _).bind
      intro s₂ hfiled
      apply (silent_sendCustodySignal s₂ a _).mono
      intro s' hlogs'
      have hall := (hlogs.filed.trans (hfiled.mono (hakin b₁ hb₁) fun _ h => h)).trans
        hlogs'.filed
      refine (hall.told_self (by simp)).mono .refl fun status h => ?_
      exact ⟨h.1, by simp [asksForCustody, hreq, hver], hcust, h.2⟩
  · exact told_of_reports rfl

/-- **`bundle_forwarding_success`** reports at most that the bundle was forwarded. -/
theorem bundleForwardingSuccess_told (hb : s.bundles.cells a = some b) :
    Ends (Tolerated False) (bundleForwardingSuccess P env s a)
      (Told P env a b (SignalAsks P env s a b .transmissionSuccess) s) := by
  unfold bundleForwardingSuccess
  apply ends_of_eq (bundle_of_cell hb)
  apply (reportWhen_filed hb _ _ _).bind
  intro s₁ hfiled
  apply (silent_update s₁ a _).bind
  intro s₂ hlogs₂
  apply ends_read
  intro c _
  split
  · apply (silent_bundleDiscard s₂ a).mono
    intro s' hlogs'
    exact (hfiled.trans (hlogs₂.trans hlogs').filed).told_self (by simp)
  · exact (hfiled.trans hlogs₂.filed).told_self (by simp)

/-- **`bundle_forwarding_failed`** reports at most the deletion. -/
theorem bundleForwardingFailed_told (hs : Sound False False s m s.reassembly.flatten)
    (hb : s.bundles.cells a = some b) (reason : ReportReason) :
    Ends (Tolerated False) (bundleForwardingFailed P env s a reason)
      (Told P env a b (fun status => status = .deleted ∧ b.asksDeletion = true) s) := by
  unfold bundleForwardingFailed
  apply ends_of_eq (bundle_of_cell hb)
  apply Ends.bind (R := fun s₁ => SameLogs s s₁ ∧ s₁.bundles.cells a = some b)
  · apply ends_when
    · intro _
      apply ((silent_sendCustodySignal s a _).and (sendCustodySignal_spec hs hb _)).mono
      intro s₁ ⟨hlogs, _, _, htraf⟩
      exact ⟨hlogs, htraf.cell hb⟩
    · intro _
      exact ⟨.refl, hb⟩
  intro s₁ ⟨hlogs, hcell⟩
  apply (bundleDelete_told hcell reason).mono
  intro s' ⟨htold, _⟩
  have hquiet : Filed P env a b (fun _ => False) s s₁ := hlogs.filed
  exact (hquiet.told id htold).mono .refl fun _ h => h.resolve_left id

/-- **`bundle_dangling`** reports at most the deletion. -/
theorem bundleDangling_told (hb : s.bundles.cells a = some b) :
    Ends (Tolerated False) (bundleDangling P env s a)
      (Told P env a b (SignalAsks P env s a b .reschedule) s) := by
  unfold bundleDangling
  apply ends_of_eq (bundle_of_cell hb)
  split
  · next hdrop =>
    apply (bundleDelete_told hb _).mono
    intro s' ⟨htold, _⟩
    exact htold.mono .refl fun _ h => ⟨h.1, h.2, Or.inl (by simpa using hdrop)⟩
  · unfold sendBundle
    rw [if_neg (by decide)]
    cases hpush : env.pushed s.requests with
    | true => exact told_of_reports rfl
    | false =>
        apply (bundleDelete_told (s := { s with requests := s.requests + 1 }) hb _).mono
        intro s' ⟨htold, _⟩
        exact Told.mono htold .refl fun _ h => ⟨h.1, h.2, Or.inr hpush⟩

/-- **The cases of `handle_signal`** report what they are asked to. -/
theorem handleBundleSignal_told (hs : Sound False False s m s.reassembly.flatten)
    (hb : s.bundles.cells a = some b) (type : BundleSignal) :
    Ends (Tolerated False) (handleBundleSignal P env s a type)
      (Told P env a b (SignalAsks P env s a b type) s) := by
  cases type with
  | incoming => exact bundleReceive_told hs hb
  | routed => exact bundleForwardingScheduled_told hs hb
  | forwardingContraindicated reason => exact bundleForwardingFailed_told hs hb reason
  | expired => exact (bundleDelete_told hb _).mono fun _ h => h.1
  | reschedule => exact bundleDangling_told hb
  | transmissionSuccess => exact bundleForwardingSuccess_told hb
  | transmissionFailure => exact bundleForwardingFailed_told hs hb _
  | localDispatch => exact bundleDispatch_told hs hb

end Told

end BundleProcessor
