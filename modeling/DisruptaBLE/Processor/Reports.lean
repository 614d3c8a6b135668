import DisruptaBLE.Processor.Attempt

/-!
# Status reports

Which status reports the handling of a signal may generate, as a function of the state
before: `SignalAsks` follows the calls of `send_status_report`.  `handleBundleSignal_told`
says that no other ones are generated, that all of them are about the bundle of the
signal, and that a bundle is gone after a report of its deletion.

Reports are sent between other actions, and the handling of a report bundle that cannot
be queued deletes it again.  None of this is reported itself: `Silent` is the
specification of everything that writes no log.
-/

namespace BundleProcessor

open PtrHeap BundleStorage Outcome

/-! ## Logs -/

/-- Nothing was reported or handed over, and the agents are the same. -/
structure SameLogs (s s' : Processor) : Prop where
  reports : s'.reports = s.reports
  administered : s'.administered = s.administered
  delivered : s'.delivered = s.delivered
  agents : s'.agents = s.agents

/-- The same bundle, up to its constraints and its extension blocks. -/
def Bundle.Akin (b b' : Bundle) : Prop := b.bare = b'.bare ∧ b.payload = b'.payload

/-- Bundles that `send_status_report` has reports generated for. -/
def Reportable (P : Params) (env : Env) (b : Bundle) : Prop :=
  P.statusReporting = true ∧ b.destination ≠ eidNone ∧ b.destination ≠ P.localEid ∧
    outlived env b = false

/-- A report about the bundle `b` at `a`, with a status that was asked for. -/
structure Entry (P : Params) (env : Env) (a : Addr) (b : Bundle) (asks : ReportStatus → Prop)
    (r : Report) : Prop where
  about : r.about = a
  akin : r.bundle.Akin b
  reportable : Reportable P env b
  asked : asks r.status

/-- Reports about a bundle were generated, and nothing was handed over. -/
structure Filed (P : Params) (env : Env) (a : Addr) (b : Bundle) (asks : ReportStatus → Prop)
    (s s' : Processor) : Prop where
  reports : ∃ new, s'.reports = s.reports ++ new ∧ ∀ r ∈ new, Entry P env a b asks r
  administered : s'.administered = s.administered
  delivered : s'.delivered = s.delivered
  agents : s'.agents = s.agents

/-- Reports about a bundle were generated, and it is gone if one of them says so. -/
def Told (P : Params) (env : Env) (a : Addr) (b : Bundle) (asks : ReportStatus → Prop)
    (s s' : Processor) : Prop :=
  ∃ new, s'.reports = s.reports ++ new ∧
    ∀ r ∈ new, Entry P env a b asks r ∧ (r.status = .deleted → s'.bundles.cells a = none)

section Logs

variable {P : Params} {env : Env} {s s₁ s₂ s' : Processor} {a : Addr} {b b₁ : Bundle}
  {asks asks₁ : ReportStatus → Prop}

theorem SameLogs.refl : SameLogs s s := ⟨rfl, rfl, rfl, rfl⟩

theorem SameLogs.trans (h₁ : SameLogs s s₁) (h₂ : SameLogs s₁ s') : SameLogs s s' :=
  ⟨h₂.reports.trans h₁.reports, h₂.administered.trans h₁.administered,
    h₂.delivered.trans h₁.delivered, h₂.agents.trans h₁.agents⟩

theorem Bundle.Akin.refl : b.Akin b := ⟨rfl, rfl⟩

theorem Bundle.Akin.trans {b₂ : Bundle} (h₁ : b.Akin b₁) (h₂ : b₁.Akin b₂) : b.Akin b₂ :=
  ⟨h₁.1.trans h₂.1, h₁.2.trans h₂.2⟩

/-- Whether reports are generated for a bundle depends on what stays of it. -/
theorem Reportable.akin (h : Reportable P env b₁) (hb : b₁.Akin b) : Reportable P env b := by
  have hdest := eq_of_bare Bundle.destination (fun _ => rfl) hb.1
  have hlived := eq_of_bare (outlived env) (fun _ => rfl) hb.1
  rw [Reportable, ← hdest, ← hlived]
  exact h

theorem Entry.mono {r : Report} (h : Entry P env a b₁ asks₁ r) (hb : b₁.Akin b)
    (hasks : ∀ status, asks₁ status → asks status) : Entry P env a b asks r :=
  ⟨h.about, h.akin.trans hb, h.reportable.akin hb, hasks _ h.asked⟩

theorem Filed.mono (h : Filed P env a b₁ asks₁ s s') (hb : b₁.Akin b)
    (hasks : ∀ status, asks₁ status → asks status) : Filed P env a b asks s s' := by
  obtain ⟨new, heq, hnew⟩ := h.reports
  exact ⟨⟨new, heq, fun r hr => (hnew r hr).mono hb hasks⟩, h.administered, h.delivered,
    h.agents⟩

theorem SameLogs.filed (h : SameLogs s s') : Filed P env a b asks s s' :=
  ⟨⟨[], by rw [h.reports, List.append_nil], by simp⟩, h.administered, h.delivered, h.agents⟩

theorem Filed.trans (h₁ : Filed P env a b asks s s₁) (h₂ : Filed P env a b asks s₁ s') :
    Filed P env a b asks s s' := by
  obtain ⟨new₁, heq₁, hnew₁⟩ := h₁.reports
  obtain ⟨new₂, heq₂, hnew₂⟩ := h₂.reports
  refine ⟨⟨new₁ ++ new₂, by rw [heq₂, heq₁, List.append_assoc], ?_⟩,
    h₂.administered.trans h₁.administered, h₂.delivered.trans h₁.delivered,
    h₂.agents.trans h₁.agents⟩
  intro r hr
  rcases List.mem_append.mp hr with hr | hr
  · exact hnew₁ r hr
  · exact hnew₂ r hr

theorem Told.mono (h : Told P env a b₁ asks₁ s s') (hb : b₁.Akin b)
    (hasks : ∀ status, asks₁ status → asks status) : Told P env a b asks s s' := by
  obtain ⟨new, heq, hnew⟩ := h
  exact ⟨new, heq, fun r hr => ⟨(hnew r hr).1.mono hb hasks, (hnew r hr).2⟩⟩

/-- Reports that do not speak of a deletion come before others. -/
theorem Filed.told (h : Filed P env a b asks s s₁) (hnot : ¬ asks .deleted)
    (h' : Told P env a b asks₁ s₁ s') :
    Told P env a b (fun status => asks status ∨ asks₁ status) s s' := by
  obtain ⟨new, heq, hnew⟩ := h.reports
  obtain ⟨new', heq', hnew'⟩ := h'
  refine ⟨new ++ new', by rw [heq', heq, List.append_assoc], ?_⟩
  intro r hr
  rcases List.mem_append.mp hr with hr | hr
  · refine ⟨(hnew r hr).mono .refl fun _ => Or.inl, fun hdel => ?_⟩
    have hasked := (hnew r hr).asked
    rw [hdel] at hasked
    exact absurd hasked hnot
  · exact ⟨(hnew' r hr).1.mono .refl fun _ => Or.inr, (hnew' r hr).2⟩

/-- The bundle is gone in the end, whatever was reported. -/
theorem Filed.gone (h : Filed P env a b asks s s₁) (hreports : s'.reports = s₁.reports)
    (hgone : s'.bundles.cells a = none) : Told P env a b asks s s' := by
  obtain ⟨new, heq, hnew⟩ := h.reports
  exact ⟨new, hreports.trans heq, fun r hr => ⟨hnew r hr, fun _ => hgone⟩⟩

/-- Nothing was reported. -/
theorem told_of_reports (h : s'.reports = s.reports) : Told P env a b asks s s' :=
  ⟨[], by rw [h, List.append_nil], by simp⟩

theorem Filed.told_self (h : Filed P env a b asks s s') (hnot : ¬ asks .deleted) :
    Told P env a b asks s s' := by
  have hquiet : Told P env a b asks s' s' := told_of_reports rfl
  exact (h.told hnot hquiet).mono .refl fun _ h => h.elim id id

end Logs

/-! ## Programs that write no log -/

/-- A program that reports nothing and hands nothing over, if it returns. -/
def Silent (s : Processor) (x : Except Fault Processor) : Prop :=
  Ends (Tolerated False) x (SameLogs s)

/-- A function that deletes the bundles whose deletion is not reported, without a word. -/
def SilentOnRecords (del : Deletion) : Prop :=
  ∀ s a b reason, s.bundles.cells a = some b → b.ret.custodyAccepted = false →
    hasFlag b.procFlags flagReportDeletion = false → Silent s (del s a reason)

section Silent

variable {P : Params} {env : Env} {s s₁ s' : Processor} {a : Addr} {b : Bundle} {del : Deletion}

theorem silent_update (s : Processor) (a : Addr) (f : Bundle → Bundle) :
    Silent s (s.update a f) := by
  unfold Processor.update
  split
  · exact False.elim
  · exact ⟨rfl, rfl, rfl, rfl⟩

/-- Read a bundle, if it is there. -/
theorem ends_read {γ : Type} {f : Bundle → Except Fault γ} {Q : γ → Prop}
    (h : ∀ b, s.bundles.cells a = some b → Ends (Tolerated False) (f b) Q) :
    Ends (Tolerated False) (s.bundle a >>= f) Q :=
  ends_bundle False.elim h

/-- A step of which only the logs matter. -/
theorem Silent.bind {γ : Type} {x : Except Fault Processor} {f : Processor → Except Fault γ}
    {Q : γ → Prop} (hx : Silent s x)
    (hf : ∀ s₁, SameLogs s s₁ → Ends (Tolerated False) (f s₁) Q) :
    Ends (Tolerated False) (x >>= f) Q := Ends.bind hx hf

theorem silent_storageDelete (s : Processor) (id : UInt16) : Silent s (storageDelete s id) := by
  unfold storageDelete
  apply ends_outside
  intro found _
  cases found with
  | none => exact .refl
  | some x =>
      apply ends_read
      intro c _
      apply ends_outside
      intro r _
      exact ⟨rfl, rfl, rfl, rfl⟩

/-- `bundle_discard` frees the bundle, and writes no log. -/
theorem bundleDiscard_silent (s : Processor) (a : Addr) :
    Ends (Tolerated False) (bundleDiscard s a) fun s' =>
      SameLogs s s' ∧ s'.bundles.cells a = none := by
  unfold bundleDiscard
  apply ends_read
  intro b _
  apply (silent_storageDelete s b.id).bind
  intro s₁ hlogs
  unfold bundleDrop
  apply ends_read
  intro c _
  split
  · exact ⟨hlogs.trans ⟨rfl, rfl, rfl, rfl⟩, Heap.cells_erase_self _ _⟩
  · exact False.elim

theorem silent_bundleDiscard (s : Processor) (a : Addr) : Silent s (bundleDiscard s a) :=
  (bundleDiscard_silent s a).mono fun _ h => h.1

theorem silent_storageAdd (env : Env) (s : Processor) (a : Addr) :
    Ends (Tolerated False) (storageAdd env s a) fun r => SameLogs s r.2 := by
  unfold storageAdd malloc
  apply ends_read
  intro b _
  apply ends_outside
  intro r _
  apply (silent_update _ a _).bind
  intro s₁ hlogs
  exact ⟨hlogs.reports, hlogs.administered, hlogs.delivered, hlogs.agents⟩

/-- `custody_manager_release` leaves the bundle akin to what it was, if it leaves it. -/
theorem custodyManagerRelease_silent (hb : s.bundles.cells a = some b) :
    Ends (Tolerated False) (custodyManagerRelease P s a) fun s' =>
      SameLogs s s' ∧ ∀ b', s'.bundles.cells a = some b' → b'.Akin b := by
  unfold custodyManagerRelease
  cases s.accepted.idxOf? a with
  | none =>
      refine ⟨.refl, fun b' hb' => ?_⟩
      rw [hb] at hb'
      obtain rfl := Option.some.inj hb'
      exact .refl
  | some index =>
      dsimp only
      apply ends_of_eq (update_of_cell (s := { s with
        accepted := removeAccepted P.ptrSize s.accepted index }) hb _)
      apply ends_of_eq (bundle_of_cell (put_self _ _ _))
      split
      · apply (bundleDiscard_silent _ a).mono
        intro s' ⟨hlogs, hgone⟩
        refine ⟨⟨hlogs.reports, hlogs.administered, hlogs.delivered, hlogs.agents⟩,
          fun b' hb' => ?_⟩
        rw [hgone] at hb'
        cases hb'
      · refine ⟨⟨rfl, rfl, rfl, rfl⟩, fun b' hb' => ?_⟩
        rw [show b' = _ from Option.some.inj (hb'.symm.trans (put_self _ _ _))]
        exact ⟨rfl, rfl⟩

theorem silentOnRecords_bundleDeleteAt (depth : Nat) :
    SilentOnRecords (bundleDeleteAt P env (depth + 1)) := by
  intro s a b reason hb hcust hflag
  unfold bundleDeleteAt
  apply ends_of_eq (bundle_of_cell hb)
  rw [hcust, hflag]
  apply ends_of_eq rfl
  apply ends_of_eq rfl
  apply (silent_update s a _).bind
  intro s₁ hlogs
  exact (silent_bundleDiscard s₁ a).mono fun _ h => hlogs.trans h

/-- The end of `bundle_forward`, for a bundle that is deleted without a report if it
cannot be queued. -/
theorem silent_queue (env : Env) (timeout : Nat)
    (hdel : ∀ s₁, SameLogs s s₁ → s₁.bundles.cells a = s.bundles.cells a →
      timeout ≠ 0 → Silent s₁ (del s₁ a .depletedStorage)) (id : UInt16) :
    Ends (Tolerated False)
      (match sendBundle env s id timeout with
      | (sent, s) =>
        if (!sent) = true then do
          let s ← del s a .depletedStorage
          pure (false, s)
        else pure (true, s)) fun r => SameLogs s r.2 := by
  rcases sendBundle_cases env s id timeout with ⟨n, h⟩ | ⟨hne, n, h⟩
  · rw [h]
    exact ⟨rfl, rfl, rfl, rfl⟩
  · rw [h]
    have hlogs : SameLogs s { s with requests := n } := ⟨rfl, rfl, rfl, rfl⟩
    apply (hdel { s with requests := n } hlogs rfl hne).bind
    intro s₁ hlogs₁
    exact hlogs.trans hlogs₁

/-- `bundle_forward` of a record. -/
theorem silent_forwardRecord (hdel : SilentOnRecords del) (hb : s.bundles.cells a = some b)
    (hcust : b.ret.custodyAccepted = false)
    (hflag : hasFlag b.procFlags flagReportDeletion = false)
    (hhop : findBlockByType b.blocks blockTypeHopCount = none) (timeout : Nat) :
    Ends (Tolerated False) (bundleForwardWith del P env s a timeout) fun r =>
      SameLogs s r.2 := by
  unfold bundleForwardWith
  apply ends_of_eq (hopCountValidationWith_none P env del hb hhop)
  simp only [Bool.not_true, Bool.false_eq_true, if_false]
  apply ends_of_eq (update_of_cell hb _)
  apply ends_of_eq (update_of_cell (put_self _ _ _) _)
  apply ends_of_eq (bundle_of_cell (put_self _ _ _))
  apply (silent_queue env timeout ?_ b.id).mono
  · intro r h
    exact ⟨h.reports, h.administered, h.delivered, h.agents⟩
  · intro s₁ _ hcell _
    rw [put_self] at hcell
    exact hdel s₁ a _ _ hcell hcust hflag

/-- A record is sent without a word about it. -/
theorem silent_emitRecord (hdel : SilentOnRecords del) {r : Addr}
    (hr : s.bundles.cells r = some b) (hrec : IsRecord b) (timeout : Nat) :
    Silent s (emitRecordWith del P env s a r timeout) := by
  unfold emitRecordWith
  apply ends_of_eq (update_of_cell hr _)
  apply (silent_storageAdd env _ r).bind_of_ok
  rintro ⟨id, s₁⟩ hadd hlogs
  have hcell := cell_of_storageAdd (put_self _ _ _) hadd
  apply (silent_forwardRecord hdel hcell hrec.custody hrec.unreported hrec.hopless
    timeout).bind
  rintro ⟨sent, s₂⟩ hlogs₂
  have hlogs' : SameLogs s s₂ := SameLogs.trans ⟨hlogs.reports, hlogs.administered,
    hlogs.delivered, hlogs.agents⟩ hlogs₂
  dsimp only
  split
  · apply ends_read
    intro c _
    exact hlogs'
  · exact hlogs'

theorem Generated.sameLogs {g : Option Addr × Processor} (h : Generated s g) :
    SameLogs s g.2 := by
  obtain ⟨n, rfl | ⟨x, rb, _, _, _, heq⟩⟩ := h
  · exact ⟨rfl, rfl, rfl, rfl⟩
  · rw [heq]
    exact ⟨rfl, rfl, rfl, rfl⟩

/-- What is generated for a record can be sent without a word. -/
theorem Generated.silent {g : Option Addr × Processor} (h : Generated s g)
    (hdel : SilentOnRecords del) {r : Addr} (hr : g.1 = some r) (reports : List Report)
    (timeout : Nat) :
    Silent { g.2 with reports := reports }
      (emitRecordWith del P env { g.2 with reports := reports } a r timeout) := by
  obtain ⟨n, rfl | ⟨x, rb, hrec, _, hx, heq⟩⟩ := h
  · cases hr
  · obtain rfl : r = x := by
      rcases hx with hx | hx
      · rw [hr] at hx
        cases hx
      · exact Option.some.inj (hr.symm.trans hx)
    apply silent_emitRecord hdel (b := rb) _ hrec
    rw [heq]
    exact put_self _ _ _

/-- **`send_custody_signal`** writes no log. -/
theorem silent_sendCustodySignal (s : Processor) (a : Addr) (signal : CustodySignal) :
    Silent s (sendCustodySignal P env s a signal) := by
  unfold sendCustodySignal sendCustodySignalWith
  apply ends_read
  intro b _
  apply (generateCustodySignal_spec signal).bind
  rintro ⟨r, s₁⟩ hgen
  have hlogs : SameLogs s s₁ := hgen.sameLogs
  cases r with
  | none => exact hlogs
  | some r =>
      exact (hgen.silent (silentOnRecords_bundleDeleteAt 1) rfl s₁.reports _).mono
        fun _ h => hlogs.trans h

end Silent

/-! ## Reports that are asked for -/

/-- Whether a report of the deletion of a bundle is asked for. -/
def Bundle.asksDeletion (b : Bundle) : Bool :=
  b.ret.custodyAccepted || hasFlag b.procFlags flagReportDeletion

/-- Whether the block loop of `bundle_receive` is asked for a report. -/
def blocksAsk : Bool → List Block → Bool
  | _, [] => false
  | true, _ :: xs => blocksAsk false xs
  | false, x :: xs =>
      if x.type = blockTypePayload then blocksAsk false xs
      else
        hasFlag x.flags blockFlagReportIfUnproc ||
          (!hasFlag x.flags blockFlagDeleteBundleIfUnproc &&
            blocksAsk (hasFlag x.flags blockFlagDiscardIfUnproc) xs)

/-- Whether a block of a bundle asks for a report. -/
def Bundle.blocksAsk (b : Bundle) : Bool :=
  BundleProcessor.blocksAsk false b.blocksBefore ||
    ((keptBlocks false b.blocksBefore).isSome && BundleProcessor.blocksAsk false b.blocksAfter)

/-- The slot of a fragment after it was entered, and the number of requests for memory by
then; nothing if there is no memory for the entry. -/
def joinedSlot (env : Env) (s : Processor) (a : Addr) :
    Except Fault (Option (List Addr × Nat)) := do
  match ← findSlot s a s.reassembly with
  | some (_, slot, _) =>
      let slot ← insertFragment s a slot
      pure (if (env.malloc s.requests).isSome then some (slot, s.requests + 1) else none)
  | none =>
      pure (if (env.malloc s.requests).isSome && (env.malloc (s.requests + 1)).isSome then
        some ([a], s.requests + 2) else none)

/-- What `bundle_dispatch` is asked to report. -/
def DispatchAsks (P : Params) (env : Env) (s : Processor) (a : Addr) (b : Bundle) :
    ReportStatus → Prop
  | .delivered => hasFlag b.procFlags flagReportDelivery = true ∧
      (dispatchCourse P env s.known b = .undeliverable ∨
        dispatchCourse P env s.known b = .fragment ∨
        dispatchCourse P env s.known b = .delivered)
  | .deleted => b.asksDeletion = true ∧
      (dispatchCourse P env s.known b = .undeliverable ∨
        (dispatchCourse P env s.known b = .fragment ∧
          ∃ s₁, beforeSearch P env s a = .ok s₁ ∧ joinedSlot env s₁ a = .ok none))
  | _ => False

/-- A bundle is received and then dispatched, in a state with a property. -/
def DispatchedWith (P : Params) (env : Env) (s : Processor) (a : Addr) (b : Bundle)
    (Q : Processor → Bundle → Prop) : Prop :=
  ∃ b' s₁, receptionCourse env s a b = .dispatched b' ∧ beforeDispatch P env s a = .ok s₁ ∧
    Q s₁ b'

/-- What `bundle_receive` is asked to report. -/
def ReceptionAsks (P : Params) (env : Env) (s : Processor) (a : Addr) (b : Bundle)
    (status : ReportStatus) : Prop :=
  (status = .received ∧ (hasFlag b.procFlags flagReportReception = true ∨
    (expiredOnArrival env b = false ∧ b.blocksAsk = true))) ∨
  (status = .deleted ∧ b.asksDeletion = true ∧
    (receptionCourse env s a b = .expired ∨ receptionCourse env s a b = .unintelligible ∨
      receptionCourse env s a b = .refused)) ∨
  DispatchedWith P env s a b fun s₁ b' => DispatchAsks P env s₁ a b' status

/-- What the handling of a signal is asked to report. -/
def SignalAsks (P : Params) (env : Env) (s : Processor) (a : Addr) (b : Bundle)
    (type : BundleSignal) (status : ReportStatus) : Prop :=
  match type with
  | .incoming => ReceptionAsks P env s a b status
  | .routed => status = .custodyTransfer ∧ asksForCustody b = true ∧
      b.ret.custodyAccepted = false ∧ hasFlag b.procFlags flagReportCustodyAcceptance = true
  | .forwardingContraindicated _ | .expired | .transmissionFailure =>
      status = .deleted ∧ b.asksDeletion = true
  | .reschedule => status = .deleted ∧ b.asksDeletion = true ∧
      ((b.ret.custodyAccepted || b.ret.flagOwn) = false ∨ env.pushed s.requests = false)
  | .transmissionSuccess =>
      status = .forwarded ∧ hasFlag b.procFlags flagReportForwarding = true
  | .localDispatch => DispatchAsks P env s a b status

/-! ## Sending and deleting -/

section Told

variable {P : Params} {env : Env} {s s₁ s' : Processor} {m m₁ : UInt16 → Option Addr}
  {a : Addr} {b b₁ : Bundle} {del : Deletion}

/-- A report is not generated after the lifetime of a bundle. -/
theorem generateStatusReport_lived (status : ReportStatus) (reason : ReportReason) :
    Ends (Tolerated False) (generateStatusReport P env s b status reason) fun g =>
      g.1.isSome = true → outlived env b = false := by
  unfold generateStatusReport
  split
  · unfold generateRecord6 malloc
    dsimp only
    split
    · exact nofun
    split
    · exact nofun
    · next hlived =>
      split
      · exact False.elim
      · split
        · exact False.elim
        · exact fun _ => (Bool.not_eq_true _).mp hlived
  split
  · unfold bundle7GenerateStatusReport malloc
    rw [ends_ok]
    cases env.malloc s.requests with
    | none => exact nofun
    | some gap =>
        dsimp only
        cases env.record7 b status reason with
        | none => exact nofun
        | some data =>
            dsimp only
            split
            · exact nofun
            · next hlived => exact fun _ => (Bool.not_eq_true _).mp hlived
  · exact nofun

/-- **`send_status_report`** generates at most the report that it is called for. -/
theorem sendStatusReportWith_filed (hdel : SilentOnRecords del)
    (hb : s.bundles.cells a = some b) (status : ReportStatus) (reason : ReportReason) :
    Ends (Tolerated False) (sendStatusReportWith del P env s a status reason)
      (Filed P env a b (· = status) s) := by
  unfold sendStatusReportWith
  split
  · exact SameLogs.refl.filed
  next hreporting =>
  apply ends_of_eq (bundle_of_cell hb)
  split
  · exact SameLogs.refl.filed
  next hdest =>
  simp only [Bool.or_eq_true, decide_eq_true_eq, not_or] at hdest
  apply ((generateStatusReport_spec status reason).and
    (generateStatusReport_lived status reason)).bind
  rintro ⟨r, s₁⟩ ⟨hgen, hlived⟩
  have hlogs : SameLogs s s₁ := hgen.sameLogs
  cases r with
  | none => exact hlogs.filed
  | some r =>
      have hreportable : Reportable P env b :=
        ⟨by simpa using hreporting, hdest.1, hdest.2, hlived rfl⟩
      have hemit : Silent { s₁ with reports := s₁.reports ++ [⟨a, b, status, reason⟩] }
          (emitRecordWith del P env
            { s₁ with reports := s₁.reports ++ [⟨a, b, status, reason⟩] } a r
            statusReportTimeout) := hgen.silent hdel rfl _ _
      apply hemit.mono
      intro s' hlogs'
      refine ⟨⟨[⟨a, b, status, reason⟩], ?_, ?_⟩, hlogs'.administered.trans hlogs.administered,
        hlogs'.delivered.trans hlogs.delivered, hlogs'.agents.trans hlogs.agents⟩
      · rw [hlogs'.reports, ← hlogs.reports]
      · intro r hr
        obtain rfl := List.mem_singleton.mp hr
        exact ⟨rfl, .refl, hreportable, rfl⟩

/-- A status report under a condition. -/
theorem reportWhen_filed (hb : s.bundles.cells a = some b) (c : Bool) (status : ReportStatus)
    (reason : ReportReason) :
    Ends (Tolerated False) (s.when c fun s => sendStatusReport P env s a status reason)
      (Filed P env a b (fun x => x = status ∧ c = true) s) := by
  apply ends_when
  · intro hc
    apply (sendStatusReportWith_filed (silentOnRecords_bundleDeleteAt 1) hb status reason).mono
    intro s' h
    exact h.mono .refl fun _ hx => ⟨hx, hc⟩
  · intro _
    exact SameLogs.refl.filed

/-- **`bundle_delete`** reports the deletion, if it was asked to, and the bundle is gone. -/
theorem bundleDelete_told (hb : s.bundles.cells a = some b) (reason : ReportReason) :
    Ends (Tolerated False) (bundleDelete P env s a reason) fun s' =>
      Told P env a b (fun status => status = .deleted ∧ b.asksDeletion = true) s s' ∧
        s'.bundles.cells a = none ∧ s'.delivered = s.delivered ∧
        s'.administered = s.administered ∧ s'.agents = s.agents := by
  unfold bundleDelete
  rw [bundleDeleteAt]
  apply ends_of_eq (bundle_of_cell hb)
  apply Ends.bind (R := fun s₁ => SameLogs s s₁ ∧
    ∀ b', s₁.bundles.cells a = some b' → b'.Akin b)
  · apply ends_when
    · intro _
      exact custodyManagerRelease_silent hb
    · intro _
      refine ⟨.refl, fun b' hb' => ?_⟩
      rw [hb] at hb'
      obtain rfl := Option.some.inj hb'
      exact .refl
  intro s₁ hreleased
  obtain ⟨hlogs, hakin⟩ := hreleased
  -- the report reads the bundle again, unless its custody was all that retained it
  have hfiled : Ends (Tolerated False)
      (s₁.when (b.ret.custodyAccepted || hasFlag b.procFlags flagReportDeletion) fun s =>
        sendStatusReportWith (bundleDeleteAt P env 1) P env s a .deleted reason)
      (Filed P env a b (fun status => status = .deleted ∧ b.asksDeletion = true) s) := by
    apply ends_when
    · intro hasks
      cases hcell : s₁.bundles.cells a with
      | none =>
          rcases sendStatusReportWith_dead P env (bundleDeleteAt P env 1) hcell .deleted reason
            with h | h
          · rw [h]
            exact hlogs.filed
          · rw [h]
            exact False.elim
      | some b' =>
          apply (sendStatusReportWith_filed (silentOnRecords_bundleDeleteAt 0) hcell .deleted
            reason).mono
          intro s₂ h
          exact hlogs.filed.trans (h.mono (hakin b' hcell) fun _ hx => ⟨hx, hasks⟩)
    · intro _
      exact hlogs.filed
  apply hfiled.bind
  intro s₂ hfiled₂
  apply (silent_update s₂ a _).bind
  intro s₃ hlogs₃
  apply (bundleDiscard_silent s₃ a).mono
  intro s' hdiscarded
  obtain ⟨hlogs', hgone⟩ := hdiscarded
  have hend := hlogs₃.trans hlogs'
  exact ⟨hfiled₂.gone hend.reports hgone, hgone, hend.delivered.trans hfiled₂.delivered,
    hend.administered.trans hfiled₂.administered, hend.agents.trans hfiled₂.agents⟩

/-! ## Reassembly -/

/-- Whatever a program does, it returns or not. -/
theorem ends_any {α : Type} (x : Except Fault α) : Ends (Tolerated False) x fun _ => True := by
  cases x with
  | ok r => trivial
  | error f => exact False.elim

theorem silent_copyFragments (aduLength : Nat) (l : List Addr) (pos : Nat)
    (payload : List UInt8) (s : Processor) :
    Ends (Tolerated False) (copyFragments P aduLength l pos payload s) fun r =>
      SameLogs s r.2 := by
  induction l generalizing pos payload s with
  | nil => exact .refl
  | cons x xs ih =>
      unfold copyFragments
      apply ends_read
      intro c _
      apply (silent_update s x _).bind
      intro s₁ hlogs₁
      apply (silent_bundleDiscard s₁ x).bind
      intro s₂ hlogs₂
      have hgo : ∀ pos payload, Ends (Tolerated False)
          (copyFragments P aduLength xs pos payload s₂) fun r => SameLogs s r.2 :=
        fun pos payload => (ih pos payload s₂).mono fun _ h => (hlogs₁.trans hlogs₂).trans h
      dsimp only
      split
      · exact hgo _ _
      · exact hgo _ _

/-- `bundle_handle_custody_signal` writes no log. -/
theorem silent_bundleHandleCustodySignal (s : Processor) (record : AdministrativeRecord) :
    Silent s (bundleHandleCustodySignal P s record) := by
  unfold bundleHandleCustodySignal
  apply (ends_any _).bind
  intro found _
  cases found with
  | none => exact .refl
  | some x =>
      cases hx : s.bundles.cells x with
      | some c => exact (custodyManagerRelease_silent hx).mono fun _ h => h.1
      | none =>
          dsimp only
          unfold custodyManagerRelease
          cases s.accepted.idxOf? x with
          | none => exact .refl
          | some index =>
              dsimp only
              rw [update_of_none (s := { s with
                accepted := removeAccepted P.ptrSize s.accepted index }) hx]
              exact False.elim

/-- Whether an ADU finds somebody to be given to. -/
def Receivable (P : Params) (agents : List CStr) (adu : Adu) : Prop :=
  hasFlag adu.procFlags flagAdministrativeRecord = true ∨
    ∃ agentId, getAgentId P.localEid adu.destination = some agentId ∧ agentId ∈ agents

/-- From `s` to `s'` an ADU was given to an agent or to the handler of administrative
records. -/
def HandedOver (P : Params) (adu : Adu) (s s' : Processor) : Prop :=
  (hasFlag adu.procFlags flagAdministrativeRecord = true ∧
    s'.administered = s.administered ++ [adu]) ∨
  ∃ agentId, getAgentId P.localEid adu.destination = some agentId ∧
    s'.delivered = s.delivered ++ [(agentId, adu)]

/-- **`bundle_deliver_adu`** reports nothing, and hands the ADU over if it can. -/
theorem bundleDeliverAdu_handed (s : Processor) (adu : Adu) :
    Ends (Tolerated False) (bundleDeliverAdu P s adu) fun s' =>
      s'.reports = s.reports ∧ (Receivable P s.agents adu → HandedOver P adu s s') := by
  unfold bundleDeliverAdu
  split
  · next hadmin =>
    have hgiven : ∀ s', SameLogs { s with administered := s.administered ++ [adu] } s' →
        s'.reports = s.reports ∧ (Receivable P s.agents adu → HandedOver P adu s s') :=
      fun s' h => ⟨h.reports, fun _ => Or.inl ⟨hadmin, h.administered⟩⟩
    cases P.parseAdministrativeRecord adu.protocolVersion adu.payload with
    | none => exact hgiven _ .refl
    | some record =>
        dsimp only
        split
        · exact (silent_bundleHandleCustodySignal _ record).mono hgiven
        · exact hgiven _ .refl
  · next hadmin =>
    cases hagent : getAgentId P.localEid adu.destination with
    | none => exact False.elim
    | some agentId =>
        dsimp only
        rw [ends_ok]
        unfold agentForward
        split
        · exact ⟨rfl, fun _ => Or.inr ⟨agentId, hagent, rfl⟩⟩
        · next hnot =>
          refine ⟨rfl, fun hrec => ?_⟩
          rcases hrec with h | ⟨id, hid, hmem⟩
          · exact absurd h hadmin
          · rw [hagent] at hid
            obtain rfl := Option.some.inj hid
            exact absurd hmem hnot

/-- `try_reassemble` reports nothing. -/
theorem tryReassemble_reports (s : Processor) (before : List (List Addr)) (slot : List Addr)
    (after : List (List Addr)) :
    Ends (Tolerated False) (tryReassemble P env s before slot after) fun s' =>
      s'.reports = s.reports := by
  unfold tryReassemble
  apply (ends_any _).bind
  intro complete _
  cases complete with
  | false => rfl
  | true =>
      cases slot with
      | nil => rfl
      | cons first others =>
          dsimp only
          apply ends_read
          intro c _
          unfold malloc
          cases env.malloc s.requests with
          | none => rfl
          | some gap =>
              apply (silent_copyFragments _ _ _ _ _).bind
              rintro ⟨payload, s₁⟩ hlogs
              apply (bundleDeliverAdu_handed _ _).mono
              intro s' ⟨hreports, _⟩
              exact hreports.trans hlogs.reports

end Told

end BundleProcessor
