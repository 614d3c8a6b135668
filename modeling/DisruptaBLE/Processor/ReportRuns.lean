import DisruptaBLE.Processor.Arrival
import DisruptaBLE.Processor.ReportedSignals

/-!
# Whether reports are true

`status_reports_truthful`: in every run of truthful signals, a bundle that is reported as
delivered is handed over in the same step, a bundle that is reported as deleted leaves
the storage in the same step, no bundle is reported as both, and no report is generated
for a bundle whose reports go nowhere or to the node itself.

A signal is truthful if the bundle that has a delivery reported is handed over by it.
`bundle_deliver_local` reports the delivery first: then the bundle may be deleted, dropped
because its agent is not registered, or wait for other fragments.  And
`send_status_report` looks at the destination, where it means the EID for reports.
-/

namespace BundleProcessor

open PtrHeap BundleStorage Outcome

/-! ## Handing over -/

/-- A fragment completes its slot, there is memory for the ADU, and somebody receives it.
The state is the one before the search for the slot. -/
def Completes (P : Params) (env : Env) (s : Processor) (a : Addr) : Prop :=
  ∃ slot n first rest, joinedSlot env s a = .ok (some (slot, n)) ∧
    Occupied s.bundles slot (first :: rest) ∧ gapless 0 (first :: rest) = true ∧
    (env.malloc n).isSome = true ∧ Receivable P s.agents (bundleAduInit first)

/-- The dispatch of a bundle has its payload handed over: the bundle itself is delivered to
somebody, or it is the last fragment that was missing. -/
def Delivers (P : Params) (env : Env) (s : Processor) (a : Addr) (b : Bundle) : Prop :=
  match dispatchCourse P env s.known b with
  | .delivered => Receivable P s.agents (bundleToAdu b).1
  | .fragment => ∀ s₁, beforeSearch P env s a = .ok s₁ → Completes P env s₁ a
  | _ => False

/-- An ADU that was put together from the fragment `b` and fragments that waited. -/
def AssembledFrom (P : Params) (s : Processor) (b : Bundle) (adu : Adu) : Prop :=
  ∃ first rest buffer, (∃ c ∈ first :: rest, c.Akin b) ∧
    (∀ c ∈ first :: rest, c.Akin b ∨ ∃ x ∈ s.reassembly.flatten, s.bundles.cells x = some c) ∧
    adu = { bundleAduInit first with
      payload := (copies P first.totalAduLength.toNat (first :: rest) 0).foldl Copy.write
        buffer }

/-- The payload of a bundle was handed over, directly or through reassembly. -/
def Conveyed (P : Params) (b : Bundle) (s s' : Processor) : Prop :=
  ∃ adu, HandedOver P adu s s' ∧
    (adu = (bundleToAdu b).1 ∨ (b.isFragmented = true ∧ AssembledFrom P s b adu))

section Handing

variable {P : Params} {env : Env} {s s₁ s' : Processor} {m m₁ : UInt16 → Option Addr}
  {a : Addr} {b b₁ : Bundle} {adu : Adu}

theorem HandedOver.of_eq (h : HandedOver P adu s₁ s')
    (hadmin : s₁.administered = s.administered) (hdeliv : s₁.delivered = s.delivered) :
    HandedOver P adu s s' := by
  unfold HandedOver
  rw [← hadmin, ← hdeliv]
  exact h

/-- The fragments of a slot that is complete are put together and handed over. -/
theorem tryReassemble_handed {before after : List (List Addr)} {slot : List Addr}
    {first : Bundle} {rest : List Bundle}
    (hs : Sound False False s m (before ++ slot :: after).flatten)
    (hocc : Occupied s.bundles slot (first :: rest)) (hgap : gapless 0 (first :: rest) = true)
    (hmem : (env.malloc s.requests).isSome = true)
    (hrec : Receivable P s.agents (bundleAduInit first)) :
    Ends (Tolerated False) (tryReassemble P env s before slot after) fun s' =>
      (∀ x ∈ slot, s'.bundles.cells x = none) ∧ ∃ buffer, HandedOver P
        { bundleAduInit first with
          payload := (copies P first.totalAduLength.toNat (first :: rest) 0).foldl Copy.write
            buffer } s s' := by
  have hslot : Sound False False s m (slot ++ (before ++ after).flatten) :=
    hs.withFrags (fun x hx => hs.below x ((flatten_between before slot after).subset hx))
      False.elim
  unfold tryReassemble
  have hcan : canReassemble { s with reassembly := before ++ slot :: after } 0 slot = .ok true := by
    rw [canReassemble_eq (s := { s with reassembly := before ++ slot :: after }) hocc, hgap]
  apply ends_of_eq hcan
  obtain ⟨x, xs, rfl⟩ : ∃ x xs, slot = x :: xs := by
    cases slot with
    | nil => cases hocc
    | cons x xs => exact ⟨x, xs, rfl⟩
  obtain ⟨hx, hrest⟩ := List.cons.inj hocc
  dsimp only
  apply ends_of_eq (bundle_of_cell (s := { s with reassembly := before ++ (x :: xs) :: after })
    (b := first) hx)
  unfold malloc
  cases hmem' : env.malloc s.requests with
  | none =>
      rw [hmem'] at hmem
      cases hmem
  | some gap =>
      dsimp only
      generalize hknown : bundleAddReassembledAsKnown env _ first = s₁
      have hparts : s₁.bundles = s.bundles ∧ s₁.store = s.store ∧ s₁.accepted = s.accepted ∧
          SameLogs s s₁ := by
        rw [← hknown]
        exact ⟨rfl, rfl, rfl, ⟨rfl, rfl, rfl, rfl⟩⟩
      obtain ⟨hbun, hstore, hacc, hlogs⟩ := hparts
      have hs₁ : Sound False False s₁ m (x :: xs ++ (before ++ after).flatten) := by
        rw [Sound, hbun, hstore, hacc]
        exact hslot
      have hocc₁ : Occupied s₁.bundles (x :: xs) (first :: rest) := by
        rw [hbun]
        exact hocc
      apply ((copyFragments_spec hs₁ _ _ _).and (silent_copyFragments _ _ _ _ _)).bind_of_ok
      rintro ⟨payload, s₂⟩ hcopy ⟨⟨m₂, hs₂, _, _, _, hgone⟩, hlogs₂⟩
      obtain rfl := copyFragments_payload hocc₁ hcopy
      apply ((bundleDeliverAdu_handed _ _).and (bundleDeliverAdu_spec
        (s := { s₂ with reassembly := before ++ after }) hs₂ False.elim)).mono
      intro s' hdelivered
      obtain ⟨⟨_, hhanded⟩, _, _, hfades, _⟩ := hdelivered
      have hlogs' : SameLogs s s₂ := hlogs.trans hlogs₂
      have hreceivable : Receivable P s₂.agents (bundleAduInit first) := by
        rw [hlogs'.agents]
        exact hrec
      exact ⟨fun y hy => hfades.gone (hgone y hy), _,
        (hhanded hreceivable).of_eq hlogs'.administered hlogs'.delivered⟩

/-- The way to the slot of a fragment, if there is memory for the entry. -/
theorem joinSlot_joined {slot : List Addr} {n : Nat} (hb : s.bundles.cells a = some b)
    (h : joinedSlot env s a = .ok (some (slot, n))) :
    ∃ before old after, a ∈ slot ∧ slot ⊆ a :: s.reassembly.flatten ∧
      (before ++ old :: after).flatten = s.reassembly.flatten ∧ slot ⊆ a :: old ∧
      joinSlot P env s a = tryReassemble P env { s with requests := n } before slot after := by
  unfold joinedSlot at h
  obtain ⟨found, hsearch, h⟩ := ok_of_bind h
  have hfound := ((findSlot_spec (show Alive False s _ from False.elim) hb).of_ok hsearch).1
  cases found with
  | some found =>
      obtain ⟨before, old, after⟩ := found
      obtain ⟨slot', hins, h⟩ := ok_of_bind h
      obtain ⟨l₁, l₂, hslot', hinserted⟩ :=
        (insertFragment_spec (show Alive False s _ from False.elim) hb).of_ok hins
      obtain ⟨hreas, _⟩ := hfound before old after rfl
      cases hmem : env.malloc s.requests with
      | none =>
          rw [hmem] at h
          cases h
      | some gap =>
          rw [hmem] at h
          obtain ⟨rfl, rfl⟩ := Prod.mk.inj (Option.some.inj (Except.ok.inj h))
          have hold : slot' ⊆ a :: old := by
            rw [hslot']
            exact hinserted.perm.subset
          refine ⟨before, old, after, ?_, ?_, by rw [hreas], hold, ?_⟩
          · rw [hslot']
            simp
          · intro x hx
            rcases List.mem_cons.mp (hold hx) with rfl | hx
            · exact List.mem_cons_self
            · rw [hreas]
              simp [hx]
          · unfold joinSlot addToReassemblyBundleList malloc
            rw [hsearch, ok_bind]
            dsimp only
            rw [hins, ok_bind, hmem]
            rfl
  | none =>
      cases hmem : env.malloc s.requests with
      | none =>
          rw [hmem] at h
          cases h
      | some gap =>
          cases hmem₂ : env.malloc (s.requests + 1) with
          | none =>
              rw [hmem, hmem₂] at h
              cases h
          | some gap₂ =>
              rw [hmem, hmem₂] at h
              obtain ⟨rfl, rfl⟩ := Prod.mk.inj (Option.some.inj (Except.ok.inj h))
              refine ⟨s.reassembly, [], [], by simp, by simp, by simp, by simp, ?_⟩
              unfold joinSlot addToReassemblyBundleList insertFragment malloc
              rw [hsearch, ok_bind, hmem]
              dsimp only
              rw [hmem₂]
              rfl

/-- A bundle that is delivered was not known, and is no fragment. -/
theorem delivered_course (h : dispatchCourse P env s.known b = .delivered) :
    bundleEndpointIsLocal P b = true ∧ alreadyKnown env s.known b = false ∧
      (!hasFlag b.procFlags flagAdministrativeRecord &&
        (getAgentId P.localEid b.destination).isNone) = false ∧ b.isFragmented = false := by
  cases hlocal : bundleEndpointIsLocal P b with
  | false =>
      unfold dispatchCourse at h
      rw [hlocal, if_neg (by simp)] at h
      split at h
      · cases h
      · cases h
  | true =>
      cases hknown : alreadyKnown env s.known b with
      | true => simp [dispatchCourse, deliveryCourse, hlocal, hknown] at h
      | false =>
          rw [course_of_unknown hlocal hknown] at h
          split at h
          · cases h
          · next hagent =>
            split at h
            · cases h
            · next hfrag =>
              exact ⟨rfl, rfl, (Bool.not_eq_true _).mp hagent, (Bool.not_eq_true _).mp hfrag⟩

/-- A bundle that is delivered to somebody is handed over, and gone. -/
theorem dispatchDelivered_conveyed (hs : Sound False False s m s.reassembly.flatten)
    (hb : s.bundles.cells a = some b) (hcourse : dispatchCourse P env s.known b = .delivered)
    (hrec : Receivable P s.agents (bundleToAdu b).1) :
    Ends (Tolerated False) (bundleDispatch P env s a) fun s' =>
      s'.bundles.cells a = none ∧ Conveyed P b s s' := by
  obtain ⟨hlocal, hnew, hagent, hfrag⟩ := delivered_course hcourse
  apply ends_dispatchUnknown hs hb hlocal hnew
  intro s₁ m₁ hs₁ hcell hfiled
  rw [hagent, if_neg (by simp), hfrag, if_neg (by simp)]
  have hgone := deliver_spec (P := P) hs₁ hcell False.elim False.elim False.elim
  have hhanded : Ends (Tolerated False)
      (do
        let s ← s₁.update a fun b => (bundleToAdu b).2
        let s ← bundleDiscard s a
        bundleDeliverAdu P s (bundleToAdu b.undispatched).1)
          (HandedOver P (bundleToAdu b).1 s) := by
    apply (silent_update s₁ a _).bind
    intro s₂ hlogs₂
    apply (silent_bundleDiscard s₂ a).bind
    intro s₃ hlogs₃
    have hlogs := hlogs₂.trans hlogs₃
    apply (bundleDeliverAdu_handed s₃ _).mono
    intro s' ⟨_, hhanded⟩
    have hreceivable : Receivable P s₃.agents (bundleToAdu b).1 := by
      rw [hlogs.agents, hfiled.agents]
      exact hrec
    exact (hhanded hreceivable).of_eq (hlogs.administered.trans hfiled.administered)
      (hlogs.delivered.trans hfiled.delivered)
  apply (hgone.and hhanded).mono
  intro s' ⟨⟨_, _, hnone⟩, hover⟩
  exact ⟨hnone, _, hover, Or.inl rfl⟩

/-- The cells of a slot are its fragments. -/
theorem Occupied.exists_mem {h : Heap Bundle} {slot : List Addr} {frags : List Bundle}
    (hocc : Occupied h slot frags) :
    (∀ x ∈ slot, ∃ c ∈ frags, h.cells x = some c) ∧
      ∀ c ∈ frags, ∃ x ∈ slot, h.cells x = some c := by
  constructor
  · intro x hx
    have hmem : h.cells x ∈ slot.map h.cells := List.mem_map_of_mem hx
    rw [show slot.map h.cells = frags.map some from hocc] at hmem
    obtain ⟨c, hc, heq⟩ := List.mem_map.mp hmem
    exact ⟨c, hc, heq.symm⟩
  · intro c hc
    have hmem : some c ∈ frags.map some := List.mem_map_of_mem hc
    rw [← show slot.map h.cells = frags.map some from hocc] at hmem
    exact List.mem_map.mp hmem

/-- A fragment that completes its slot is handed over with the others, and gone. -/
theorem dispatchFragment_conveyed (hs : Sound False False s m s.reassembly.flatten)
    (hb : s.bundles.cells a = some b) (hcourse : dispatchCourse P env s.known b = .fragment)
    (hcomp : ∀ s₁, beforeSearch P env s a = .ok s₁ → Completes P env s₁ a) :
    Ends (Tolerated False) (bundleDispatch P env s a) fun s' =>
      s'.bundles.cells a = none ∧ Conveyed P b s s' := by
  rw [bundleDispatch_fragment hb hcourse]
  apply ((beforeSearch_filed hb).and (beforeSearch_spec hs hb False.elim)).bind_of_ok
  intro s₁ hbefore ⟨hfiled, m₁, hs₁, hled, _⟩
  obtain ⟨slot, n, first, rest, hjoined, hocc, hgap, hmem, hrec⟩ := hcomp s₁ hbefore
  apply ends_intro
  · intro s' hrun
    obtain ⟨_, _, _, hnew⟩ := (bundleAttemptReassembly_spec hs₁ hled.cell False.elim False.elim
      False.elim False.elim).of_ok hrun
    unfold bundleAttemptReassembly at hrun
    rw [bundle_of_cell hled.cell, ok_bind, hnew] at hrun
    replace hrun : joinSlot P env s₁ a = .ok s' := hrun
    obtain ⟨before, old, after, ha, hsub, hflat, hold, hjoin⟩ := joinSlot_joined hled.cell hjoined
    rw [hjoin] at hrun
    have hbelow : ∀ x ∈ (before ++ slot :: after).flatten, x < s₁.bundles.bound := by
      intro x hx
      have hmem : x = a ∨ x ∈ s₁.reassembly.flatten := by
        rw [← hflat]
        simp only [List.flatten_append, List.flatten_cons, List.mem_append] at hx ⊢
        rcases hx with hx | hx | hx
        · exact Or.inr (Or.inl hx)
        · rcases List.mem_cons.mp (hold hx) with rfl | hx
          · exact Or.inl rfl
          · exact Or.inr (Or.inr (Or.inl hx))
        · exact Or.inr (Or.inr (Or.inr hx))
      rcases hmem with rfl | hmem
      · exact Heap.lt_bound_of_cell hled.cell
      · exact hs₁.below x hmem
    have hs₂ : Sound False False { s₁ with requests := n } m₁ (before ++ slot :: after).flatten :=
      hs₁.withFrags hbelow False.elim
    obtain ⟨hgone, buffer, hover⟩ := (tryReassemble_handed hs₂ hocc hgap hmem hrec).of_ok hrun
    refine ⟨hgone a ha, _, hover.of_eq hfiled.administered hfiled.delivered, Or.inr ⟨?_, ?_⟩⟩
    · exact (fragment_course hcourse).2.2.2
    obtain ⟨hcells, hfrags⟩ := hocc.exists_mem
    have hakin : ∀ c, s₁.bundles.cells a = some c → c.Akin b := by
      intro c hc
      rw [hled.cell] at hc
      obtain rfl := Option.some.inj hc
      exact ⟨rfl, rfl⟩
    refine ⟨first, rest, buffer, ?_, ?_, rfl⟩
    · obtain ⟨c, hc, hcell⟩ := hcells a ha
      exact ⟨c, hc, hakin c hcell⟩
    · intro c hc
      obtain ⟨x, hx, hcell⟩ := hfrags c hc
      by_cases hxa : x = a
      · subst hxa
        exact Or.inl (hakin c hcell)
      · have hx' := (List.mem_cons.mp (hsub hx)).resolve_left hxa
        rw [hled.reassembly] at hx'
        refine Or.inr ⟨x, hx', ?_⟩
        rw [← hled.others x (hs.below x hx') hxa]
        exact hcell
  · exact fun _ _ => False.elim

/-- **`bundle_dispatch`** hands the payload over where it should. -/
theorem bundleDispatch_conveyed (hs : Sound False False s m s.reassembly.flatten)
    (hb : s.bundles.cells a = some b) (hdel : Delivers P env s a b) :
    Ends (Tolerated False) (bundleDispatch P env s a) fun s' =>
      s'.bundles.cells a = none ∧ Conveyed P b s s' := by
  unfold Delivers at hdel
  cases hcourse : dispatchCourse P env s.known b with
  | delivered =>
      rw [hcourse] at hdel
      exact dispatchDelivered_conveyed hs hb hcourse hdel
  | fragment =>
      rw [hcourse] at hdel
      exact dispatchFragment_conveyed hs hb hcourse hdel
  | duplicate =>
      rw [hcourse] at hdel
      exact hdel.elim
  | undeliverable =>
      rw [hcourse] at hdel
      exact hdel.elim
  | hopLimitExceeded =>
      rw [hcourse] at hdel
      exact hdel.elim
  | forwarded =>
      rw [hcourse] at hdel
      exact hdel.elim

/-- The ADU of a bundle depends on what stays of it. -/
theorem bundleToAdu_akin (h : b₁.Akin b) : (bundleToAdu b₁).1 = (bundleToAdu b).1 := by
  have hinit := eq_of_bare bundleAduInit (fun _ => rfl) h.1
  unfold bundleToAdu
  rw [hinit, h.2]

theorem Conveyed.akin (h : Conveyed P b₁ s s') (hb : b₁.Akin b) : Conveyed P b s s' := by
  obtain ⟨adu, hover, hadu⟩ := h
  refine ⟨adu, hover, hadu.imp (fun h => h.trans (bundleToAdu_akin hb)) fun ⟨hfrag, hfrom⟩ => ?_⟩
  refine ⟨(eq_of_bare Bundle.isFragmented (fun _ => rfl) hb.1).symm.trans hfrag, ?_⟩
  obtain ⟨first, rest, buffer, ⟨c, hc, hcb⟩, hall, heq⟩ := hfrom
  exact ⟨first, rest, buffer, ⟨c, hc, hcb.trans hb⟩,
    fun c hc => (hall c hc).imp_left fun h => h.trans hb, heq⟩

/-- Before the payload is handed over, the bundle was led to the dispatch. -/
theorem Conveyed.of_led (h : Conveyed P b₁ s₁ s') (hled : Led s m a b₁ s₁ m₁)
    (hs : Sound False False s m s.reassembly.flatten) (hb : b₁.Akin b)
    (hadmin : s₁.administered = s.administered) : Conveyed P b s s' := by
  apply Conveyed.akin _ hb
  obtain ⟨adu, hover, hadu⟩ := h
  refine ⟨adu, hover.of_eq hadmin hled.delivered, hadu.imp_right fun ⟨hfrag, hfrom⟩ => ?_⟩
  obtain ⟨first, rest, buffer, hself, hall, heq⟩ := hfrom
  refine ⟨hfrag, first, rest, buffer, hself, fun c hc => ?_, heq⟩
  rcases hall c hc with hakin | ⟨x, hx, hcell⟩
  · exact Or.inl hakin
  · rw [hled.reassembly] at hx
    by_cases hxa : x = a
    · rw [hxa, hled.cell] at hcell
      obtain rfl := Option.some.inj hcell
      exact Or.inl .refl
    · rw [hled.others x (hs.below x hx) hxa] at hcell
      exact Or.inr ⟨x, hx, hcell⟩

/-- `bundle_receive` up to the dispatch gives nothing to the handler of records. -/
theorem beforeDispatch_administered (hs : Sound False False s m s.reassembly.flatten)
    (hb : s.bundles.cells a = some b) :
    Ends (Tolerated False) (beforeDispatch P env s a) fun s₁ =>
      s₁.administered = s.administered := by
  have hs₀ : Sound False False (s.put a b.arrived) m s.reassembly.flatten :=
    hs.set_ret hb _ False.elim False.elim
  unfold beforeDispatch
  apply ends_of_eq (update_of_cell hb _)
  apply ends_of_eq (bundle_of_cell (put_self _ _ _))
  apply ((reportWhen_filed (put_self s a b.arrived) _ _ _).and (reportWhen_spec
    (s := s.put a b.arrived) hs₀ (put_self _ _ _) _ _ _)).bind
  intro s₁ ⟨hfiled₁, m₁, hs₁, htraf₁⟩
  have hcell₁ := htraf₁.cell (put_self _ _ _)
  apply ((handleBlocks_filed false b.blocksBefore hs₁ hcell₁).and
    (handleBlocks_spec false b.blocksBefore hs₁ hcell₁)).bind
  rintro ⟨kept₁, s₂⟩ ⟨hfiled₂, _, m₂, hs₂, htraf₂⟩
  apply (handleBlocks_filed false b.blocksAfter hs₂ (htraf₂.cell hcell₁)).bind
  rintro ⟨kept₂, s₃⟩ hfiled₃
  apply (silent_update s₃ a _).mono
  intro s₄ hlogs
  exact (hlogs.administered.trans hfiled₃.administered).trans
    (hfiled₂.administered.trans hfiled₁.administered)

end Handing

/-! ## Truthful signals -/

/-- Where the handling of a signal is asked to report a delivery, the payload is handed
over. -/
def SignalDelivers (P : Params) (env : Env) (s : Processor) (a : Addr) (b : Bundle) :
    BundleSignal → Prop
  | .incoming => DispatchedWith P env s a b fun s₁ b' => Delivers P env s₁ a b'
  | .localDispatch => Delivers P env s a b
  | _ => True

/-- The signals whose reports are true: whoever asks for a report has it sent to somebody
else, and who asks for a report of its delivery is handed over. -/
def Truthful (P : Params) (env : Env) (s : Processor) (sig : Signal) : Prop :=
  ∀ type a b, About s sig type a b → Reportable P env b →
    (∀ status, SignalAsks P env s a b type status →
      b.reportTo ≠ eidNone ∧ b.reportTo ≠ P.localEid) ∧
    (SignalAsks P env s a b type .delivered → SignalDelivers P env s a b type)

section Truthful

variable {P : Params} {env : Env} {s s₁ s' : Processor} {m m₁ : UInt16 → Option Addr}
  {a : Addr} {b b₁ : Bundle} {sig : Signal} {type : BundleSignal}

/-- **The cases of `handle_signal`** hand the payload over where they should. -/
theorem handleBundleSignal_conveyed (hs : Sound False False s m s.reassembly.flatten)
    (hb : s.bundles.cells a = some b) (hasks : SignalAsks P env s a b type .delivered)
    (hdel : SignalDelivers P env s a b type) :
    Ends (Tolerated False) (handleBundleSignal P env s a type) fun s' =>
      s'.bundles.cells a = none ∧ Conveyed P b s s' := by
  cases type with
  | localDispatch => exact bundleDispatch_conveyed hs hb hdel
  | incoming =>
      obtain ⟨b', s₁, hcourse, hbefore, hdelivers⟩ := hdel
      obtain ⟨hrec, hcustody⟩ := received_of_course hcourse
      obtain ⟨m₁, b₁, hs₁, hled, _, hrecv⟩ := (beforeDispatch_spec hs hb False.elim).of_ok hbefore
      have hadmin := (beforeDispatch_administered hs hb).of_ok hbefore
      obtain rfl := hrecv b' hrec
      show Ends _ (bundleReceive P env s a) _
      rw [bundleReceive_dispatched hs hb hcourse, hbefore, ok_bind]
      unfold custodyOrDispatch
      apply ends_of_eq (bundle_of_cell hled.cell)
      rw [show (hasFlag b'.procFlags flagCustodyTransferRequested &&
        decide (b'.protocolVersion = 6)) = false from hcustody, if_neg (by simp)]
      apply (bundleDispatch_conveyed hs₁ hled.cell hdelivers).mono
      intro s' ⟨hgone, hconveyed⟩
      exact ⟨hgone, hconveyed.of_led hled hs (received_akin hrec).1 hadmin⟩
  | routed => cases hasks.1
  | forwardingContraindicated reason => cases hasks.1
  | expired => cases hasks.1
  | reschedule => cases hasks.1
  | transmissionSuccess => cases hasks.1
  | transmissionFailure => cases hasks.1

theorem Delivers.not_deleted (h : Delivers P env s a b) : ¬ DispatchAsks P env s a b .deleted := by
  rintro ⟨_, hcourse | ⟨hcourse, s₁, hbefore, hnone⟩⟩
  · unfold Delivers at h
    rw [hcourse] at h
    exact h
  · unfold Delivers at h
    rw [hcourse] at h
    obtain ⟨slot, n, _, _, hjoined, _⟩ := h s₁ hbefore
    rw [hnone] at hjoined
    cases hjoined

/-- A bundle that is handed over is not deleted. -/
theorem SignalDelivers.not_deleted (hasks : SignalAsks P env s a b type .delivered)
    (h : SignalDelivers P env s a b type) : ¬ SignalAsks P env s a b type .deleted := by
  cases type with
  | localDispatch => exact Delivers.not_deleted h
  | incoming =>
      obtain ⟨b', s₁, hcourse, hbefore, hdelivers⟩ := h
      rintro (⟨h, _⟩ | ⟨_, _, h⟩ | ⟨b₂, s₂, hcourse₂, hbefore₂, hdeleted⟩)
      · cases h
      · rw [hcourse] at h
        simp at h
      · rw [hcourse] at hcourse₂
        rw [hbefore] at hbefore₂
        obtain rfl := Reception.dispatched.inj hcourse₂
        obtain rfl := Except.ok.inj hbefore₂
        exact hdelivers.not_deleted hdeleted
  | routed => cases hasks.1
  | forwardingContraindicated reason => cases hasks.1
  | expired => cases hasks.1
  | reschedule => cases hasks.1
  | transmissionSuccess => cases hasks.1
  | transmissionFailure => cases hasks.1

/-- What a truthful signal reports: only about its bundle, which is gone if it was
delivered or deleted, and was handed over in the first case. -/
structure TrueReport (P : Params) (s s' : Processor) (a : Addr) (r : Report) : Prop where
  about : r.about = a
  reportTo : r.bundle.reportTo ≠ eidNone ∧ r.bundle.reportTo ≠ P.localEid
  gone : r.status = .delivered ∨ r.status = .deleted → s'.bundles.cells a = none
  conveyed : r.status = .delivered → Conveyed P r.bundle s s'

/-- **A truthful signal has true reports**, and none of a delivery together with one of a
deletion. -/
theorem handleBundleSignal_true (hs : Sound False False s m s.reassembly.flatten)
    (hb : s.bundles.cells a = some b)
    (htrue : Reportable P env b →
      (∀ status, SignalAsks P env s a b type status →
        b.reportTo ≠ eidNone ∧ b.reportTo ≠ P.localEid) ∧
      (SignalAsks P env s a b type .delivered → SignalDelivers P env s a b type)) :
    Ends (Tolerated False) (handleBundleSignal P env s a type) fun s' =>
      ∃ new, s'.reports = s.reports ++ new ∧ (∀ r ∈ new, TrueReport P s s' a r) ∧
        ¬ ((∃ r ∈ new, r.status = .delivered) ∧ ∃ r ∈ new, r.status = .deleted) := by
  apply (handleBundleSignal_told hs hb type).mono_of_ok
  intro s' hrun ⟨new, heq, hnew⟩
  refine ⟨new, heq, fun r hr => ?_, ?_⟩
  · obtain ⟨hentry, hgone⟩ := hnew r hr
    obtain ⟨hto, hdelivers⟩ := htrue hentry.reportable
    have hsent := eq_of_bare Bundle.reportTo (fun _ => rfl) hentry.akin.1
    have hconvey : r.status = .delivered →
        s'.bundles.cells a = none ∧ Conveyed P r.bundle s s' := by
      intro hstatus
      have hasked := hentry.asked
      rw [hstatus] at hasked
      obtain ⟨hnone, hconveyed⟩ :=
        (handleBundleSignal_conveyed hs hb hasked (hdelivers hasked)).of_ok hrun
      exact ⟨hnone, hconveyed.akin ⟨hentry.akin.1.symm, hentry.akin.2.symm⟩⟩
    refine ⟨hentry.about, ?_, fun h => h.elim (fun h => (hconvey h).1) hgone,
      fun h => (hconvey h).2⟩
    rw [hsent]
    exact hto r.status hentry.asked
  · rintro ⟨⟨r₁, hr₁, hstatus₁⟩, r₂, hr₂, hstatus₂⟩
    have hentry₁ := (hnew r₁ hr₁).1
    have hasked₁ := hentry₁.asked
    have hasked₂ := (hnew r₂ hr₂).1.asked
    rw [hstatus₁] at hasked₁
    rw [hstatus₂] at hasked₂
    exact SignalDelivers.not_deleted hasked₁ ((htrue hentry₁.reportable).2 hasked₁) hasked₂

/-- **`handle_signal`**: a signal without a bundle reports nothing. -/
theorem handleSignal_true (hs : Sound False False s m s.reassembly.flatten)
    (htrue : Truthful P env s sig) (hrun : handleSignal P env s sig = .ok s') :
    s'.reports = s.reports ∨ ∃ id a b new, bundleStorageGet s.store id = .ok (some a) ∧
      s.bundles.cells a = some b ∧ s'.reports = s.reports ++ new ∧
      (∀ r ∈ new, TrueReport P s s' a r) ∧
      ¬ ((∃ r ∈ new, r.status = .delivered) ∧ ∃ r ∈ new, r.status = .deleted) := by
  cases sig with
  | agentRegister sinkIdentifier =>
      obtain rfl := Except.ok.inj hrun
      refine Or.inl ?_
      unfold agentRegister malloc
      split
      · rfl
      · dsimp only
        split
        · rfl
        · rfl
  | agentDeregister sinkIdentifier =>
      obtain rfl := Except.ok.inj hrun
      exact Or.inl rfl
  | bundle id type =>
      unfold handleSignal at hrun
      obtain ⟨found, hget, hrun⟩ := ok_of_bind hrun
      rw [hs.rep.get] at hget
      obtain rfl := Except.ok.inj hget
      have hstored := hs.rep.get id
      cases hm : m id with
      | none =>
          rw [hm] at hrun
          obtain rfl := Except.ok.inj hrun
          exact Or.inl rfl
      | some a =>
          rw [hm] at hrun hstored
          obtain ⟨b, hb, _⟩ := hs.stored id a hm
          obtain ⟨new, hnew⟩ := (handleBundleSignal_true hs hb
            (htrue type a b ⟨id, rfl, hstored, hb⟩)).of_ok hrun
          exact Or.inr ⟨id, a, b, new, hstored, hb, hnew⟩

/-! ## Runs -/

/-- Storing a bundle reports nothing. -/
theorem storeBundle_reports (env : Env) (s : Processor) (b : Bundle) :
    Ends (Tolerated False) (storeBundle env s b) fun s' => s'.reports = s.reports := by
  unfold storeBundle newBundle malloc
  cases env.malloc s.requests with
  | none => rfl
  | some gap =>
      dsimp only
      apply (silent_storageAdd env _ _).bind
      rintro ⟨id, s₁⟩ hlogs
      dsimp only
      split
      · exact hlogs.reports
      · exact hlogs.reports

/-- What the reports of a run have in common. -/
structure Honest (P : Params) (s : Processor) : Prop where
  reportTo : ∀ r ∈ s.reports, r.bundle.reportTo ≠ eidNone ∧ r.bundle.reportTo ≠ P.localEid
  gone : ∀ r ∈ s.reports, r.status = .delivered ∨ r.status = .deleted →
    r.about < s.bundles.bound ∧ s.bundles.cells r.about = none
  single : ∀ r₁ ∈ s.reports, ∀ r₂ ∈ s.reports, r₁.status = .delivered →
    r₂.status = .deleted → r₁.about ≠ r₂.about

/-- Bundles do not come back. -/
theorem Evolves.gone (h : Evolves s s') {x : Addr} (hx : x < s.bundles.bound)
    (hnone : s.bundles.cells x = none) :
    x < s'.bundles.bound ∧ s'.bundles.cells x = none := by
  refine ⟨Nat.lt_of_lt_of_le hx h.bound, ?_⟩
  cases hcell : s'.bundles.cells x with
  | none => rfl
  | some c' =>
      obtain ⟨c, hc, _⟩ := h.cells x hx c' hcell
      rw [hnone] at hc
      cases hc

theorem Honest.of_reports (h : Honest P s) (heq : s'.reports = s.reports) (hev : Evolves s s') :
    Honest P s' where
  reportTo := by
    rw [heq]
    exact h.reportTo
  gone r hr hstatus := by
    rw [heq] at hr
    exact hev.gone (h.gone r hr hstatus).1 (h.gone r hr hstatus).2
  single := by
    rw [heq]
    exact h.single

/-- The reports about one more bundle. -/
theorem Honest.append {new : List Report} (h : Honest P s) (heq : s'.reports = s.reports ++ new)
    (hev : Evolves s s') (hb : s.bundles.cells a = some b)
    (hnew : ∀ r ∈ new, TrueReport P s s' a r)
    (hone : ¬ ((∃ r ∈ new, r.status = .delivered) ∧ ∃ r ∈ new, r.status = .deleted)) :
    Honest P s' where
  reportTo r hr := by
    rw [heq] at hr
    rcases List.mem_append.mp hr with hr | hr
    · exact h.reportTo r hr
    · exact (hnew r hr).reportTo
  gone r hr hstatus := by
    rw [heq] at hr
    rcases List.mem_append.mp hr with hr | hr
    · exact hev.gone (h.gone r hr hstatus).1 (h.gone r hr hstatus).2
    · rw [(hnew r hr).about]
      exact ⟨Nat.lt_of_lt_of_le (Heap.lt_bound_of_cell hb) hev.bound, (hnew r hr).gone hstatus⟩
  single r₁ hr₁ r₂ hr₂ hdel₁ hdel₂ := by
    -- a bundle that is handled now was not delivered or deleted before
    have hlive : ∀ r ∈ s.reports, r.status = .delivered ∨ r.status = .deleted → r.about ≠ a := by
      rintro r hr hstatus rfl
      have hnone := (h.gone r hr hstatus).2
      rw [hb] at hnone
      cases hnone
    rw [heq] at hr₁ hr₂
    rcases List.mem_append.mp hr₁ with hr₁ | hr₁
    · rcases List.mem_append.mp hr₂ with hr₂ | hr₂
      · exact h.single r₁ hr₁ r₂ hr₂ hdel₁ hdel₂
      · rw [(hnew r₂ hr₂).about]
        exact hlive r₁ hr₁ (Or.inl hdel₁)
    · rcases List.mem_append.mp hr₂ with hr₂ | hr₂
      · rw [(hnew r₁ hr₁).about]
        exact (hlive r₂ hr₂ (Or.inr hdel₂)).symm
      · exact absurd ⟨⟨r₁, hr₁, hdel₁⟩, r₂, hr₂, hdel₂⟩ hone

/-- **The reports of truthful signals are honest**, in every run. -/
theorem Reachable.honest (h : Reachable P (Truthful P) s) : Honest P s := by
  induction h with
  | init =>
      have hnone : ∀ r, r ∉ Processor.init.reports := fun r => List.not_mem_nil
      exact ⟨fun r hr => absurd hr (hnone r), fun r hr => absurd hr (hnone r),
        fun r hr => absurd hr (hnone r)⟩
  | store hs hrun ih =>
      obtain ⟨m, hsound⟩ := hs.sound False False False.elim False.elim
      obtain ⟨_, _, hev, _⟩ := (storeBundle_spec hsound _).of_ok hrun
      exact ih.of_reports ((storeBundle_reports _ _ _).of_ok hrun) hev
  | signal hs hsig hrun ih =>
      obtain ⟨m, hsound⟩ := hs.sound False False False.elim False.elim
      obtain ⟨_, hdone⟩ := (handleSignal_spec hsound _ False.elim False.elim).of_ok hrun
      rcases handleSignal_true hsound hsig hrun with heq | ⟨id, a, b, new, _, hb, heq, hnew, hone⟩
      · exact ih.of_reports heq hdone.evolves
      · exact ih.append heq hdone.evolves hb hnew hone

end Truthful

/-- What the status reports of a state and of the next step say is true: reports go to
somebody else, no bundle is reported both as delivered and as deleted, and in the step in
which such a report is generated the bundle is handed over or leaves the storage. -/
structure ReportsTrue (P : Params) (C : Env → Processor → Signal → Prop) (s : Processor) :
    Prop where
  reportTo : ∀ r ∈ s.reports, r.bundle.reportTo ≠ eidNone ∧ r.bundle.reportTo ≠ P.localEid
  single : ∀ r₁ ∈ s.reports, ∀ r₂ ∈ s.reports, r₁.status = .delivered →
    r₂.status = .deleted → r₁.about ≠ r₂.about
  step : ∀ env sig s', C env s sig → handleSignal P env s sig = .ok s' →
    ∃ new, s'.reports = s.reports ++ new ∧ ∀ r ∈ new,
      (r.status = .delivered → Conveyed P r.bundle s s') ∧
      (r.status = .deleted → ¬ Removed s r.about ∧ Removed s' r.about)

/-- **Status reports tell the truth**, in every run of truthful signals. -/
theorem status_reports_truthful (P : Params) (s : Processor)
    (h : Reachable P (Truthful P) s) : ReportsTrue P (Truthful P) s where
  reportTo := h.honest.reportTo
  single := h.honest.single
  step env sig s' hsig hrun := by
    obtain ⟨m, hs⟩ := h.sound False False False.elim False.elim
    obtain ⟨m', hdone⟩ := (handleSignal_spec hs _ False.elim False.elim).of_ok hrun
    rcases handleSignal_true hs hsig hrun with heq | ⟨id, a, b, new, hget, _, heq, hnew, _⟩
    · exact ⟨[], by rw [heq, List.append_nil], fun r hr => absurd hr List.not_mem_nil⟩
    · refine ⟨new, heq, fun r hr => ⟨(hnew r hr).conveyed, fun hstatus => ?_⟩⟩
      rw [(hnew r hr).about]
      exact ⟨fun hremoved => hremoved id hget,
        removed_of_none hdone.sound ((hnew r hr).gone (Or.inr hstatus))⟩

/-! ## A node that reports -/

/-- The small node with status reports. -/
def reportingNode : Params := { smallNode with statusReporting := true }

/-- Calm surroundings in which reports can be encoded. -/
def reporting : Env := { calm with record7 := fun _ _ _ => some ⟨[1], by simp⟩ }

/-- A bundle whose delivery is to be reported. -/
def acknowledged : Bundle :=
  { note "dtn://n/a" [] with
    procFlags := flagReportDelivery
    reportTo := "dtn://m/r".toList }

/-- The reporting node after a signal. -/
def answering (s : Processor) (sig : Signal) : Processor :=
  settle (handleSignal reportingNode reporting s sig)

/-- The reporting node with one more bundle. -/
def keeping (s : Processor) (b : Bundle) : Processor := settle (storeBundle reporting s b)

theorem reachable_answering {C : Env → Processor → Signal → Prop} {s : Processor}
    (hs : Reachable reportingNode C s) (sig : Signal) (hsig : C reporting s sig)
    (h : handleSignal reportingNode reporting s sig = .ok (answering s sig)) :
    Reachable reportingNode C (answering s sig) := .signal hs hsig h

theorem reachable_keeping {C : Env → Processor → Signal → Prop} {s : Processor}
    (hs : Reachable reportingNode C s) (b : Bundle)
    (h : storeBundle reporting s b = .ok (keeping s b)) :
    Reachable reportingNode C (keeping s b) := .store hs h

/-- A bundle is delivered to its agent, and this is reported. -/
theorem status_reports_truthful_attended :
    ∃ s, Reachable reportingNode (Truthful reportingNode) s ∧
      s.reports.map Report.status = [.delivered] ∧ s.delivered.length = 1 ∧
      ReportsTrue reportingNode (Truthful reportingNode) s := by
  have h₁ := reachable_answering (C := Truthful reportingNode) .init (.agentRegister "a".toList)
    (by
      rintro _ _ _ ⟨_, h, _⟩
      cases h) rfl
  have h₂ := reachable_keeping h₁ acknowledged rfl
  have h₃ := reachable_answering h₂ (.bundle 1 .incoming) (by
    intro type a b habout _
    obtain ⟨rfl, rfl, rfl⟩ := about_eq (a := 0) (b := { acknowledged with id := 1 }) rfl rfl habout
    refine ⟨fun _ _ => by decide, fun _ => ⟨_, _, rfl, rfl, ?_⟩⟩
    exact Or.inr ⟨"a".toList, by decide, by decide +kernel⟩) rfl
  exact ⟨_, h₃, by decide +kernel, by decide +kernel, status_reports_truthful _ _ h₃⟩

/-- A delivery is reported although no agent is registered for the bundle. -/
theorem delivery_reported_without_agent :
    ¬ ∀ (P : Params) (s : Processor), P.statusReporting = true →
      Reachable P (fun _ _ _ => True) s → ReportsTrue P (fun _ _ _ => True) s := by
  intro hall
  have h := reachable_keeping (C := fun _ _ _ => True) .init acknowledged rfl
  obtain ⟨new, heq, hnew⟩ := (hall reportingNode _ rfl h).step reporting (.bundle 1 .incoming)
    (answering (keeping Processor.init acknowledged) (.bundle 1 .incoming)) trivial rfl
  have hstatus : new.map Report.status = [.delivered] := by
    rw [show new = _ from heq.symm]
    decide +kernel
  obtain ⟨r, rfl, hr⟩ := List.map_eq_singleton_iff.mp hstatus
  obtain ⟨adu, hover, _⟩ := (hnew r List.mem_cons_self).1 hr
  rcases hover with ⟨_, hover⟩ | ⟨_, _, hover⟩
  · exact absurd (congrArg List.length hover) (by
      rw [List.length_append, List.length_singleton]
      decide +kernel)
  · exact absurd (congrArg List.length hover) (by
      rw [List.length_append, List.length_singleton]
      decide +kernel)

end BundleProcessor
