import DisruptaBLE.Processor.Assembly
import DisruptaBLE.Processor.Runs

/-!
# Attempts to reassemble a bundle

`try_reassemble` is called at the end of a long way: a signal has a fragment dispatched,
the fragment is recorded as known, perhaps reported, and entered into its slot.
`Attempts P C env t` says that `t` holds the arguments of such a call, in a run whose
signals meet the condition `C`.  The handling of the signal is this way and the call
(`handleBundleSignal_fragment`, `joinSlot_eq`), and every call finds a slot that is sorted
by offset (`Attempts.ready`).
-/

namespace BundleProcessor

open PtrHeap BundleStorage Outcome

/-- The arguments of a call of `try_reassemble`, and the state before it. -/
structure Attempt where
  state : Processor
  before : List (List Addr)
  slot : List Addr
  after : List (List Addr)

/-- The search for a slot up to the call of `try_reassemble`; without memory for a new
slot the fragment is deleted instead. -/
def prepareAttempt (P : Params) (env : Env) (s : Processor) (a : Addr) :
    Except Fault (Processor ⊕ Attempt) := do
  match ← findSlot s a s.reassembly with
  | some (before, slot, after) =>
      let (slot, s) ← addToReassemblyBundleList P env s slot a
      pure (.inr ⟨s, before, slot, after⟩)
  | none =>
      match malloc env s with
      | (none, s) =>
          let s ← bundleDelete P env s a .depletedStorage
          pure (.inl s)
      | (some _, s) =>
          let slots := s.reassembly
          let (slot, s) ← addToReassemblyBundleList P env s [] a
          pure (.inr ⟨s, slots, slot, []⟩)

/-- The call of `try_reassemble`, if there is one. -/
def callTryReassemble (P : Params) (env : Env) : Processor ⊕ Attempt → Except Fault Processor
  | .inl s => .ok s
  | .inr t => tryReassemble P env t.state t.before t.slot t.after

/-- The handling of a signal that has a fragment dispatched, up to the search for a slot. -/
def beforeAttempt (P : Params) (env : Env) (s : Processor) (a : Addr) :
    BundleSignal → Except Fault Processor
  | .incoming => beforeDispatch P env s a >>= fun s => beforeSearch P env s a
  | _ => beforeSearch P env s a

/-- The calls of `try_reassemble` in runs whose signals meet a condition. -/
def Attempts (P : Params) (C : Env → Processor → Signal → Prop) (env : Env) (t : Attempt) :
    Prop :=
  ∃ s sig type a b s₁ b₁, Reachable P C s ∧ C env s sig ∧ About s sig type a b ∧
    signalCourse P env s a b type = some .fragment ∧ beforeAttempt P env s a type = .ok s₁ ∧
    s₁.bundles.cells a = some b₁ ∧ bundleReassembledIsKnown s₁ b₁ = false ∧
    prepareAttempt P env s₁ a = .ok (.inr t)

theorem joinSlot_eq (P : Params) (env : Env) (s : Processor) (a : Addr) :
    joinSlot P env s a = prepareAttempt P env s a >>= callTryReassemble P env := by
  unfold joinSlot prepareAttempt
  rw [bind_assoc]
  apply bind_congr_ok
  intro found _
  cases found with
  | some found =>
      dsimp only
      rw [bind_assoc]
      apply bind_congr_ok
      intro r _
      rfl
  | none =>
      unfold malloc
      cases env.malloc s.requests with
      | none =>
          dsimp only
          rw [bind_assoc]
          exact (bind_pure _).symm
      | some gap =>
          dsimp only
          rw [bind_assoc]
          apply bind_congr_ok
          intro r _
          rfl

/-- What holds of an attempt that the bundle at `a` leads to from the state `s`. -/
structure Ready (careful exact : Prop) (s : Processor) (a : Addr) (t : Attempt) : Prop where
  sound : ∃ m, Sound careful exact t.state m (t.before ++ t.slot :: t.after).flatten
  sorted : ByOffset t.state.bundles t.slot
  evolves : Evolves s t.state
  within : t.slot ⊆ a :: s.reassembly.flatten

section Specs

variable {careful exact : Prop} {P : Params} {C : Env → Processor → Signal → Prop} {env : Env}
  {s s₁ : Processor} {m m₁ : UInt16 → Option Addr} {a : Addr} {b b₁ : Bundle}

/-! ## The way to an attempt -/

/-- A fragment that waits for reassembly from now on. -/
def Bundle.pending (b : Bundle) : Bundle :=
  { b.undispatched with ret := { b.undispatched.ret with reassemblyPending := true } }

/-- A dispatched fragment was not known, and has an agent id in its destination. -/
theorem fragment_course (h : dispatchCourse P env s.known b = .fragment) :
    bundleEndpointIsLocal P b = true ∧ alreadyKnown env s.known b = false ∧
      (!hasFlag b.procFlags flagAdministrativeRecord &&
        (getAgentId P.localEid b.destination).isNone) = false ∧ b.isFragmented = true := by
  unfold dispatchCourse deliveryCourse at h
  cases hlocal : bundleEndpointIsLocal P b with
  | false =>
      cases hhop : hopLimitExceeded P b with
      | false => simp [hlocal, hhop] at h
      | true => simp [hlocal, hhop] at h
  | true =>
      cases hknown : alreadyKnown env s.known b with
      | true => simp [hlocal, hknown] at h
      | false =>
          rw [hlocal, hknown, if_pos rfl, if_neg (by simp)] at h
          split at h
          · cases h
          · next hagent =>
            split at h
            · next hfrag => exact ⟨rfl, rfl, (Bool.not_eq_true _).mp hagent, hfrag⟩
            · cases h

/-- The dispatch of a fragment. -/
theorem bundleDispatch_fragment (hb : s.bundles.cells a = some b)
    (hcourse : dispatchCourse P env s.known b = .fragment) :
    bundleDispatch P env s a =
      beforeSearch P env s a >>= fun s => bundleAttemptReassembly P env s a := by
  obtain ⟨hlocal, hnew, hagent, hfrag⟩ := fragment_course hcourse
  have hupdate : s.update a (fun b =>
      { b with ret := { b.ret with dispatchPending := false } }) =
      .ok (s.put a b.undispatched) := update_of_cell hb _
  obtain ⟨mem, n, hrec⟩ :=
    bundleRecordAddAndCheckKnown_spec env (s.put a b.undispatched) b.undispatched
  rw [show (s.put a b.undispatched).known = s.known from rfl, alreadyKnown_undispatched,
    hnew] at hrec
  unfold bundleDispatch bundleDeliverLocal beforeSearch
  rw [bundle_of_cell hb, ok_bind, hlocal, if_pos rfl, hupdate, ok_bind, ok_bind,
    bundle_of_cell (put_self _ _ _), ok_bind, ok_bind]
  simp only [hrec, Bool.false_eq_true, if_false]
  rw [bind_assoc]
  apply bind_congr_ok
  intro s₂ _
  rw [show (!hasFlag b.undispatched.procFlags flagAdministrativeRecord &&
    (getAgentId P.localEid b.undispatched.destination).isNone) = false from hagent,
    if_neg (by simp), show b.undispatched.isFragmented = true from hfrag, if_pos rfl]

/-- **`bundle_receive` up to the dispatch** of a bundle. -/
theorem beforeDispatch_spec (hs : Sound careful exact s m s.reassembly.flatten)
    (hb : s.bundles.cells a = some b) (hfr : careful → a ∉ s.reassembly.flatten) :
    Ends (Tolerated careful) (beforeDispatch P env s a) fun s₁ => ∃ m₁ b₁,
      Sound careful exact s₁ m₁ s₁.reassembly.flatten ∧ Led s m a b₁ s₁ m₁ ∧
      s₁.known = s.known ∧ ∀ b', b.received = some b' → b' = b₁ := by
  have hs₀ : Sound careful exact (s.put a b.arrived) m s.reassembly.flatten :=
    hs.set_ret hb _ (fun hc h => (hs.accepted hc).ret h hb) (fun hc h => absurd h (hfr hc))
  have hled₀ := (Led.refl (m := m) hb).put b.arrived rfl
  unfold beforeDispatch
  apply ends_of_eq (update_of_cell hb _)
  apply ends_of_eq (bundle_of_cell hled₀.cell)
  apply (reportWhen_spec (s := s.put a b.arrived) hs₀ hled₀.cell _ _ _).bind
  intro s₁ ⟨m₁, hs₁, htraf₁⟩
  have hled₁ := hled₀.traffic htraf₁
  apply (handleBlocks_spec false b.blocksBefore hs₁ hled₁.cell).bind
  rintro ⟨kept₁, s₂⟩ ⟨hkept₁, m₂, hs₂, htraf₂⟩
  have hled₂ := hled₁.traffic htraf₂
  apply (handleBlocks_spec false b.blocksAfter hs₂ hled₂.cell).bind
  rintro ⟨kept₂, s₃⟩ ⟨hkept₂, m₃, hs₃, htraf₃⟩
  have hled₃ := hled₂.traffic htraf₃
  dsimp only
  rw [update_of_cell hled₃.cell]
  refine ⟨m₃, _, hs₃.set_same hled₃.cell rfl rfl rfl, hled₃.put _ rfl,
    htraf₃.lists.known.trans (htraf₂.lists.known.trans htraf₁.lists.known), ?_⟩
  intro b' hrec
  unfold Bundle.received at hrec
  rw [← show kept₁ = keptBlocks false b.blocksBefore from hkept₁,
    ← show kept₂ = keptBlocks false b.blocksAfter from hkept₂] at hrec
  split at hrec
  · exact (Option.some.inj hrec).symm
  · cases hrec

/-- **`bundle_deliver_local` up to the search** for the slot of a fragment. -/
theorem beforeSearch_spec (hs : Sound careful exact s m s.reassembly.flatten)
    (hb : s.bundles.cells a = some b) (hret : careful → b.undispatched.ret = .none) :
    Ends (Tolerated careful) (beforeSearch P env s a) fun s₁ => ∃ m₁,
      Sound careful exact s₁ m₁ s₁.reassembly.flatten ∧ Led s m a b.pending s₁ m₁ ∧
      ∀ e ∈ s₁.known, e ∈ createEntry env.now b.undispatched false ::
        knownBundleListRemoveBefore s.known env.now := by
  have hacc : careful → a ∉ s.accepted := fun hc =>
    hs.not_accepted hb (congrArg RetConstraints.custodyAccepted (hret hc)) hc
  have hfr : careful → a ∉ s.reassembly.flatten := fun hc =>
    hs.not_frag hb (congrArg RetConstraints.reassemblyPending (hret hc)) hc
  have hs₀ : Sound careful exact (s.put a b.undispatched) m s.reassembly.flatten :=
    hs.set_ret hb _ (fun hc h => absurd h (hacc hc)) (fun hc h => absurd h (hfr hc))
  have hled₀ := (Led.refl (m := m) hb).put b.undispatched rfl
  unfold beforeSearch
  apply ends_of_eq (update_of_cell hb _)
  apply ends_of_eq (bundle_of_cell hled₀.cell)
  obtain ⟨known, n, hrec, hled₁, hentries, _⟩ := recordKnown_led env (m := m) hb
  rw [show ({ b with ret := { b.ret with dispatchPending := false } } : Bundle) =
    b.undispatched from rfl]
  simp only [hrec]
  apply (reportWhen_spec
    (s := { s.put a b.undispatched with known := known, requests := n }) hs₀ hled₁.cell
    _ _ _).bind
  intro s₂ ⟨m₂, hs₂, htraf⟩
  have hled₂ := hled₁.traffic htraf
  have hacc₂ : careful → a ∉ s₂.accepted := by
    rw [hled₂.accepted]
    exact hacc
  have hfr₂ : careful → a ∉ s₂.reassembly.flatten := by
    rw [hled₂.reassembly]
    exact hfr
  rw [update_of_cell hled₂.cell]
  refine ⟨m₂, hs₂.set_ret hled₂.cell _ (fun hc h => absurd h (hacc₂ hc))
    (fun hc h => absurd h (hfr₂ hc)), hled₂.put _ rfl, ?_⟩
  rw [show (s₂.put a _).known = known from htraf.lists.known]
  exact hentries

/-- `bundle_receive` up to the dispatch of a bundle that is dispatched. -/
theorem bundleReceive_dispatched (hs : Sound False exact s m s.reassembly.flatten)
    (hb : s.bundles.cells a = some b) (hcourse : receptionCourse env s a b = .dispatched b₁) :
    bundleReceive P env s a =
      beforeDispatch P env s a >>= fun s => custodyOrDispatch P env s a := by
  have hupdate : s.update a (fun b =>
      { b with ret := { b.ret with dispatchPending := true } }) =
      .ok (s.put a b.arrived) := update_of_cell hb _
  have hs₀ : Sound False exact (s.put a b.arrived) m s.reassembly.flatten :=
    hs.set_ret hb _ False.elim False.elim
  have hexp : expiredOnArrival env b = false := by
    cases hexp : expiredOnArrival env b with
    | false => rfl
    | true => simp [receptionCourse, hexp] at hcourse
  obtain ⟨blocksBefore, blocksAfter, hkept₁, hkept₂⟩ : ∃ blocksBefore blocksAfter,
      keptBlocks false b.blocksBefore = some blocksBefore ∧
      keptBlocks false b.blocksAfter = some blocksAfter := by
    cases hkept₁ : keptBlocks false b.blocksBefore with
    | none => simp [receptionCourse, hexp, Bundle.received, hkept₁] at hcourse
    | some l₁ =>
        cases hkept₂ : keptBlocks false b.blocksAfter with
        | none => simp [receptionCourse, hexp, Bundle.received, hkept₁, hkept₂] at hcourse
        | some l₂ => exact ⟨l₁, l₂, rfl, rfl⟩
  unfold bundleReceive beforeDispatch
  rw [hupdate, ok_bind, ok_bind, bundle_of_cell (put_self _ _ _), ok_bind, ok_bind,
    bind_assoc]
  apply bind_congr_ok
  intro s₁ hrun₁
  obtain ⟨m₁, hs₁, htraf₁⟩ := (reportWhen_spec (s := s.put a b.arrived) hs₀
    (put_self _ _ _) _ _ _).of_ok hrun₁
  have hb₁ := htraf₁.cell (put_self _ _ _)
  rw [show expiredOnArrival env b.arrived = false from hexp, if_neg (by simp), bind_assoc]
  apply bind_congr_ok
  rintro ⟨kept₁, s₂⟩ hrun₂
  obtain ⟨hkept, m₂, hs₂, htraf₂⟩ := (handleBlocks_spec false _ hs₁ hb₁).of_ok hrun₂
  obtain rfl : kept₁ = some blocksBefore := hkept.trans hkept₁
  dsimp only
  rw [bind_assoc]
  apply bind_congr_ok
  rintro ⟨kept₂, s₃⟩ hrun₃
  obtain ⟨hkept, _⟩ := (handleBlocks_spec false _ hs₂ (htraf₂.cell hb₁)).of_ok hrun₃
  obtain rfl : kept₂ = some blocksAfter := hkept.trans hkept₂
  rfl

/-- **The handling of a signal** that has a fragment dispatched. -/
theorem handleBundleSignal_fragment (hs : Sound False exact s m s.reassembly.flatten)
    (hb : s.bundles.cells a = some b) (type : BundleSignal)
    (hcourse : signalCourse P env s a b type = some .fragment) :
    handleBundleSignal P env s a type =
      beforeAttempt P env s a type >>= fun s => bundleAttemptReassembly P env s a := by
  cases type with
  | localDispatch => exact bundleDispatch_fragment hb (Option.some.inj hcourse)
  | incoming =>
      cases hrec : receptionCourse env s a b with
      | dispatched b' =>
          simp only [signalCourse, hrec, Option.some.injEq] at hcourse
          show bundleReceive P env s a = _
          rw [bundleReceive_dispatched hs hb hrec, beforeAttempt, bind_assoc]
          apply bind_congr_ok
          intro s₁ hrun
          obtain ⟨m₁, b₁, hs₁, hled, hknown, hrecv⟩ :=
            (beforeDispatch_spec hs hb False.elim).of_ok hrun
          obtain ⟨hreceived, hasks⟩ := received_of_course hrec
          obtain rfl := hrecv b' hreceived
          unfold custodyOrDispatch
          rw [bundle_of_cell hled.cell, ok_bind,
            show (hasFlag b'.procFlags flagCustodyTransferRequested &&
              decide (b'.protocolVersion = 6)) = false from hasks, if_neg (by simp)]
          exact bundleDispatch_fragment hled.cell (by rw [hknown]; exact hcourse)
      | expired => simp [signalCourse, hrec] at hcourse
      | unintelligible => simp [signalCourse, hrec] at hcourse
      | redundant => simp [signalCourse, hrec] at hcourse
      | refused => simp [signalCourse, hrec] at hcourse
      | stranded => simp [signalCourse, hrec] at hcourse
  | routed => cases hcourse
  | forwardingContraindicated reason => cases hcourse
  | expired => cases hcourse
  | reschedule => cases hcourse
  | transmissionSuccess => cases hcourse
  | transmissionFailure => cases hcourse

/-- A fragment is entered into a slot, or deleted for want of memory. -/
theorem addFragment_spec {before after : List (List Addr)} {slot : List Addr}
    (hs : Sound careful exact s m (before ++ slot :: after).flatten)
    (hb : s.bundles.cells a = some b) (hret : careful → b.ret = .reassemblyOnly)
    (hnew : careful → a ∉ (before ++ slot :: after).flatten)
    (hsorted : ByOffset s.bundles slot) :
    Ends (Tolerated careful) (addToReassemblyBundleList P env s slot a) fun r => (∃ m',
      Sound careful exact r.2 m' (before ++ r.1 :: after).flatten) ∧
      ByOffset r.2.bundles r.1 ∧ Evolves s r.2 ∧ r.1 ⊆ a :: slot := by
  have hsub : slot ⊆ (before ++ slot :: after).flatten := by
    intro x hx
    simp [hx]
  have hacc : careful → a ∉ s.accepted := fun hc =>
    hs.not_accepted hb (congrArg RetConstraints.custodyAccepted (hret hc)) hc
  apply (addToReassemblyBundleList_spec hs (hs.alive hsub) hb hnew hacc).mono
  rintro ⟨slot', s₁⟩ (⟨l₁, l₂, heq, hins⟩ | ⟨_, rfl, m₁, hs₁, hdel⟩)
  · obtain ⟨rfl, rfl⟩ := Prod.mk.inj heq
    have hrefl : Evolves s s := .refl
    refine ⟨⟨m, (hs.insert hb hret hnew hins).2⟩, hins.byOffset hsorted hb,
      ⟨hrefl.cells, hrefl.bound⟩, ?_⟩
    exact hins.perm.subset
  · refine ⟨⟨m₁, hs₁⟩, hsorted.evolve fun x hx => ?_, hdel.evolves,
      List.subset_cons_self _ _⟩
    exact hdel.evolves.cells x (hs.below x (hsub hx))

/-- **A prepared attempt** has a slot that is sorted by offset. -/
theorem prepareAttempt_spec (hs : Sound careful exact s m s.reassembly.flatten)
    (hb : s.bundles.cells a = some b) (hret : careful → b.ret = .reassemblyOnly)
    (hnew : careful → a ∉ s.reassembly.flatten)
    (hsorted : ∀ l ∈ s.reassembly, ByOffset s.bundles l) :
    Ends (Tolerated careful) (prepareAttempt P env s a) fun r =>
      ∀ t, r = .inr t → Ready careful exact s a t := by
  unfold prepareAttempt
  apply (findSlot_spec (hs.alive (List.Subset.refl _)) hb).bind
  intro r ⟨hfound, _⟩
  cases r with
  | some found =>
      obtain ⟨before, slot, after⟩ := found
      obtain ⟨hreas, _⟩ := hfound before slot after rfl
      rw [hreas] at hs hnew hsorted
      apply (addFragment_spec hs hb hret hnew (hsorted slot (by simp))).bind
      intro r ⟨hsound, hbyOffset, hev, hsub⟩ t ht
      obtain rfl := Sum.inr.inj ht
      refine ⟨hsound, hbyOffset, hev, fun x hx => ?_⟩
      rcases List.mem_cons.mp (hsub hx) with rfl | hx
      · exact List.mem_cons_self
      · rw [hreas]
        simp [hx]
  | none =>
      unfold malloc
      cases env.malloc s.requests with
      | none =>
          have hacc : careful → a ∉ s.accepted := fun hc =>
            hs.not_accepted hb (congrArg RetConstraints.custodyAccepted (hret hc)) hc
          apply (bundleDelete_spec (s := { s with requests := s.requests + 1 }) hs hb hnew
            (fun hc h => absurd h (hacc hc)) _).bind
          intro s' _ t ht
          cases ht
      | some gap =>
          have hflat : (s.reassembly ++ [] :: []).flatten = s.reassembly.flatten := by simp
          rw [← hflat] at hs hnew
          apply (addFragment_spec (s := { s with requests := s.requests + 1 }) hs hb hret hnew
            List.Pairwise.nil).bind
          intro r ⟨hsound, hbyOffset, hev, hsub⟩ t ht
          obtain rfl := Sum.inr.inj ht
          refine ⟨hsound, hbyOffset, ⟨hev.cells, hev.bound⟩, fun x hx => ?_⟩
          rcases List.mem_cons.mp (hsub hx) with rfl | hx
          · exact List.mem_cons_self
          · cases hx

theorem Ready.of_led {t : Attempt} (h : Ready careful exact s₁ a t) (hled : Led s m a b s₁ m₁) :
    Ready careful exact s a t where
  sound := h.sound
  sorted := h.sorted
  evolves := hled.evolves.trans h.evolves
  within := by
    rw [← hled.reassembly]
    exact h.within

/-! ## Attempts of runs -/

/-- In every state of a run the slots are sorted by offset. -/
theorem Reachable.sorted (h : Reachable P C s) : ∀ l ∈ s.reassembly, ByOffset s.bundles l := by
  induction h with
  | init => exact fun l hl => by (cases hl)
  | store hs hrun ih =>
      obtain ⟨m, hsound⟩ := hs.sound False False False.elim False.elim
      obtain ⟨_, _, hev, htracks⟩ := (storeBundle_spec hsound _).of_ok hrun
      intro l hl
      rw [htracks.reassembly] at hl
      exact (ih l hl).evolve fun x hx =>
        hev.cells x (hsound.below x (List.mem_flatten.mpr ⟨l, hl, hx⟩))
  | signal hs _ hrun ih =>
      obtain ⟨m, hsound⟩ := hs.sound False False False.elim False.elim
      obtain ⟨_, hdone⟩ := (handleSignal_spec hsound _ False.elim False.elim).of_ok hrun
      exact hdone.sorted ih

/-- The end of the way to an attempt, from the dispatch of the fragment on. -/
theorem ready_of_search (hs : Sound careful exact s m s.reassembly.flatten)
    (hb : s.bundles.cells a = some b) (hret : careful → b.undispatched.ret = .none)
    (hsorted : ∀ l ∈ s.reassembly, ByOffset s.bundles l)
    (hbefore : beforeSearch P env s a = .ok s₁) {t : Attempt}
    (ht : prepareAttempt P env s₁ a = .ok (.inr t)) :
    Ready careful exact s a t := by
  obtain ⟨m₁, hs₁, hled, _⟩ := (beforeSearch_spec hs hb hret).of_ok hbefore
  have hret₁ : careful → b.pending.ret = .reassemblyOnly := by
    intro hc
    unfold Bundle.pending
    rw [hret hc]
    rfl
  have hnew : careful → a ∉ s₁.reassembly.flatten := by
    intro hc
    rw [hled.reassembly]
    exact hs.not_frag hb (congrArg RetConstraints.reassemblyPending (hret hc)) hc
  have hsorted₁ : ∀ l ∈ s₁.reassembly, ByOffset s₁.bundles l := by
    intro l hl
    rw [hled.reassembly] at hl
    exact (hsorted l hl).evolve fun x hx =>
      hled.evolves.cells x (hs.below x (List.mem_flatten.mpr ⟨l, hl, hx⟩))
  exact ((prepareAttempt_spec hs₁ hled.cell hret₁ hnew hsorted₁).of_ok ht t rfl).of_led hled

theorem DispatchHarmless.fragment_ret (h : DispatchHarmless P env s a b)
    (hcourse : dispatchCourse P env s.known b = .fragment) : b.undispatched.ret = .none := by
  unfold DispatchHarmless at h
  rw [hcourse] at h
  exact h.1

/-- **Every attempt finds a sorted slot**, in a state that keeps the invariant. -/
theorem Attempts.ready {t : Attempt} (h : Attempts P C env t) (careful : Prop)
    (hsafe : careful → ∀ env s sig, C env s sig → Harmless P env s sig) :
    ∃ s sig type a b, Reachable P C s ∧ About s sig type a b ∧ Ready careful False s a t := by
  obtain ⟨s, sig, type, a, b, s₁, b₁, hreach, hsig, habout, hcourse, hbefore, _, _, ht⟩ := h
  refine ⟨s, sig, type, a, b, hreach, habout, ?_⟩
  obtain ⟨m, hs⟩ := hreach.sound careful False hsafe False.elim
  have hharm : careful → SignalHarmless P env s a b type := fun hc =>
    hsafe hc env s sig hsig type a b habout
  obtain ⟨id, _, _, hb⟩ := habout
  cases type with
  | localDispatch =>
      have hcourse' : dispatchCourse P env s.known b = .fragment := Option.some.inj hcourse
      exact ready_of_search hs hb (fun hc => (hharm hc).2.fragment_ret hcourse') hreach.sorted
        hbefore ht
  | incoming =>
      obtain ⟨s₂, hdispatch, hsearch⟩ := ok_of_bind hbefore
      cases hrec : receptionCourse env s a b with
      | dispatched b' =>
          simp only [signalCourse, hrec, Option.some.injEq] at hcourse
          obtain ⟨m₂, b₂, hs₂, hled, hknown, hrecv⟩ :=
            (beforeDispatch_spec hs hb fun hc => (hharm hc).1).of_ok hdispatch
          obtain rfl := hrecv b' (received_of_course hrec).1
          have hret : careful → b'.undispatched.ret = .none := by
            intro hc
            have hreception := (hharm hc).2
            unfold ReceptionHarmless at hreception
            rw [hrec] at hreception
            exact DispatchHarmless.fragment_ret hreception hcourse
          have hsorted : ∀ l ∈ s₂.reassembly, ByOffset s₂.bundles l := by
            intro l hl
            rw [hled.reassembly] at hl
            exact (hreach.sorted l hl).evolve fun x hx =>
              hled.evolves.cells x (hs.below x (List.mem_flatten.mpr ⟨l, hl, hx⟩))
          exact (ready_of_search hs₂ hled.cell hret hsorted hsearch ht).of_led hled
      | expired => simp [signalCourse, hrec] at hcourse
      | unintelligible => simp [signalCourse, hrec] at hcourse
      | redundant => simp [signalCourse, hrec] at hcourse
      | refused => simp [signalCourse, hrec] at hcourse
      | stranded => simp [signalCourse, hrec] at hcourse
  | routed => cases hcourse
  | forwardingContraindicated reason => cases hcourse
  | expired => cases hcourse
  | reschedule => cases hcourse
  | transmissionSuccess => cases hcourse
  | transmissionFailure => cases hcourse

end Specs

end BundleProcessor
