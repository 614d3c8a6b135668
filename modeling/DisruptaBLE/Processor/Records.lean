import DisruptaBLE.Processor.Invariant

/-!
# Removing bundles and sending records

Specifications of the functions that remove a bundle and of those that send a
status report or a custody signal.

Sending a record is `Traffic`: bundles that were there stay as they are, and what is
newly stored was sent to the router.  Deleting a bundle is safe unless custody of it
was accepted and is its last retention constraint: then `custody_manager_release`
already drops the bundle, and `bundle_delete` goes on with it.
-/

namespace BundleProcessor

open PtrHeap BundleStorage Outcome

/-! ## Relations between states -/

/-- What is newly stored was sent to the router. -/
def Grew (s : Processor) (m : UInt16 → Option Addr) (s' : Processor)
    (m' : UInt16 → Option Addr) : Prop :=
  ∃ sent, s'.outQueue = s.outQueue ++ sent ∧
    ∀ id x, m' id = some x → m id = some x ∨ id ∈ sent

/-- What stays of a bundle while it is handled: the fields that say which bundle it is. -/
def Bundle.bare (b : Bundle) : Bundle :=
  { b with
    ret := .none
    currentCustodian := []
    primaryBlockLength := 0
    blocksBefore := []
    payload := ⟨0, 0, Buffer.empty, [], .none⟩
    blocksAfter := [] }

/-- A field that stays. -/
theorem eq_of_bare {β : Type} (f : Bundle → β) (hf : ∀ b, f b.bare = f b) {b b' : Bundle}
    (h : b'.bare = b.bare) : f b' = f b := by
  rw [← hf b', ← hf b, h]

/-- Bundles are still the same ones, or gone; new ones may have come. -/
structure Evolves (s s' : Processor) : Prop where
  cells : ∀ x, x < s.bundles.bound → ∀ c', s'.bundles.cells x = some c' →
    ∃ c, s.bundles.cells x = some c ∧ c'.bare = c.bare
  bound : s.bundles.bound ≤ s'.bundles.bound

/-- Bundles disappear, and nothing is stored or sent. -/
structure Fades (s : Processor) (m : UInt16 → Option Addr) (s' : Processor)
    (m' : UInt16 → Option Addr) : Prop where
  cells : ∀ x c', s'.bundles.cells x = some c' →
    ∃ c, s.bundles.cells x = some c ∧ c'.bare = c.bare
  bound : s.bundles.bound ≤ s'.bundles.bound
  map : ∀ id x, m' id = some x → m id = some x
  outQueue : s'.outQueue = s.outQueue

/-- The lists of the state are as before, and nothing was delivered. -/
structure SameLists (s s' : Processor) : Prop where
  accepted : s'.accepted = s.accepted
  reassembly : s'.reassembly = s.reassembly
  known : s'.known = s.known
  delivered : s'.delivered = s.delivered

/-- Records were sent, and nothing else happened. -/
structure Traffic (s : Processor) (m : UInt16 → Option Addr) (s' : Processor)
    (m' : UInt16 → Option Addr) : Prop where
  cells : ∀ x, x < s.bundles.bound → s'.bundles.cells x = s.bundles.cells x
  bound : s.bundles.bound ≤ s'.bundles.bound
  grew : Grew s m s' m'
  lists : SameLists s s'

section Relations

variable {s s₁ s' : Processor} {m m₁ m' : UInt16 → Option Addr}

theorem Grew.refl : Grew s m s m := ⟨[], by simp, fun _ _ h => Or.inl h⟩

theorem Grew.trans (h₁ : Grew s m s₁ m₁) (h₂ : Grew s₁ m₁ s' m') : Grew s m s' m' := by
  obtain ⟨sent₁, hout₁, hnew₁⟩ := h₁
  obtain ⟨sent₂, hout₂, hnew₂⟩ := h₂
  refine ⟨sent₁ ++ sent₂, by rw [hout₂, hout₁, List.append_assoc], fun id x hx => ?_⟩
  rcases hnew₂ id x hx with hx | hmem
  · exact (hnew₁ id x hx).imp_right (List.mem_append_left _)
  · exact Or.inr (List.mem_append_right _ hmem)

theorem Evolves.refl : Evolves s s := ⟨fun _ _ c h => ⟨c, h, rfl⟩, Nat.le_refl _⟩

theorem Evolves.trans (h₁ : Evolves s s₁) (h₂ : Evolves s₁ s') : Evolves s s' where
  cells x hx c' hc' := by
    obtain ⟨c₁, hc₁, hbare₁⟩ := h₂.cells x (Nat.lt_of_lt_of_le hx h₁.bound) c' hc'
    obtain ⟨c, hc, hbare⟩ := h₁.cells x hx c₁ hc₁
    exact ⟨c, hc, hbare₁.trans hbare⟩
  bound := h₁.bound.trans h₂.bound

theorem Fades.refl : Fades s m s m :=
  ⟨fun _ c h => ⟨c, h, rfl⟩, Nat.le_refl _, fun _ _ h => h, rfl⟩

theorem Fades.trans (h₁ : Fades s m s₁ m₁) (h₂ : Fades s₁ m₁ s' m') : Fades s m s' m' where
  cells x c' hc' := by
    obtain ⟨c₁, hc₁, hbare₁⟩ := h₂.cells x c' hc'
    obtain ⟨c, hc, hbare⟩ := h₁.cells x c₁ hc₁
    exact ⟨c, hc, hbare₁.trans hbare⟩
  bound := h₁.bound.trans h₂.bound
  map id x h := h₁.map id x (h₂.map id x h)
  outQueue := h₂.outQueue.trans h₁.outQueue

theorem Fades.evolves (h : Fades s m s' m') : Evolves s s' :=
  ⟨fun x _ c' hc' => h.cells x c' hc', h.bound⟩

/-- A write to a bundle that stays the same one. -/
theorem fades_put {a : Addr} {b b' : Bundle} (hb : s.bundles.cells a = some b)
    (hbare : b'.bare = b.bare) : Fades s m (s.put a b') m where
  cells x c' hc' := by
    by_cases hxa : x = a
    · subst hxa
      rw [put_self] at hc'
      obtain rfl := Option.some.inj hc'
      exact ⟨b, hb, hbare⟩
    · rw [put_ne _ hxa] at hc'
      exact ⟨c', hc', rfl⟩
  bound := bound_le_bound_put _ _ _
  map _ _ h := h
  outQueue := rfl

/-- What is gone stays gone. -/
theorem Fades.gone (h : Fades s m s' m') {x : Addr} (hx : s.bundles.cells x = none) :
    s'.bundles.cells x = none := by
  cases hx' : s'.bundles.cells x with
  | none => rfl
  | some c' =>
      obtain ⟨c, hc, _⟩ := h.cells x c' hx'
      simp [hx] at hc

theorem Fades.grew (h : Fades s m s' m') : Grew s m s' m' :=
  ⟨[], by rw [h.outQueue, List.append_nil], fun id x hx => Or.inl (h.map id x hx)⟩

theorem SameLists.refl : SameLists s s := ⟨rfl, rfl, rfl, rfl⟩

theorem SameLists.trans (h₁ : SameLists s s₁) (h₂ : SameLists s₁ s') : SameLists s s' :=
  ⟨h₂.accepted.trans h₁.accepted, h₂.reassembly.trans h₁.reassembly,
    h₂.known.trans h₁.known, h₂.delivered.trans h₁.delivered⟩

theorem Traffic.refl : Traffic s m s m := ⟨fun _ _ => rfl, Nat.le_refl _, .refl, .refl⟩

theorem Traffic.trans (h₁ : Traffic s m s₁ m₁) (h₂ : Traffic s₁ m₁ s' m') :
    Traffic s m s' m' where
  cells x hx := by rw [h₂.cells x (Nat.lt_of_lt_of_le hx h₁.bound), h₁.cells x hx]
  bound := h₁.bound.trans h₂.bound
  grew := h₁.grew.trans h₂.grew
  lists := h₁.lists.trans h₂.lists

theorem Traffic.evolves (h : Traffic s m s' m') : Evolves s s' where
  cells x hx c' hc' := ⟨c', by rw [← h.cells x hx]; exact hc', rfl⟩
  bound := h.bound

/-- Traffic leaves a bundle alone. -/
theorem Traffic.cell (h : Traffic s m s' m') {a : Addr} {b : Bundle}
    (hb : s.bundles.cells a = some b) : s'.bundles.cells a = some b := by
  rw [h.cells a (Heap.lt_bound_of_cell hb), hb]

end Relations

section Specs

variable {careful exact : Prop} {P : Params} {env : Env} {s : Processor}
  {m : UInt16 → Option Addr} {frags : List Addr} {a : Addr} {b : Bundle}

/-! ## Storage -/

/-- `bundle_storage_delete`. -/
theorem storageDelete_spec (hs : Sound careful exact s m frags) (id : UInt16) :
    Ends (Tolerated careful) (storageDelete s id) fun s' => ∃ store, s' = { s with store } ∧
      Represents store (Function.update m id none) ∧
      store.bundleBytes = s.store.bundleBytes - lengthAt s.bundles (m id) := by
  unfold storageDelete
  apply ends_outside
  intro found hfound
  rw [hs.rep.get] at hfound
  obtain rfl := Except.ok.inj hfound
  cases hm : m id with
  | none =>
      refine ⟨s.store, rfl, ?_, by simp⟩
      rw [← hm, Function.update_eq_self]
      exact hs.rep
  | some x =>
      obtain ⟨c, hc, _⟩ := hs.stored _ x hm
      apply ends_of_eq (bundle_of_cell hc)
      apply ends_outside
      intro r hr
      refine ⟨r.2, rfl, ?_⟩
      rcases bundleStorageDelete_ok hs.rep hr with ⟨hnone, _⟩ | ⟨y, hy, hrep, hbytes⟩
      · rw [hm] at hnone
        cases hnone
      · exact ⟨hrep, by rw [hbytes, lengthAt_some hc]; rfl⟩

/-- The effect of discarding a bundle. -/
structure Discarded (s : Processor) (m : UInt16 → Option Addr) (a : Addr) (s' : Processor)
    (m' : UInt16 → Option Addr) : Prop where
  self : s'.bundles.cells a = none
  others : ∀ x, x ≠ a → s'.bundles.cells x = s.bundles.cells x
  bound : s.bundles.bound ≤ s'.bundles.bound
  map : ∀ id x, m' id = some x → m id = some x
  lists : SameLists s s'
  outQueue : s'.outQueue = s.outQueue

theorem Discarded.fades {s' : Processor} {m' : UInt16 → Option Addr}
    (h : Discarded s m a s' m') : Fades s m s' m' where
  cells x c' hc' := by
    by_cases hxa : x = a
    · rw [hxa, h.self] at hc'
      cases hc'
    · exact ⟨c', by rw [← h.others x hxa]; exact hc', rfl⟩
  bound := h.bound
  map := h.map
  outQueue := h.outQueue

/-- A bundle may be written before it is discarded. -/
theorem Discarded.of_put {s' : Processor} {m' : UInt16 → Option Addr}
    (h : Discarded (s.put a b) m a s' m') : Discarded s m a s' m' where
  self := h.self
  others x hx := by rw [h.others x hx, put_ne _ hx]
  bound := (bound_le_bound_put s a b).trans h.bound
  map := h.map
  lists := ⟨h.lists.accepted, h.lists.reassembly, h.lists.known, h.lists.delivered⟩
  outQueue := h.outQueue

/-- **`bundle_discard`** removes a bundle without retention constraints from the storage
and from memory. -/
theorem bundleDiscard_spec (hs : Sound careful exact s m frags)
    (hb : s.bundles.cells a = some b) (hret : careful → b.ret = .none)
    (hacc : careful → a ∉ s.accepted) (hfr : careful → a ∉ frags) :
    Ends (Tolerated careful) (bundleDiscard s a) fun s' =>
      Sound careful exact s' (Function.update m b.id none) frags ∧
        Discarded s m a s' (Function.update m b.id none) := by
  unfold bundleDiscard
  apply ends_of_eq (bundle_of_cell hb)
  apply (storageDelete_spec hs b.id).bind
  rintro s₁ ⟨store, rfl, hrep, hbytes⟩
  unfold bundleDrop
  apply ends_of_eq (bundle_of_cell (s := { s with store }) hb)
  by_cases hnone : b.ret = .none
  · rw [if_pos hnone]
    refine ⟨hs.remove hb hrep hbytes hacc hfr, Heap.cells_erase_self _ _,
      fun x hx => Heap.cells_erase_ne _ hx, Nat.le_refl _, ?_, ⟨rfl, rfl, rfl, rfl⟩, rfl⟩
    intro id x hx
    by_cases hid : id = b.id
    · simp [hid] at hx
    · rwa [Function.update_of_ne hid] at hx
  · rw [if_neg hnone]
    intro hc
    exact absurd (hret hc) hnone

/-- `bundle_storage_add` for a bundle in memory. -/
theorem storageAdd_spec (hs : Sound careful exact s m frags)
    (hb : s.bundles.cells a = some b) :
    Ends (Tolerated careful) (storageAdd env s a) fun r => b.id = invId ∧
      r.2.bundles = s.bundles.set a { b with id := r.1 } ∧ SameLists s r.2 ∧
      r.2.outQueue = s.outQueue ∧ ∃ m', Sound careful exact r.2 m' frags ∧
      ((r.1 = invId ∧ m' = m) ∨
        (r.1 ≠ invId ∧ m r.1 = none ∧ m' = Function.update m r.1 (some a))) := by
  unfold storageAdd malloc
  apply ends_of_eq (bundle_of_cell hb)
  apply ends_outside
  rintro ⟨id, store⟩ hadd
  have hmem : ∀ x, ((env.malloc s.requests).map fun _ => s.store.tree.heap.bound) = some x →
      s.store.tree.heap.cells x = none := by
    intro x hx
    obtain ⟨_, _, rfl⟩ := Option.map_eq_some_iff.mp hx
    exact s.store.tree.heap.free_above _ (Nat.le_refl _)
  obtain ⟨hid, hcases⟩ := bundleStorageAdd_ok hs.rep hmem hadd
  have hcell : ({ s with store := store, requests := s.requests + 1 } : Processor).bundles.cells a =
      some b := hb
  apply ends_of_eq (update_of_cell hcell _)
  refine ⟨hid, rfl, ⟨rfl, rfl, rfl, rfl⟩, rfl, ?_⟩
  rcases hcases with ⟨rfl, hrep, hbytes⟩ | ⟨hne, hnone, hrep, hbytes⟩
  · refine ⟨m, ?_, Or.inl ⟨rfl, rfl⟩⟩
    have hs' : Sound careful exact { s with store := store, requests := s.requests + 1 } m frags :=
      hs.withStore hrep hbytes
    exact hs'.set_same hcell hid.symm rfl rfl
  · exact ⟨_, hs.enter hb hid hne hnone hrep hbytes, Or.inr ⟨hne, hnone, rfl⟩⟩

/-! ## Custody -/

theorem cell_of_storageAdd {r : UInt16 × Processor} (hb : s.bundles.cells a = some b)
    (h : storageAdd env s a = .ok r) : r.2.bundles.cells a = some { b with id := r.1 } := by
  unfold storageAdd malloc at h
  rw [bundle_of_cell hb, ok_bind] at h
  obtain ⟨⟨id, store⟩, _, h⟩ := ok_of_bind h
  dsimp only at h
  rw [update_of_cell (s := { s with requests := s.requests + 1, store := store }) hb,
    ok_bind] at h
  obtain rfl := Except.ok.inj h
  exact put_self _ _ _

/-- The index of the last of several distinct references. -/
theorem removeAccepted_last (ptrSize : Nat) {accepted : List Addr} {index : Nat}
    (hnd : accepted.Nodup) (hidx : accepted.idxOf? a = some index)
    (hlast : accepted.getLast? = some a) :
    removeAccepted ptrSize accepted index = accepted.dropLast ∧ a ∉ accepted.dropLast := by
  obtain ⟨hlt, heq, _⟩ := List.idxOf?_eq_some_iff.mp hidx
  obtain ⟨init, rfl⟩ := List.getLast?_eq_some_iff.mp hlast
  have hnot : a ∉ init := by
    intro hmem
    exact (List.nodup_append.mp hnd).2.2 a hmem a (by simp) rfl
  have hindex : index = init.length := by
    by_contra hne
    have hlt' : index < init.length := by
      have : index < (init ++ [a]).length := hlt
      simp only [List.length_append, List.length_singleton] at this
      omega
    rw [List.getElem_append_left hlt'] at heq
    exact hnot (heq ▸ List.getElem_mem hlt')
  simp [removeAccepted, hindex, hnot]

/-- The effect of releasing custody of a bundle: it stays, or it was dropped because
nothing else retained it. -/
structure Released (careful : Prop) (s : Processor) (m : UInt16 → Option Addr) (a : Addr)
    (b : Bundle) (s' : Processor) (m' : UInt16 → Option Addr) : Prop where
  fades : Fades s m s' m'
  others : ∀ x, x ≠ a → s'.bundles.cells x = s.bundles.cells x
  reassembly : s'.reassembly = s.reassembly
  known : s'.known = s.known
  delivered : s'.delivered = s.delivered
  accepted : careful → s'.accepted.Sublist s.accepted ∧ a ∉ s'.accepted
  self : (∃ b', s'.bundles.cells a = some b') ∨
    (s'.bundles.cells a = none ∧ a ∈ s.accepted ∧
      { b.ret with custodyAccepted := false } = RetConstraints.none)

/-- **`custody_manager_release`**, when the bundle is the last one in the array. -/
theorem custodyManagerRelease_spec (hs : Sound careful exact s m frags)
    (hb : s.bundles.cells a = some b) (hfr : careful → a ∉ frags)
    (hlast : careful → a ∈ s.accepted → s.accepted.getLast? = some a) :
    Ends (Tolerated careful) (custodyManagerRelease P s a) fun s' => ∃ m',
      Sound careful exact s' m' frags ∧ Released careful s m a b s' m' := by
  unfold custodyManagerRelease
  cases hidx : s.accepted.idxOf? a with
  | none =>
      have hnot : a ∉ s.accepted := List.idxOf?_eq_none_iff.mp hidx
      exact ⟨m, hs, .refl, fun _ _ => rfl, rfl, rfl, rfl,
        fun _ => ⟨List.Sublist.refl _, hnot⟩, Or.inl ⟨b, hb⟩⟩
  | some index =>
      have hmem : a ∈ s.accepted := List.isSome_idxOf?.mp (by rw [hidx]; rfl)
      dsimp only
      generalize hacc : removeAccepted P.ptrSize s.accepted index = acc
      have hsub : careful → acc.Sublist s.accepted ∧ a ∉ acc := by
        intro hc
        obtain ⟨heq, hnot⟩ := removeAccepted_last P.ptrSize (hs.accepted hc).nodup
          hidx (hlast hc hmem)
        rw [← hacc, heq]
        exact ⟨List.dropLast_sublist _, hnot⟩
      have hs₀ : Sound careful exact { s with accepted := acc } m frags :=
        ⟨hs.rep, hs.stored, hs.ids, hs.bytes, hs.below,
          fun hc => (hs.accepted hc).sublist (hsub hc).1, hs.frags⟩
      have hb₀ : ({ s with accepted := acc } : Processor).bundles.cells a = some b := hb
      apply ends_of_eq (update_of_cell hb₀ _)
      apply ends_of_eq (bundle_of_cell (put_self _ _ _))
      have hs₁ := hs₀.set_ret hb₀ { b.ret with custodyAccepted := false }
        (fun hc h => absurd h (hsub hc).2) (fun hc h => absurd h (hfr hc))
      split
      · next hnone =>
        apply (bundleDiscard_spec hs₁ (put_self _ _ _) (fun _ => hnone)
          (fun hc => (hsub hc).2) hfr).mono
        intro s' ⟨hs', hdisc⟩
        have hfades := hdisc.of_put.fades
        refine ⟨_, hs', ⟨hfades.cells, hfades.bound, hfades.map, hfades.outQueue⟩,
          hdisc.of_put.others, hdisc.lists.reassembly, hdisc.lists.known, hdisc.lists.delivered,
          fun hc => ?_, Or.inr ⟨hdisc.self, hmem, hnone⟩⟩
        rw [hdisc.lists.accepted]
        exact hsub hc
      · have hbare : ({ b with ret := { b.ret with custodyAccepted := false } } : Bundle).bare =
            b.bare := rfl
        have hfades := fades_put (m := m) hb₀ hbare
        exact ⟨m, hs₁, ⟨hfades.cells, hfades.bound, hfades.map, hfades.outQueue⟩,
          fun x hx => put_ne _ hx _, rfl, rfl, rfl, hsub, Or.inl ⟨_, put_self _ _ _⟩⟩

/-! ## Records -/

/-- A bundle as it is generated for an administrative record: its deletion is not
reported, and it has no hop count block. -/
structure IsRecord (b : Bundle) : Prop where
  id : b.id = invId
  custody : b.ret.custodyAccepted = false
  unreported : hasFlag b.procFlags flagReportDeletion = false
  hopless : findBlockByType b.blocks blockTypeHopCount = none

theorem isRecord_recordBundle (P : Params) (env : Env) (b : Bundle) (version : UInt8)
    (destination : CStr) (data : Buffer) :
    IsRecord (bundleRecalculateHeaderLength
      (recordBundle P env version b destination data)) := by
  have hflags : hasFlag (recordBundle P env version b destination data).procFlags
      flagReportDeletion = false := by
    by_cases hv : version = 6
    · simp only [recordBundle, hv, if_true]
      decide
    · simp only [recordBundle, hv, if_false]
      decide
  unfold bundleRecalculateHeaderLength
  split
  · exact ⟨rfl, rfl, hflags, rfl⟩
  · split
    · exact ⟨rfl, rfl, hflags, rfl⟩
    · exact ⟨rfl, rfl, hflags, rfl⟩

/-- The outcome of generating a record: nothing, or a bundle in new memory, which may be
lost at once. -/
def Generated (s : Processor) (r : Option Addr × Processor) : Prop :=
  ∃ n, r = (none, { s with requests := n }) ∨
    ∃ x rb, IsRecord rb ∧ s.bundles.bound ≤ x ∧ (r.1 = none ∨ r.1 = some x) ∧
      r.2 = { s with requests := n }.put x rb

theorem newBundle_spec (env : Env) {rb : Bundle} (hrb : IsRecord rb) :
    Generated s (newBundle env s rb) := by
  unfold newBundle malloc
  cases env.malloc s.requests with
  | none => exact ⟨_, Or.inl rfl⟩
  | some gap => exact ⟨_, Or.inr ⟨_, rb, hrb, Nat.le_add_right _ _, Or.inr rfl, rfl⟩⟩

theorem Generated.of_requests {n : Nat} {r : Option Addr × Processor}
    (h : Generated { s with requests := n } r) : Generated s r := by
  obtain ⟨k, h | ⟨x, rb, hrb, hx, hr, heq⟩⟩ := h
  · exact ⟨k, Or.inl h⟩
  · exact ⟨k, Or.inr ⟨x, rb, hrb, hx, hr, heq⟩⟩

theorem generateRecord6_spec (destination : CStr) (isCustodySignal : Bool)
    (prefix1 prefix2 : UInt8) :
    Ends (Tolerated careful)
      (generateRecord6 P env s b destination isCustodySignal prefix1 prefix2)
      (Generated s) := by
  unfold generateRecord6 malloc
  dsimp only
  split
  · exact ⟨_, Or.inl rfl⟩
  split
  · exact ⟨_, Or.inl rfl⟩
  split
  · exact tolerated_other _
  · have hnew := newBundle_spec env (s := { s with requests := s.requests + 1 })
      (isRecord_recordBundle P env b 6 destination
        (env.record6 b isCustodySignal prefix1 prefix2))
    split
    · exact tolerated_other _
    · next heq =>
      rw [heq] at hnew
      exact hnew.of_requests

theorem generateStatusReport_spec (status : ReportStatus) (reason : ReportReason) :
    Ends (Tolerated careful) (generateStatusReport P env s b status reason) (Generated s) := by
  unfold generateStatusReport
  split
  · exact generateRecord6_spec _ _ _ _
  split
  · unfold bundle7GenerateStatusReport malloc
    rw [ends_ok]
    cases env.malloc s.requests with
    | none => exact ⟨_, Or.inl rfl⟩
    | some gap =>
        dsimp only
        cases env.record7 b status reason with
        | none => exact ⟨_, Or.inl rfl⟩
        | some data =>
            dsimp only
            split
            · exact ⟨_, Or.inl rfl⟩
            · exact (newBundle_spec env (isRecord_recordBundle P env b 7 _ _)).of_requests
  · exact ⟨s.requests, Or.inl rfl⟩

theorem generateCustodySignal_spec (signal : CustodySignal) :
    Ends (Tolerated careful) (generateCustodySignal P env s b signal) (Generated s) := by
  unfold generateCustodySignal
  split
  · apply (generateRecord6_spec _ _ _ _).bind
    rintro ⟨r, s₁⟩ ⟨n, h | ⟨x, rb, hrb, hx, hr, heq⟩⟩
    · obtain ⟨rfl, rfl⟩ := Prod.mk.inj h
      exact ⟨n, Or.inl rfl⟩
    · cases r with
      | none => exact ⟨n, Or.inr ⟨x, rb, hrb, hx, Or.inl rfl, heq⟩⟩
      | some y =>
          obtain rfl : y = x := by simpa using hr
          obtain rfl : s₁ = _ := heq
          refine ⟨n + 1, Or.inr ⟨y, rb, hrb, hx, ?_, rfl⟩⟩
          dsimp only
          split
          · exact Or.inr rfl
          · exact Or.inl rfl
  · exact ⟨s.requests, Or.inl rfl⟩

/-- A function that deletes a bundle whose deletion is not reported: the bundle is
removed, and nothing else changes. -/
def DeletesRecords (careful exact : Prop) (del : Deletion) : Prop :=
  ∀ s m frags r rb reason, Sound careful exact s m frags → s.bundles.cells r = some rb →
    rb.ret.custodyAccepted = false → hasFlag rb.procFlags flagReportDeletion = false →
    (careful → r ∉ s.accepted) → (careful → r ∉ frags) →
    Ends (Tolerated careful) (del s r reason) fun s' =>
      Sound careful exact s' (Function.update m rb.id none) frags ∧
        Discarded s m r s' (Function.update m rb.id none)

theorem deletesRecords_bundleDeleteAt (depth : Nat) :
    DeletesRecords careful exact (bundleDeleteAt P env (depth + 1)) := by
  intro s m frags r rb reason hs hrb hcust hflag hacc hfr
  unfold bundleDeleteAt
  apply ends_of_eq (bundle_of_cell hrb)
  rw [hcust, hflag]
  apply ends_of_eq rfl
  apply ends_of_eq rfl
  apply ends_of_eq (update_of_cell hrb _)
  have hs₁ := hs.set_ret hrb .none
    (fun hc h => absurd h (hacc hc)) (fun hc h => absurd h (hfr hc))
  apply (bundleDiscard_spec hs₁ (put_self _ _ _) (fun _ => rfl) hacc hfr).mono
  intro s' ⟨hs', hdisc⟩
  exact ⟨hs', hdisc.of_put⟩

/-- `hop_count_validation` without a hop count block. -/
theorem hopCountValidationWith_none (P : Params) (env : Env) (del : Deletion)
    (hb : s.bundles.cells a = some b)
    (hhop : findBlockByType b.blocks blockTypeHopCount = none) :
    hopCountValidationWith del P env s a = .ok (true, s) := by
  unfold hopCountValidationWith
  rw [bundle_of_cell hb, ok_bind, hhop]
  rfl

theorem sendBundle_cases (env : Env) (s : Processor) (id : UInt16) (timeout : Nat) :
    (∃ n, sendBundle env s id timeout =
      (true, { s with outQueue := s.outQueue ++ [id], requests := n })) ∨
    (timeout ≠ 0 ∧ ∃ n, sendBundle env s id timeout = (false, { s with requests := n })) := by
  unfold sendBundle
  by_cases ht : timeout = 0
  · rw [if_pos ht]
    exact Or.inl ⟨s.requests, rfl⟩
  · rw [if_neg ht]
    cases env.pushed s.requests with
    | true => exact Or.inl ⟨_, rfl⟩
    | false => exact Or.inr ⟨ht, _, rfl⟩

/-- A bundle whose forwarding is pending. -/
def Bundle.forwarded (b : Bundle) : Bundle :=
  { b with ret := { b.ret with forwardPending := true, dispatchPending := false } }

/-- `bundle_forward` after the hop count was validated. -/
theorem bundleForwardWith_valid {del : Deletion} {s₁ : Processor} (timeout : Nat)
    (hhop : hopCountValidationWith del P env s a = .ok (true, s₁))
    (hs : Sound careful exact s₁ m frags) (hb : s₁.bundles.cells a = some b)
    (hfr : careful → a ∉ frags) :
    ∃ s₂, s₂.bundles.cells a = some b.forwarded ∧ Sound careful exact s₂ m frags ∧
      (∀ x, x ≠ a → s₂.bundles.cells x = s₁.bundles.cells x) ∧
      s₁.bundles.bound ≤ s₂.bundles.bound ∧ SameLists s₁ s₂ ∧ s₂.outQueue = s₁.outQueue ∧
      bundleForwardWith del P env s a timeout =
        (match sendBundle env s₂ b.id timeout with
        | (true, s) => .ok (true, s)
        | (false, s) => (del s a .depletedStorage).bind fun s => .ok (false, s)) := by
  have hcust : careful → a ∈ s₁.accepted → b.ret.custodyAccepted = true :=
    fun hc h => (hs.accepted hc).ret h hb
  have hs₁ := hs.set_ret hb { b.ret with forwardPending := true } hcust
      (fun hc h => absurd h (hfr hc))
  have hs₂ := hs₁.set_ret (put_self _ _ _) b.forwarded.ret hcust
    (fun hc h => absurd h (hfr hc))
  refine ⟨_, put_self _ _ _, hs₂, fun x hx => by rw [put_ne _ hx, put_ne _ hx],
    (bound_le_bound_put _ _ _).trans (bound_le_bound_put _ _ _), ⟨rfl, rfl, rfl, rfl⟩, rfl, ?_⟩
  unfold bundleForwardWith
  rw [hhop, ok_bind]
  simp only [Bool.not_true, Bool.false_eq_true, if_false]
  rw [update_of_cell hb, ok_bind, update_of_cell (put_self _ _ _), ok_bind,
    bundle_of_cell (put_self _ _ _), ok_bind]
  rcases sendBundle_cases env _ _ _ with ⟨n, hsend⟩ | ⟨_, n, hsend⟩
  · rw [hsend]
    erw [hsend]
    rfl
  · rw [hsend]
    erw [hsend]
    rfl

/-- Sending a record that was generated for the bundle `a`: the record is stored and
queued, or it is gone again. -/
theorem emitRecordWith_spec {del : Deletion} (hdel : DeletesRecords careful exact del)
    (hs : Sound careful exact s m frags) (hb : s.bundles.cells a = some b) {r : Addr}
    {rb : Bundle} (hrb : s.bundles.cells r = some rb) (hrec : IsRecord rb) (har : a ≠ r)
    (hacc : careful → r ∉ s.accepted) (hfr : careful → r ∉ frags) (timeout : Nat) :
    Ends (Tolerated careful) (emitRecordWith del P env s a r timeout) fun s' => ∃ m',
      Sound careful exact s' m' frags ∧
      (∀ x, x ≠ r → s'.bundles.cells x = s.bundles.cells x) ∧
      s.bundles.bound ≤ s'.bundles.bound ∧ Grew s m s' m' ∧ SameLists s s' := by
  unfold emitRecordWith
  apply ends_of_eq (update_of_cell hrb _)
  have hs₁ := hs.set_ret hrb { rb.ret with dispatchPending := true }
    (fun hc h => absurd h (hacc hc)) (fun hc h => absurd h (hfr hc))
  apply (storageAdd_spec hs₁ (put_self _ _ _)).bind
  rintro ⟨id, s₂⟩ ⟨_, hbun, hlists, hout, m₂, hs₂, hm₂⟩
  have hcell : s₂.bundles.cells r =
      some { rb with id := id, ret := { rb.ret with dispatchPending := true } } := by
    rw [hbun]
    exact Heap.cells_set_self _ _ _
  have hothers : ∀ x, x ≠ r → s₂.bundles.cells x = s.bundles.cells x := by
    intro x hx
    rw [hbun, Heap.cells_set_ne _ hx, put_ne _ hx]
  have hbound : s.bundles.bound ≤ s₂.bundles.bound := by
    rw [hbun]
    exact (bound_le_bound_put _ _ _).trans (Heap.bound_le_bound_set _ _ _)
  have hout₀ : s₂.outQueue = s.outQueue := hout
  have hlists₀ : SameLists s s₂ :=
    ⟨hlists.accepted, hlists.reassembly, hlists.known, hlists.delivered⟩
  obtain ⟨s₃, hcell₃, hs₃, hothers₃, hbound₃, hlists₃, hout₃, hrun⟩ :=
    bundleForwardWith_valid timeout
      (hopCountValidationWith_none P env del hcell hrec.hopless) hs₂ hcell hfr
  dsimp only
  rw [hrun]
  have hkeep : ∀ x, x ≠ r → s₃.bundles.cells x = s.bundles.cells x := fun x hx => by
    rw [hothers₃ x hx, hothers x hx]
  rcases sendBundle_cases env s₃ id timeout with ⟨n, hsend⟩ | ⟨_, n, hsend⟩
  · simp only [hsend]
    refine ⟨m₂, hs₃, hkeep, hbound.trans hbound₃, ⟨[id], ?_, ?_⟩, ?_⟩
    · exact congrArg (· ++ [id]) (hout₃.trans hout₀)
    · intro id' x hx
      rcases hm₂ with ⟨_, rfl⟩ | ⟨_, _, rfl⟩
      · exact Or.inl hx
      · by_cases hid : id' = id
        · exact Or.inr (List.mem_singleton.mpr hid)
        · rw [Function.update_of_ne hid] at hx
          exact Or.inl hx
    · have h := hlists₀.trans hlists₃
      exact ⟨h.accepted, h.reassembly, h.known, h.delivered⟩
  · simp only [hsend]
    have haccr : careful → r ∉ s₃.accepted := by
      rw [hlists₃.accepted, hlists₀.accepted]
      exact hacc
    have hremoved := hdel { s₃ with requests := n } m₂ frags r _ .depletedStorage hs₃ hcell₃
      hrec.custody hrec.unreported haccr hfr
    apply Ends.bind (R := fun r₄ => r₄.1 = false ∧
        Sound careful exact r₄.2 (Function.update m₂ id none) frags ∧
        Discarded { s₃ with requests := n } m₂ r r₄.2 (Function.update m₂ id none))
    · exact hremoved.bind fun s₄ h => ⟨rfl, h⟩
    rintro ⟨sent, s₄⟩ ⟨hsent, hs₄, hdisc⟩
    obtain rfl : sent = false := hsent
    have hcell₄ : s₄.bundles.cells a = some b := by
      rw [hdisc.others a har]
      exact (hkeep a har).trans hb
    apply ends_of_eq (bundle_of_cell hcell₄)
    refine ⟨_, hs₄, fun x hx => ?_, ?_, ⟨[], ?_, ?_⟩, ?_⟩
    · rw [hdisc.others x hx]
      exact hkeep x hx
    · exact (hbound.trans hbound₃).trans hdisc.bound
    · rw [hdisc.outQueue, List.append_nil]
      exact hout₃.trans hout₀
    · intro id' x hx
      rcases hm₂ with ⟨_, rfl⟩ | ⟨_, _, rfl⟩
      · exact Or.inl (hdisc.map id' x hx)
      · by_cases hid : id' = id
        · simp [hid] at hx
        · rw [Function.update_of_ne hid, Function.update_of_ne hid] at hx
          exact Or.inl hx
    · have h := hlists₀.trans hlists₃
      exact ⟨hdisc.lists.accepted.trans h.accepted, hdisc.lists.reassembly.trans h.reassembly,
        hdisc.lists.known.trans h.known, hdisc.lists.delivered.trans h.delivered⟩

/-- The end of `send_status_report` and of `send_custody_signal`. -/
theorem emitGenerated_spec {del : Deletion} (hdel : DeletesRecords careful exact del)
    (hs : Sound careful exact s m frags) (hb : s.bundles.cells a = some b)
    {g : Option Addr × Processor} (hgen : Generated s g) (reports : List Report)
    (timeout : Nat) :
    Ends (Tolerated careful)
      (match g.1 with
      | none => pure g.2
      | some r => emitRecordWith del P env { g.2 with reports := reports } a r timeout)
      fun s' => ∃ m', Sound careful exact s' m' frags ∧ Traffic s m s' m' := by
  obtain ⟨n, rfl | ⟨x, rb, hrec, hx, hr, heq⟩⟩ := hgen
  · exact ⟨m, hs, ⟨fun _ _ => rfl, Nat.le_refl _, ⟨[], by simp, fun _ _ h => Or.inl h⟩,
      ⟨rfl, rfl, rfl, rfl⟩⟩⟩
  -- the new bundle lies above all memory in use
  have hfree : s.bundles.cells x = none := s.bundles.free_above x hx
  have hne : ∀ y, y < s.bundles.bound → y ≠ x := fun y hy => by omega
  have hs₁ : Sound careful exact
      ({ s with requests := n, reports := reports }.put x rb) m frags :=
    SoundParts.alloc (s := { s with requests := n }) hs hfree hrec.id
  obtain ⟨r, s₁⟩ := g
  dsimp only at hr heq ⊢
  subst heq
  rcases hr with rfl | rfl
  · exact ⟨m, hs₁, ⟨fun y hy => put_ne _ (hne y hy) _, bound_le_bound_put _ _ _,
      ⟨[], by simp [Processor.put], fun _ _ h => Or.inl h⟩, ⟨rfl, rfl, rfl, rfl⟩⟩⟩
  · have hax : a ≠ x := hne a (Heap.lt_bound_of_cell hb)
    apply (emitRecordWith_spec hdel hs₁ ((put_ne _ hax _).trans hb) (put_self _ _ _) hrec hax
      (fun hc => (hs.accepted hc).not_mem hfree) (fun hc => (hs.frags hc).not_mem hfree)
      timeout).mono
    intro s' hemitted
    obtain ⟨m', hs', hkeep, hbound, hgrew, hlists⟩ := hemitted
    refine ⟨m', hs', ⟨fun y hy => ?_, (bound_le_bound_put _ _ _).trans hbound, hgrew,
      ⟨hlists.accepted, hlists.reassembly, hlists.known, hlists.delivered⟩⟩⟩
    rw [hkeep y (hne y hy)]
    exact put_ne _ (hne y hy) _

/-- **`send_status_report`** is traffic. -/
theorem sendStatusReportWith_spec {del : Deletion} (hdel : DeletesRecords careful exact del)
    (hs : Sound careful exact s m frags) (hb : s.bundles.cells a = some b)
    (status : ReportStatus) (reason : ReportReason) :
    Ends (Tolerated careful) (sendStatusReportWith del P env s a status reason) fun s' =>
      ∃ m', Sound careful exact s' m' frags ∧ Traffic s m s' m' := by
  unfold sendStatusReportWith
  split
  · exact ⟨m, hs, .refl⟩
  apply ends_of_eq (bundle_of_cell hb)
  split
  · exact ⟨m, hs, .refl⟩
  · apply (generateStatusReport_spec status reason).bind
    intro g hgen
    exact emitGenerated_spec hdel hs hb hgen (g.2.reports ++ [⟨a, b, status, reason⟩]) _

/-- `send_status_report` reads the bundle, or does nothing. -/
theorem sendStatusReportWith_dead (P : Params) (env : Env) (del : Deletion)
    (ha : s.bundles.cells a = none)
    (status : ReportStatus) (reason : ReportReason) :
    sendStatusReportWith del P env s a status reason = .ok s ∨
      sendStatusReportWith del P env s a status reason = .error .stale := by
  unfold sendStatusReportWith
  split
  · exact Or.inl rfl
  · rw [bundle_of_none ha]
    exact Or.inr rfl

/-- **`send_custody_signal`** is traffic. -/
theorem sendCustodySignalWith_spec {del : Deletion} (hdel : DeletesRecords careful exact del)
    (hs : Sound careful exact s m frags) (hb : s.bundles.cells a = some b)
    (signal : CustodySignal) :
    Ends (Tolerated careful) (sendCustodySignalWith del P env s a signal) fun s' =>
      ∃ m', Sound careful exact s' m' frags ∧ Traffic s m s' m' := by
  unfold sendCustodySignalWith
  apply ends_of_eq (bundle_of_cell hb)
  apply (generateCustodySignal_spec signal).bind
  intro g hgen
  exact emitGenerated_spec hdel hs hb hgen g.2.reports _

/-! ## Deletion -/

/-- A bundle was deleted, with a report about it. -/
structure Deleted (careful : Prop) (s : Processor) (m : UInt16 → Option Addr) (a : Addr)
    (s' : Processor) (m' : UInt16 → Option Addr) : Prop where
  self : s'.bundles.cells a = none
  others : ∀ x, x < s.bundles.bound → x ≠ a → s'.bundles.cells x = s.bundles.cells x
  bound : s.bundles.bound ≤ s'.bundles.bound
  grew : Grew s m s' m'
  reassembly : s'.reassembly = s.reassembly
  known : s'.known = s.known
  delivered : s'.delivered = s.delivered
  accepted : careful → s'.accepted.Sublist s.accepted

theorem Deleted.evolves {s' : Processor} {m' : UInt16 → Option Addr}
    (h : Deleted careful s m a s' m') : Evolves s s' where
  cells x hx c' hc' := by
    by_cases hxa : x = a
    · rw [hxa, h.self] at hc'
      cases hc'
    · exact ⟨c', by rw [← h.others x hx hxa]; exact hc', rfl⟩
  bound := h.bound

/-- A bundle that `bundle_delete` may be called with: if it is in custody, it is the
last one that was accepted, and something else retains it too. -/
def Deletable (s : Processor) (a : Addr) (b : Bundle) : Prop :=
  a ∈ s.accepted → s.accepted.getLast? = some a ∧
    { b.ret with custodyAccepted := false } ≠ RetConstraints.none

/-- `bundle_delete` with room for the reports about a bundle. -/
theorem bundleDeleteAt_spec (depth : Nat) (hs : Sound careful exact s m frags)
    (hb : s.bundles.cells a = some b) (hfr : careful → a ∉ frags)
    (hdel : careful → Deletable s a b) (reason : ReportReason) :
    Ends (Tolerated careful) (bundleDeleteAt P env (depth + 2) s a reason) fun s' => ∃ m',
      Sound careful exact s' m' frags ∧ Deleted careful s m a s' m' := by
  rw [bundleDeleteAt]
  apply ends_of_eq (bundle_of_cell hb)
  apply Ends.bind (R := fun s₁ => ∃ m₁, Sound careful exact s₁ m₁ frags ∧
    Fades s m s₁ m₁ ∧ (∀ x, x ≠ a → s₁.bundles.cells x = s.bundles.cells x) ∧
    s₁.reassembly = s.reassembly ∧ s₁.known = s.known ∧ s₁.delivered = s.delivered ∧
    (careful → s₁.accepted.Sublist s.accepted ∧ a ∉ s₁.accepted) ∧
    ((∃ b₁, s₁.bundles.cells a = some b₁) ∨ (s₁.bundles.cells a = none ∧ ¬ careful)))
  · -- the release of custody
    apply ends_when
    · intro _
      apply (custodyManagerRelease_spec hs hb hfr (fun hc h => (hdel hc h).1)).mono
      intro s₁ ⟨m₁, hs₁, hrel⟩
      refine ⟨m₁, hs₁, hrel.fades, hrel.others, hrel.reassembly, hrel.known, hrel.delivered,
        hrel.accepted, hrel.self.imp_right ?_⟩
      intro ⟨hnone, hmem, hret⟩
      exact ⟨hnone, fun hc => (hdel hc hmem).2 hret⟩
    · intro hcust
      refine ⟨m, hs, .refl, fun _ _ => rfl, rfl, rfl, rfl,
        fun hc => ⟨List.Sublist.refl _, fun h => ?_⟩, Or.inl ⟨b, hb⟩⟩
      have hret := (hs.accepted hc).ret h hb
      rw [hcust] at hret
      cases hret
  intro s₁ ⟨m₁, hs₁, hfades, hothers, hreas, hknown, hdeliv, hacc, halive⟩
  rcases halive with ⟨b₁, hb₁⟩ | ⟨hnone, hnc⟩
  · apply Ends.bind (R := fun s₂ => ∃ m₂, Sound careful exact s₂ m₂ frags ∧ Traffic s₁ m₁ s₂ m₂)
    · apply ends_when
      · intro _
        exact sendStatusReportWith_spec (deletesRecords_bundleDeleteAt depth) hs₁ hb₁ _ _
      · intro _
        exact ⟨m₁, hs₁, .refl⟩
    intro s₂ ⟨m₂, hs₂, htraf⟩
    have hb₂ := htraf.cell hb₁
    have hacc₂ : careful → a ∉ s₂.accepted := by
      intro hc
      rw [htraf.lists.accepted]
      exact (hacc hc).2
    apply ends_of_eq (update_of_cell hb₂ _)
    have hs₃ := hs₂.set_ret hb₂ .none
      (fun hc h => absurd h (hacc₂ hc)) (fun hc h => absurd h (hfr hc))
    apply (bundleDiscard_spec hs₃ (put_self _ _ _) (fun _ => rfl) hacc₂ hfr).mono
    intro s' ⟨hs', hdisc⟩
    refine ⟨_, hs', hdisc.self, ?_, ?_, ?_, ?_, ?_, ?_, ?_⟩
    · intro x hx hxa
      rw [hdisc.of_put.others x hxa, htraf.cells x (Nat.lt_of_lt_of_le hx hfades.bound),
        hothers x hxa]
    · exact (hfades.bound.trans htraf.bound).trans hdisc.of_put.bound
    · exact (hfades.grew.trans htraf.grew).trans hdisc.of_put.fades.grew
    · rw [hdisc.of_put.lists.reassembly]
      exact htraf.lists.reassembly.trans hreas
    · rw [hdisc.of_put.lists.known]
      exact htraf.lists.known.trans hknown
    · rw [hdisc.of_put.lists.delivered]
      exact htraf.lists.delivered.trans hdeliv
    · intro hc
      rw [hdisc.of_put.lists.accepted, htraf.lists.accepted]
      exact (hacc hc).1
  · -- the bundle is gone already, and is used again
    have hstale : ∀ s₂, s₂ = s₁ → Ends (Tolerated careful)
        (s₂.update a (fun b => { b with ret := .none }) >>= fun s => bundleDiscard s a)
        fun s' => ∃ m', Sound careful exact s' m' frags ∧ Deleted careful s m a s' m' := by
      rintro s₂ rfl
      rw [update_of_none hnone]
      exact tolerated_of_not hnc _
    apply Ends.bind (R := fun s₂ => s₂ = s₁)
    · apply ends_when
      · intro _
        rcases sendStatusReportWith_dead P env (bundleDeleteAt P env (depth + 1)) hnone .deleted
          reason with h | h
        · rw [h]
          exact rfl
        · rw [h]
          exact tolerated_of_not hnc _
      · intro _
        rfl
    exact hstale

/-- **`bundle_delete`** removes the bundle. -/
theorem bundleDelete_spec (hs : Sound careful exact s m frags)
    (hb : s.bundles.cells a = some b) (hfr : careful → a ∉ frags)
    (hdel : careful → Deletable s a b) (reason : ReportReason) :
    Ends (Tolerated careful) (bundleDelete P env s a reason) fun s' => ∃ m',
      Sound careful exact s' m' frags ∧ Deleted careful s m a s' m' :=
  bundleDeleteAt_spec 0 hs hb hfr hdel reason

theorem sendStatusReport_spec (hs : Sound careful exact s m frags)
    (hb : s.bundles.cells a = some b) (status : ReportStatus) (reason : ReportReason) :
    Ends (Tolerated careful) (sendStatusReport P env s a status reason) fun s' =>
      ∃ m', Sound careful exact s' m' frags ∧ Traffic s m s' m' :=
  sendStatusReportWith_spec (deletesRecords_bundleDeleteAt 1) hs hb status reason

theorem sendCustodySignal_spec (hs : Sound careful exact s m frags)
    (hb : s.bundles.cells a = some b) (signal : CustodySignal) :
    Ends (Tolerated careful) (sendCustodySignal P env s a signal) fun s' =>
      ∃ m', Sound careful exact s' m' frags ∧ Traffic s m s' m' :=
  sendCustodySignalWith_spec (deletesRecords_bundleDeleteAt 1) hs hb signal

end Specs

end BundleProcessor
