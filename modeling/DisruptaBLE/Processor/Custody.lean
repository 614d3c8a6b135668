import DisruptaBLE.Processor.Runs

/-!
# The custody set

`accepted_bundles` and `accepted_bundle_count` of `custody_manager.c` over whole sequences of
`custody_manager_accept` and `custody_manager_release`.  Beside the run goes the list of the
bundles that were accepted and not released yet.

`custody_set` says that the array is this list, as long as only the bundle in its last place is
released.  In any other place `memmove` gets the number of pointers for the number of bytes
(`custody_released_from_middle`).
-/

namespace BundleProcessor

open PtrHeap Outcome

/-- The operations of the custody manager. -/
inductive CustodyOp where
  | accept (a : Addr)
  | release (a : Addr)
  deriving DecidableEq, Repr

/-- One operation. -/
def custodyStep (P : Params) (s : Processor) : CustodyOp → Except Fault Processor
  | .accept a => (custodyManagerAccept P s a).map Prod.snd
  | .release a => custodyManagerRelease P s a

/-- The bundles that were accepted and not released yet, after an operation. -/
def CustodyOp.held (held : List Addr) : CustodyOp → List Addr
  | .accept a => held ++ [a]
  | .release a => held.erase a

/-- Runs of the custody manager.  New bundles come in between. -/
inductive CustodyRun (P : Params) (Q : Processor → CustodyOp → Prop) :
    Processor → List Addr → Prop where
  | init {s : Processor} (hnone : s.accepted = [])
      (hflags : ∀ a b, s.bundles.cells a = some b → b.ret.custodyAccepted = false) :
      CustodyRun P Q s []
  | create {s : Processor} {held : List Addr} {a : Addr} {b : Bundle} (h : CustodyRun P Q s held)
      (hfree : s.bundles.cells a = none) (hflag : b.ret.custodyAccepted = false) :
      CustodyRun P Q (s.put a b) held
  | step {s s' : Processor} {held : List Addr} {op : CustodyOp} (h : CustodyRun P Q s held)
      (hQ : Q s op) (hstep : custodyStep P s op = .ok s') : CustodyRun P Q s' (op.held held)

/-- **The property.** -/
structure CustodySet (s : Processor) (held : List Addr) : Prop where
  exactly : s.accepted = held
  once : s.accepted.Nodup
  bound : s.accepted.length ≤ custodyMaxBundleCount
  live : ∀ a ∈ s.accepted, ∃ b, s.bundles.cells a = some b
  marked : ∀ a b, s.bundles.cells a = some b → (b.ret.custodyAccepted = true ↔ a ∈ s.accepted)

/-- **The condition** on an operation: a bundle of the array is only released from its last
place. -/
def FromTheEnd (s : Processor) : CustodyOp → Prop
  | .accept _ => True
  | .release a => a ∈ s.accepted → s.accepted.getLast? = some a

variable {P : Params} {s s' : Processor} {held : List Addr} {a : Addr} {b : Bundle}

theorem acceptable_room (h : acceptable s a b = true) :
    s.accepted.length < custodyMaxBundleCount ∧ a ∉ s.accepted := by
  unfold acceptable at h
  rw [Bool.and_eq_true, Bool.and_eq_true, decide_eq_true_eq, decide_eq_true_eq] at h
  exact h.1

theorem assertP_eq_ok {c : Bool} {u : Unit} (h : assertP c = .ok u) : c = true := by
  cases c with
  | false => cases h
  | true => rfl

/-- What `custody_manager_accept` does. -/
theorem custodyManagerAccept_eq_ok {r : Bool} (h : custodyManagerAccept P s a = .ok (r, s')) :
    ∃ b b', acceptable s a b = true ∧ s'.accepted = s.accepted ++ [a] ∧
      s'.bundles.cells a = some b' ∧ b'.ret.custodyAccepted = true ∧
      ∀ x, x ≠ a → s'.bundles.cells x = s.bundles.cells x := by
  obtain ⟨redundant, hredundant, h₁⟩ := ok_of_bind h
  obtain ⟨b, hread, _⟩ := ok_of_bind hredundant
  have hb : s.bundles.cells a = some b := by
    unfold Processor.bundle at hread
    split at hread
    · cases hread
    · next hcell =>
      cases hread
      exact hcell
  obtain ⟨_, _, h₂⟩ := ok_of_bind h₁
  obtain ⟨⟨ok, s₁⟩, hstorage, h₃⟩ := ok_of_bind h₂
  obtain ⟨_, hassert, hmark⟩ := ok_of_bind h₃
  -- at most the primary block length has changed so far
  have hs₁ : ok = acceptable s a b ∧ s₁.accepted = s.accepted ∧
      (∃ b₁, s₁.bundles.cells a = some b₁) ∧
      ∀ x, x ≠ a → s₁.bundles.cells x = s.bundles.cells x := by
    rcases custodyManagerStorageIsAcceptable_eq hb with hsame | ⟨n, hlength⟩
    · obtain ⟨rfl, rfl⟩ := Prod.mk.inj (Except.ok.inj (hstorage.symm.trans hsame))
      exact ⟨rfl, rfl, ⟨b, hb⟩, fun _ _ => rfl⟩
    · obtain ⟨rfl, rfl⟩ := Prod.mk.inj (Except.ok.inj (hstorage.symm.trans hlength))
      exact ⟨rfl, rfl, ⟨_, put_self _ _ _⟩, fun x hx => put_ne _ hx _⟩
  obtain ⟨rfl, haccepted, ⟨b₁, hb₁⟩, hothers⟩ := hs₁
  have hacceptable := assertP_eq_ok hassert
  have hb₂ : ({ s₁ with accepted := s₁.accepted ++ [a] } : Processor).bundles.cells a = some b₁ :=
    hb₁
  dsimp only at hmark
  rw [update_of_cell hb₂, ok_bind, bundle_of_cell (put_self _ _ _), ok_bind] at hmark
  split at hmark
  · rw [update_of_cell (put_self _ _ _), ok_bind] at hmark
    obtain ⟨_, rfl⟩ := Prod.mk.inj (Except.ok.inj hmark)
    refine ⟨b, _, hacceptable, congrArg (· ++ [a]) haccepted, put_self _ _ _, rfl, ?_⟩
    intro x hx
    rw [put_ne _ hx, put_ne _ hx]
    exact hothers x hx
  · obtain ⟨_, rfl⟩ := Prod.mk.inj (Except.ok.inj hmark)
    refine ⟨b, _, hacceptable, congrArg (· ++ [a]) haccepted, put_self _ _ _, rfl, ?_⟩
    intro x hx
    rw [put_ne _ hx]
    exact hothers x hx

/-- `bundle_storage_delete` changes the storage only. -/
theorem storageDelete_eq_ok {id : UInt16} (h : storageDelete s id = .ok s') :
    ∃ store, s' = { s with store } := by
  obtain ⟨found, _, h⟩ := ok_of_bind h
  cases found with
  | none =>
      cases h
      exact ⟨s.store, rfl⟩
  | some x =>
      obtain ⟨b, _, h⟩ := ok_of_bind h
      obtain ⟨⟨_, store⟩, _, h⟩ := ok_of_bind h
      cases h
      exact ⟨store, rfl⟩

/-- A bundle is discarded. -/
theorem bundleDiscard_eq_ok (h : bundleDiscard s a = .ok s') :
    s'.accepted = s.accepted ∧ s'.bundles = s.bundles.erase a := by
  obtain ⟨b, _, h⟩ := ok_of_bind h
  obtain ⟨s₁, hdelete, h⟩ := ok_of_bind h
  obtain ⟨store, rfl⟩ := storageDelete_eq_ok hdelete
  obtain ⟨b', _, h⟩ := ok_of_bind h
  split at h
  · cases h
    exact ⟨rfl, rfl⟩
  · cases h

/-- What `custody_manager_release` does to a bundle of the array. -/
theorem custodyManagerRelease_eq_ok {i : Nat} (hi : s.accepted.idxOf? a = some i)
    (h : custodyManagerRelease P s a = .ok s') :
    s'.accepted = removeAccepted P.ptrSize s.accepted i ∧
      (∀ b, s'.bundles.cells a = some b → b.ret.custodyAccepted = false) ∧
      ∀ x, x ≠ a → s'.bundles.cells x = s.bundles.cells x := by
  unfold custodyManagerRelease at h
  rw [hi] at h
  dsimp only at h
  obtain ⟨s₁, hupdate, h⟩ := ok_of_bind h
  unfold Processor.update at hupdate
  split at hupdate
  · cases hupdate
  · next b hb =>
    cases hupdate
    rw [bundle_of_cell (put_self _ _ _), ok_bind] at h
    split at h
    · obtain ⟨haccepted, hbundles⟩ := bundleDiscard_eq_ok h
      refine ⟨haccepted, ?_, ?_⟩
      · intro b' hb'
        rw [hbundles, Heap.cells_erase_self] at hb'
        cases hb'
      · intro x hx
        rw [hbundles, Heap.cells_erase_ne _ hx]
        exact put_ne _ hx _
    · cases h
      refine ⟨rfl, ?_, fun x hx => put_ne _ hx _⟩
      intro b' hb'
      rw [put_self] at hb'
      cases hb'
      rfl

/-- The last place of an array without repetition. -/
theorem idxOf?_getLast {l : List Addr} (hnodup : l.Nodup) (hlast : l.getLast? = some a) :
    l.idxOf? a = some (l.length - 1) := by
  obtain ⟨rest, rfl⟩ := List.getLast?_eq_some_iff.mp hlast
  have hnot : a ∉ rest := by
    intro hin
    exact (List.nodup_append.mp hnodup).2.2 a hin a (List.mem_singleton_self a) rfl
  rw [List.idxOf?_eq_some_iff]
  refine ⟨by simp, by simp, ?_⟩
  intro j hj
  have hlt : j < rest.length := by simpa using hj
  rw [List.getElem_append_left hlt]
  rintro rfl
  exact hnot (List.getElem_mem hlt)

/-- **A bundle is accepted.** -/
theorem CustodySet.accept (h : CustodySet s held) {r : Bool}
    (hrun : custodyManagerAccept P s a = .ok (r, s')) : CustodySet s' (held ++ [a]) := by
  obtain ⟨b, b', hacceptable, haccepted, hb', hflag, hothers⟩ := custodyManagerAccept_eq_ok hrun
  obtain ⟨hroom, hnew⟩ := acceptable_room hacceptable
  refine ⟨by rw [haccepted, h.exactly], ?_, ?_, ?_, ?_⟩
  · rw [haccepted, List.nodup_append]
    refine ⟨h.once, List.nodup_singleton a, ?_⟩
    rintro x hx y hy rfl
    obtain rfl := List.mem_singleton.mp hy
    exact hnew hx
  · rw [haccepted, List.length_append, List.length_singleton]
    exact hroom
  · intro x hx
    by_cases hxa : x = a
    · exact ⟨b', hxa ▸ hb'⟩
    · rw [haccepted, List.mem_append, List.mem_singleton] at hx
      rw [hothers x hxa]
      exact h.live x (hx.resolve_right hxa)
  · intro x bx hbx
    rw [haccepted, List.mem_append, List.mem_singleton]
    by_cases hx : x = a
    · rw [hx, hb'] at hbx
      cases hbx
      exact ⟨fun _ => Or.inr hx, fun _ => hflag⟩
    · rw [hothers x hx] at hbx
      rw [h.marked x bx hbx]
      exact ⟨Or.inl, fun hmem => hmem.resolve_right hx⟩

/-- **A bundle is released** from the last place of the array. -/
theorem CustodySet.release (h : CustodySet s held) (hend : FromTheEnd s (.release a))
    (hrun : custodyManagerRelease P s a = .ok s') : CustodySet s' (held.erase a) := by
  by_cases hmem : a ∈ s.accepted
  · have hlast := hend hmem
    obtain ⟨haccepted, hoff, hothers⟩ :=
      custodyManagerRelease_eq_ok (idxOf?_getLast h.once hlast) hrun
    obtain ⟨rest, hrest⟩ := List.getLast?_eq_some_iff.mp hlast
    have hnot : a ∉ rest := by
      have hnodup := h.once
      rw [hrest, List.nodup_append] at hnodup
      intro hin
      exact hnodup.2.2 a hin a (List.mem_singleton_self a) rfl
    have hcut : s'.accepted = rest := by
      rw [haccepted, removeAccepted, if_neg (by simp), hrest, List.dropLast_concat]
    have herase : held.erase a = rest := by
      rw [← h.exactly, hrest, List.erase_append_right _ hnot]
      simp
    have hsub : rest.Sublist s.accepted := by
      rw [hrest]
      exact List.sublist_append_left _ _
    refine ⟨hcut.trans herase.symm, hcut ▸ h.once.sublist hsub, ?_, ?_, ?_⟩
    · rw [hcut]
      exact hsub.length_le.trans h.bound
    · intro x hx
      rw [hcut] at hx
      have hxa : x ≠ a := by
        rintro rfl
        exact hnot hx
      rw [hothers x hxa]
      exact h.live x (hsub.subset hx)
    · intro x bx hbx
      rw [hcut]
      by_cases hx : x = a
      · rw [hx] at hbx ⊢
        rw [hoff bx hbx]
        exact ⟨fun hf => (by cases hf), fun hin => absurd hin hnot⟩
      · rw [hothers x hx] at hbx
        rw [h.marked x bx hbx, hrest, List.mem_append, List.mem_singleton]
        exact ⟨fun hin => hin.resolve_right hx, Or.inl⟩
  · have hsame : s' = s := by
      unfold custodyManagerRelease at hrun
      rw [List.idxOf?_eq_none_iff.mpr hmem] at hrun
      exact (Except.ok.inj hrun).symm
    rw [hsame, List.erase_of_not_mem (h.exactly ▸ hmem)]
    exact h

/-- **The custody set.**  In every run in which bundles are released from the last place only, the
array is the list of the bundles that were accepted and not released yet. -/
theorem custody_set (h : CustodyRun P FromTheEnd s held) : CustodySet s held := by
  induction h with
  | init hnone hflags =>
      refine ⟨hnone, by rw [hnone]; exact List.nodup_nil, by rw [hnone]; exact Nat.zero_le _,
        ?_, ?_⟩
      · intro a ha
        rw [hnone] at ha
        cases ha
      · intro a b hb
        rw [hflags a b hb, hnone]
        simp
  | @create s held a b _ hfree hflag ih =>
      have hne : ∀ x ∈ s.accepted, x ≠ a := by
        rintro x hx rfl
        obtain ⟨bx, hbx⟩ := ih.live x hx
        rw [hfree] at hbx
        cases hbx
      refine ⟨ih.exactly, ih.once, ih.bound, ?_, ?_⟩
      · intro x hx
        rw [put_ne _ (hne x hx)]
        exact ih.live x hx
      · intro x bx hbx
        by_cases hx : x = a
        · rw [hx, put_self] at hbx
          cases hbx
          rw [hflag]
          exact ⟨fun hf => (by cases hf), fun hin => absurd hx (hne x hin)⟩
        · rw [put_ne _ hx] at hbx
          exact ih.marked x bx hbx
  | @step s s' held op _ hend hstep ih =>
      cases op with
      | accept a =>
          obtain ⟨r, hrun, rfl⟩ : ∃ r, custodyManagerAccept P s a = .ok r ∧ r.2 = s' := by
            rw [custodyStep] at hstep
            cases hrun : custodyManagerAccept P s a with
            | error f =>
                rw [hrun] at hstep
                cases hstep
            | ok r =>
                rw [hrun] at hstep
                exact ⟨r, rfl, Except.ok.inj hstep⟩
          exact ih.accept hrun
      | release a => exact ih.release hend hstep

theorem CustodyRun.next {Q : Processor → CustodyOp → Prop} (h : CustodyRun P Q s held)
    (op : CustodyOp) (hQ : Q s op) (hstep : custodyStep P s op = .ok s') :
    CustodyRun P Q s' (op.held held) :=
  .step h hQ hstep

/-- A bundle whose custody can be accepted. -/
def valuable (source : String) : Bundle :=
  { note "dtn://x/a" [] with
    protocolVersion := 6
    procFlags := flagSingletonEndpoint
    ret := { RetConstraints.none with flagOwn := true }
    source := source.toList }

/-- Custody of two bundles is accepted, and the second one is released. -/
theorem custody_set_two : ∃ s, CustodyRun smallNode FromTheEnd s [4096] ∧
    CustodySet s [4096] := by
  have hrun : ∃ s, CustodyRun smallNode FromTheEnd s [4096] := by
    have hone := (CustodyRun.init (P := smallNode) (Q := FromTheEnd) (s := Processor.init) rfl
      (fun _ _ hb => by cases hb)).create (a := 4096) (b := valuable "dtn://m/b") rfl rfl
    have htwo := hone.create (a := 8192) (b := valuable "dtn://m/c") rfl rfl
    have haccepted := (htwo.next (.accept 4096) trivial rfl).next (.accept 8192) trivial rfl
    exact ⟨_, haccepted.next (.release 8192) (fun _ => rfl) rfl⟩
  obtain ⟨s, hrun⟩ := hrun
  exact ⟨s, hrun, custody_set hrun⟩

/-- **The wrong bundle stays.**  Custody of two bundles is accepted, and the first one is released:
one byte is moved instead of one pointer, and the array still holds the released bundle. -/
theorem custody_released_from_middle :
    ¬ ∀ s held, CustodyRun smallNode (fun _ _ => True) s held → CustodySet s held := by
  intro hset
  have hrun : ∃ s, CustodyRun smallNode (fun _ _ => True) s [8192] ∧ s.accepted = [4096] := by
    have hone := (CustodyRun.init (P := smallNode) (Q := fun _ _ => True) (s := Processor.init) rfl
      (fun _ _ hb => by cases hb)).create (a := 4096) (b := valuable "dtn://m/b") rfl rfl
    have htwo := hone.create (a := 8192) (b := valuable "dtn://m/c") rfl rfl
    have haccepted := (htwo.next (.accept 4096) trivial rfl).next (.accept 8192) trivial rfl
    exact ⟨_, haccepted.next (.release 4096) trivial rfl, rfl⟩
  obtain ⟨s, hrun, haccepted⟩ := hrun
  have hexactly := (hset s [8192] hrun).exactly
  rw [haccepted] at hexactly
  exact absurd hexactly (by decide)

end BundleProcessor
