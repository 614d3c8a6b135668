import DisruptaBLE.Processor.Signals

/-!
# Runs of the bundle processor

A run stores bundles that were received or created, and handles signals, in any order
and each with any surroundings.  `Reachable P C` are the states after the runs in which
every signal meets the condition `C`.

`Reachable.sound`: as long as the signals are harmless, the invariant holds.
`usage_of_kept_payloads`: the byte counter of the storage is then right as long as no
payload leaves a bundle by its delivery.  `bundle_to_adu` takes the payload, and the
bundle is discarded as an empty one.
-/

namespace BundleProcessor

open PtrHeap BundleStorage Outcome

/-- A bundle is received or created, and stored.  `bundle_init` gives it no id and no
retention constraints; if there is no room in the storage, the bundle is freed. -/
def storeBundle (env : Env) (s : Processor) (b : Bundle) : Except Fault Processor := do
  match newBundle env s { b with id := invId, ret := .none } with
  | (none, s) => pure s
  | (some a, s) =>
      let (id, s) ← storageAdd env s a
      if id = invId then pure { s with bundles := s.bundles.erase a } else pure s

/-- The states that are reached while every signal meets a condition. -/
inductive Reachable (P : Params) (C : Env → Processor → Signal → Prop) : Processor → Prop
  | init : Reachable P C Processor.init
  | store {s s' : Processor} {env : Env} {b : Bundle} (hs : Reachable P C s)
      (h : storeBundle env s b = .ok s') : Reachable P C s'
  | signal {s s' : Processor} {env : Env} {sig : Signal} (hs : Reachable P C s)
      (hsig : C env s sig) (h : handleSignal P env s sig = .ok s') : Reachable P C s'

section Runs

variable {careful exact : Prop} {P : Params} {C : Env → Processor → Signal → Prop} {env : Env}
  {s s' : Processor} {m : UInt16 → Option Addr} {a : Addr} {b : Bundle}

/-! ## Storing a bundle -/

/-- A bundle that could not be stored is freed. -/
theorem SoundParts.free {frags : List Addr} (hs : Sound careful exact s m frags)
    (hb : s.bundles.cells a = some b) (hid : b.id = invId) (hacc : careful → a ∉ s.accepted)
    (hfr : careful → a ∉ frags) :
    Sound careful exact { s with bundles := s.bundles.erase a } m frags := by
  have hnone : Function.update m b.id none = m := by
    rw [hid, ← hs.rep.map_invId, Function.update_eq_self]
  have hrep : Represents s.store (Function.update m b.id none) := by
    rw [hnone]
    exact hs.rep
  have hsound := hs.remove hb hrep
    (by rw [hid, hs.rep.map_invId, lengthAt_none, UInt32.sub_zero]) hacc hfr
  rw [hnone] at hsound
  exact hsound

/-- Storing a bundle touches no other one. -/
theorem storeBundle_spec (hs : Sound careful exact s m s.reassembly.flatten) (b : Bundle) :
    Ends (Tolerated careful) (storeBundle env s b) fun s' => ∃ m',
      Sound careful exact s' m' s'.reassembly.flatten ∧ Evolves s s' ∧ SameTracks s s' := by
  unfold storeBundle newBundle malloc
  cases env.malloc s.requests with
  | none => exact ⟨m, hs, ⟨fun _ _ c h => ⟨c, h, rfl⟩, Nat.le_refl _⟩, ⟨rfl, rfl, rfl⟩⟩
  | some gap =>
      dsimp only
      -- the new bundle lies above all memory in use
      have hfree : s.bundles.cells (s.bundles.bound + gap) = none :=
        s.bundles.free_above _ (Nat.le_add_right _ _)
      have hne : ∀ x, x < s.bundles.bound → x ≠ s.bundles.bound + gap := fun x hx => by omega
      have hs₁ : Sound careful exact ({ s with requests := s.requests + 1 }.put
          (s.bundles.bound + gap) { b with id := invId, ret := .none }) m
          s.reassembly.flatten :=
        SoundParts.alloc (s := { s with requests := s.requests + 1 }) hs hfree rfl
      apply (storageAdd_spec hs₁ (put_self _ _ _)).bind
      rintro ⟨id, s₂⟩ ⟨_, hbun, hlists, _, m₂, hs₂, hm₂⟩
      have htracks : SameTracks s s₂ := ⟨hlists.reassembly, hlists.known, hlists.delivered⟩
      have hcell : s₂.bundles.cells (s.bundles.bound + gap) =
          some { b with id := id, ret := .none } := by
        rw [hbun]
        exact Heap.cells_set_self _ _ _
      have hothers : ∀ x, x < s.bundles.bound → s₂.bundles.cells x = s.bundles.cells x := by
        intro x hx
        rw [hbun, Heap.cells_set_ne _ (hne x hx)]
        exact put_ne _ (hne x hx) _
      have hbound : s.bundles.bound ≤ s₂.bundles.bound := by
        rw [hbun]
        exact (bound_le_bound_put _ _ _).trans (Heap.bound_le_bound_set _ _ _)
      have hacc₂ : s₂.accepted = s.accepted := hlists.accepted
      rw [← htracks.reassembly] at hs₂
      dsimp only
      split
      · next hid =>
        refine ⟨m₂, ?_, ⟨?_, hbound⟩, ⟨htracks.reassembly, htracks.known, htracks.delivered⟩⟩
        · refine hs₂.free hcell hid ?_ ?_
          · intro hc
            rw [hacc₂]
            exact (hs.accepted hc).not_mem hfree
          · intro hc
            rw [htracks.reassembly]
            exact (hs.frags hc).not_mem hfree
        · intro x hx c' hc'
          have hcell' : s₂.bundles.cells x = some c' := by
            rw [← hc']
            exact (Heap.cells_erase_ne _ (hne x hx)).symm
          exact ⟨c', by rw [← hothers x hx]; exact hcell', rfl⟩
      · refine ⟨m₂, hs₂, ⟨?_, hbound⟩, htracks⟩
        intro x hx c' hc'
        exact ⟨c', by rw [← hothers x hx]; exact hc', rfl⟩

/-! ## Invariants of runs -/

/-- **The invariant holds in every run**, with those of its parts that the condition of
the run keeps. -/
theorem Reachable.sound (h : Reachable P C s) (careful exact : Prop)
    (hsafe : careful → ∀ env s sig, C env s sig → Harmless P env s sig)
    (hlen : exact → ∀ env s sig, C env s sig → KeepsPayload P env s sig) :
    ∃ m, Sound careful exact s m s.reassembly.flatten := by
  induction h with
  | init => exact ⟨_, sound_init⟩
  | store _ hrun ih =>
      obtain ⟨m, hs⟩ := ih
      obtain ⟨m', hs', _⟩ := (storeBundle_spec hs _).of_ok hrun
      exact ⟨m', hs'⟩
  | signal _ hsig hrun ih =>
      obtain ⟨m, hs⟩ := ih
      obtain ⟨m', hdone⟩ := (handleSignal_spec hs _ (fun hc => hsafe hc _ _ _ hsig)
        (fun he => hlen he _ _ _ hsig)).of_ok hrun
      exact ⟨m', hdone.sound⟩

/-- No bundle is used after it was freed, and none is dropped with constraints. -/
theorem Reachable.tolerated (hsafe : ∀ env s sig, C env s sig → Harmless P env s sig)
    (h : Reachable P C s) {sig : Signal} (hsig : C env s sig) {f : Fault}
    (hf : handleSignal P env s sig = .error f) : f ≠ .stale ∧ f ≠ .retained := by
  obtain ⟨m, hs⟩ := h.sound True False (fun _ => hsafe) False.elim
  exact (handleSignal_spec hs sig (fun _ => hsafe env s sig hsig) False.elim).of_error hf trivial

end Runs

/-! ## A small node -/

/-- A node that sends no status reports. -/
def smallNode : Params where
  localEid := "dtn://n".toList
  statusReporting := false
  ptrSize := 8
  ptrSize_ge := by decide
  hopCountParse
    | [limit, count] => some ⟨limit.toUInt16, count.toUInt16⟩
    | _ => none
  hopCountSerialize h := ⟨[h.limit.toUInt8, h.count.toUInt8], by simp⟩
  parseAdministrativeRecord _ _ := none

/-- Surroundings with enough memory, ten seconds after the epoch. -/
def calm : Env where
  now := 10
  malloc _ := some 0
  pushed _ := true
  garbage _ := 0
  record6 _ _ _ _ := Buffer.empty
  record7 _ _ _ := none

/-- A bundle with one byte of payload. -/
def note (destination : String) (blocks : List Block) : Bundle where
  id := invId
  protocolVersion := 7
  procFlags := 0
  ret := .none
  crcType := .none
  destination := destination.toList
  source := "dtn://m/b".toList
  reportTo := eidNone
  currentCustodian := []
  creationTimestampMs := 5000
  sequenceNumber := 1
  lifetimeMs := 60000
  fragmentOffset := 0
  totalAduLength := 0
  primaryBlockLength := 0
  blocksBefore := blocks
  payload := ⟨1, 0, ⟨[7], Buffer.seven_fits⟩, [], .none⟩
  blocksAfter := []

/-- The state that a step of the small node leads to. -/
def settle : Except Fault Processor → Processor
  | .ok s => s
  | .error _ => Processor.init

/-- The small node with one bundle. -/
def holding (b : Bundle) : Processor := settle (storeBundle calm Processor.init b)

/-- The small node after a signal. -/
def handling (s : Processor) (sig : Signal) : Processor :=
  settle (handleSignal smallNode calm s sig)

theorem reachable_holding (C : Env → Processor → Signal → Prop) {b : Bundle}
    (h : storeBundle calm Processor.init b = .ok (holding b)) :
    Reachable smallNode C (holding b) := .store .init h

theorem reachable_storing {C : Env → Processor → Signal → Prop} {s : Processor}
    (hs : Reachable smallNode C s) (b : Bundle)
    (h : storeBundle calm s b = .ok (settle (storeBundle calm s b))) :
    Reachable smallNode C (settle (storeBundle calm s b)) := .store hs h

theorem reachable_handling {C : Env → Processor → Signal → Prop} {s : Processor}
    (hs : Reachable smallNode C s) (sig : Signal) (hsig : C calm s sig)
    (h : handleSignal smallNode calm s sig = .ok (handling s sig)) :
    Reachable smallNode C (handling s sig) := .signal hs hsig h

/-- A signal about a bundle that is known. -/
theorem about_eq {s : Processor} {id : UInt16} {type type' : BundleSignal} {a a' : Addr}
    {b b' : Bundle} (hget : bundleStorageGet s.store id = .ok (some a))
    (hb : s.bundles.cells a = some b) (h : About s (.bundle id type) type' a' b') :
    type' = type ∧ a' = a ∧ b' = b := by
  obtain ⟨id', hsig, hget', hb'⟩ := h
  obtain ⟨rfl, rfl⟩ := Signal.bundle.inj hsig
  rw [hget] at hget'
  obtain rfl := Option.some.inj (Except.ok.inj hget')
  rw [hb] at hb'
  exact ⟨rfl, rfl, (Option.some.inj hb').symm⟩

theorem bundleStorageGet_empty {s : Store Addr} (h : s.tree.storageTree = none) (id : UInt16) :
    bundleStorageGet s id = .ok none := by
  unfold bundleStorageGet findNodeptr
  rw [h]
  split
  · rfl
  · rfl

section Runs

variable {careful exact : Prop} {P : Params} {C : Env → Processor → Signal → Prop} {env : Env}
  {s s' : Processor} {m : UInt16 → Option Addr} {a : Addr} {b : Bundle}

/-! ## Accounting -/

/-- The sum of the payload lengths of the bundles in the storage. -/
def storedBytes (s : Processor) : UInt32 :=
  ∑ id, lengthAt s.bundles ((bundleStorageGet s.store id).toOption.getD none)

theorem SoundParts.storedBytes (hs : Sound careful exact s m s.reassembly.flatten) :
    storedBytes s = mapBytes s.bundles m := by
  unfold BundleProcessor.storedBytes mapBytes
  apply Finset.sum_congr rfl
  intro id _
  rw [hs.rep.get]
  rfl

/-- **Storage accounting.**  In every run in which no payload leaves a bundle by its
delivery, the usage of the storage is the sum of the payload lengths of the bundles that
are stored; so it is zero when none is. -/
theorem usage_of_kept_payloads (P : Params) (s : Processor)
    (h : Reachable P (KeepsPayload P) s) :
    bundleStorageGetUsage s.store = storedBytes s ∧
      ((∀ id, bundleStorageGet s.store id = .ok none) → bundleStorageGetUsage s.store = 0) := by
  obtain ⟨m, hs⟩ := h.sound False True False.elim fun _ _ _ _ h => h
  have husage : bundleStorageGetUsage s.store = storedBytes s := by
    rw [hs.storedBytes]
    exact hs.bytes trivial
  refine ⟨husage, fun hnone => ?_⟩
  rw [husage]
  unfold storedBytes
  apply Finset.sum_eq_zero
  intro id _
  rw [hnone id]
  rfl

end Runs

/-- A bundle that is forwarded and then sent. -/
theorem usage_of_kept_payloads_forwarded :
    (∃ s, Reachable smallNode (KeepsPayload smallNode) s ∧ bundleStorageGetUsage s.store = 1) ∧
    ∃ s, Reachable smallNode (KeepsPayload smallNode) s ∧ bundleStorageGetUsage s.store = 0 ∧
      s.outQueue = [1] := by
  have h₁ := reachable_holding (KeepsPayload smallNode) (b := note "dtn://x/a" []) rfl
  have h₂ := reachable_handling h₁ (.bundle 1 .incoming) (by
    intro type a b habout hcourse
    obtain ⟨rfl, rfl, rfl⟩ := about_eq (a := 0) rfl rfl habout
    exact absurd hcourse (by decide +kernel)) rfl
  have h₃ := reachable_handling h₂ (.bundle 1 .transmissionSuccess) (by
    intro type a b habout hcourse
    obtain ⟨rfl, rfl, rfl⟩ := about_eq (a := 0) rfl rfl habout
    cases hcourse) rfl
  exact ⟨⟨_, h₂, rfl⟩, _, h₃, (usage_of_kept_payloads smallNode _ h₃).2
    (bundleStorageGet_empty rfl), rfl⟩

/-- After the delivery of a bundle the storage is empty, but its usage is not zero. -/
theorem usage_after_delivery :
    ¬ ∀ (P : Params) (s : Processor), Reachable P (fun _ _ _ => True) s →
      bundleStorageGetUsage s.store = storedBytes s ∧
        ((∀ id, bundleStorageGet s.store id = .ok none) →
          bundleStorageGetUsage s.store = 0) := by
  intro hall
  have h₁ := reachable_holding (fun _ _ _ => True) (b := note "dtn://n/a" []) rfl
  have h₂ := reachable_handling h₁ (.bundle 1 .incoming) trivial rfl
  have hzero := (hall smallNode _ h₂).2 (bundleStorageGet_empty rfl)
  exact absurd hzero (by decide +kernel)

end BundleProcessor
