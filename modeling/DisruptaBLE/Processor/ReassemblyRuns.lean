import DisruptaBLE.Processor.Runs

/-!
# The reassembly list over whole runs

`reassembly_state`: the slots of the reassembly list are in order, and they refer to
stored bundles that wait for reassembly, each of them once.  This needs signals that are
harmless: a fragment that is deleted otherwise stays in its slot.  It also needs memory
for the entry of a new slot: if there is none, the slot stays in the list without a
bundle.
-/

namespace BundleProcessor

open PtrHeap BundleStorage Outcome

/-- The slots are in order, and refer once to stored bundles that wait for reassembly. -/
structure ReassemblyState (s : Processor) : Prop where
  orderly : OrderlySlots s.bundles s.reassembly
  once : s.reassembly.flatten.Nodup
  waiting : ∀ x ∈ s.reassembly.flatten, ∃ id b, bundleStorageGet s.store id = .ok (some x) ∧
    s.bundles.cells x = some b ∧ b.ret.reassemblyPending = true

/-- The condition of the runs: the signals are harmless, and find memory for the entry of
a new slot. -/
def Accommodated (P : Params) (env : Env) (s : Processor) (sig : Signal) : Prop :=
  Harmless P env s sig ∧ SignalRoomy P env s sig

section Runs

variable {P : Params} {env : Env} {s s' : Processor} {m : UInt16 → Option Addr}

/-- What is stored has an id. -/
theorem About.id_ne {careful exact : Prop} {frags : List Addr} {sig : Signal}
    {type : BundleSignal} {a : Addr} {b : Bundle} (hs : Sound careful exact s m frags)
    (h : About s sig type a b) : b.id ≠ invId := by
  obtain ⟨id, _, hget, hb⟩ := h
  rw [hs.rep.get] at hget
  exact fun hinv => hs.not_stored hb hinv id (Except.ok.inj hget)

theorem lasting_id : Lasting (·.id ≠ invId) := by
  intro b b' hbare hid
  rw [eq_of_bare Bundle.id (fun _ => rfl) hbare]
  exact hid

/-- Fragments keep a lasting property while a bundle is stored. -/
theorem SlotsAll.store {careful exact : Prop} {p : Bundle → Prop} (h : SlotsAll p s)
    (hp : Lasting p) (hs : Sound careful exact s m s.reassembly.flatten) (hev : Evolves s s')
    (htracks : SameTracks s s') : SlotsAll p s' := by
  intro x hx c' hc'
  rw [htracks.reassembly] at hx
  obtain ⟨c, hc, hbare⟩ := hev.cells x (hs.below x hx) c' hc'
  exact hp c c' hbare (h x hx c hc)

/-- In every run the fragments in the slots have ids. -/
theorem Reachable.fragment_ids {C : Env → Processor → Signal → Prop} (h : Reachable P C s) :
    SlotsAll (·.id ≠ invId) s := by
  induction h with
  | init => exact fun x hx => by cases hx
  | store hs hrun ih =>
      obtain ⟨m, hsound⟩ := hs.sound False False False.elim False.elim
      obtain ⟨_, _, hev, htracks⟩ := (storeBundle_spec hsound _).of_ok hrun
      exact ih.store lasting_id hsound hev htracks
  | signal hs _ hrun ih =>
      obtain ⟨m, hsound⟩ := hs.sound False False False.elim False.elim
      obtain ⟨_, hdone⟩ := (handleSignal_spec hsound _ False.elim False.elim).of_ok hrun
      exact hdone.slotsAll lasting_id hsound ih fun _ _ _ habout _ => habout.id_ne hsound

theorem Reachable.orderly (h : Reachable P (Accommodated P) s) :
    ∃ m, Sound True False s m s.reassembly.flatten ∧ OrderlySlots s.bundles s.reassembly := by
  induction h with
  | init => exact ⟨_, sound_init, orderlySlots_nil⟩
  | store _ hrun ih =>
      obtain ⟨m, hs, hord⟩ := ih
      obtain ⟨m', hs', hev, htracks⟩ := (storeBundle_spec hs _).of_ok hrun
      refine ⟨m', hs', ?_⟩
      rw [htracks.reassembly]
      exact hord.evolve fun x hx => hev.cells x (hs.below x hx)
  | signal _ hsig hrun ih =>
      obtain ⟨m, hs, hord⟩ := ih
      obtain ⟨m', hdone⟩ := (handleSignal_spec hs _ (fun _ => hsig.1) False.elim).of_ok hrun
      exact ⟨m', hdone.sound, hdone.orderly trivial hsig.2 hord⟩

/-- **Reassembly state.**  In every run of harmless signals with memory for the entries of
new slots, the reassembly list is in order. -/
theorem reassembly_state (P : Params) (s : Processor) (h : Reachable P (Accommodated P) s) :
    ReassemblyState s := by
  obtain ⟨m, hs, hord⟩ := h.orderly
  refine ⟨hord, (hs.frags trivial).nodup, fun x hx => ?_⟩
  obtain ⟨b, hb, hret⟩ := (hs.frags trivial).live x hx
  refine ⟨b.id, b, ?_, hb, ?_⟩
  · rw [hs.rep.get, hs.ids x b hb (h.fragment_ids x hx b hb)]
  · rw [show b.ret = .reassemblyOnly from hret]
    rfl

end Runs

/-- A fragment with the first of two bytes. -/
def firstHalf : Bundle :=
  { note "dtn://n/a" [] with procFlags := flagIsFragment, totalAduLength := 2 }

/-- A fragment waits for the other one. -/
theorem reassembly_state_waiting :
    ∃ s, Reachable smallNode (Accommodated smallNode) s ∧ s.reassembly = [[0]] ∧
      ReassemblyState s := by
  have h₁ := reachable_holding (Accommodated smallNode) (b := firstHalf) rfl
  have h₂ := reachable_handling h₁ (.bundle 1 .incoming) (by
    constructor
    · intro type a b habout
      obtain ⟨rfl, rfl, rfl⟩ := about_eq (a := 0) rfl rfl habout
      exact ⟨by decide +kernel, rfl, rfl, Or.inl (by decide +kernel)⟩
    · intro type a b habout _
      obtain ⟨rfl, rfl, rfl⟩ := about_eq (a := 0) rfl rfl habout
      intro s₁ _ s₂ _ n _ _
      rfl) rfl
  exact ⟨_, h₂, rfl, reassembly_state smallNode _ h₂⟩

/-- Surroundings without memory for one request. -/
def scarce (n : Nat) : Env := { calm with malloc := fun k => if k = n then none else some 0 }

/-- A slot without a bundle. -/
theorem empty_slot :
    ¬ ∀ (P : Params) (s : Processor), Reachable P (fun _ _ _ => True) s → ReassemblyState s := by
  intro hall
  have h₁ := reachable_holding (fun _ _ _ => True) (b := firstHalf) rfl
  -- requests: the bundle, its node, the list of known bundles, the slot, and its entry
  have hrun : handleSignal smallNode (scarce 4) (holding firstHalf) (.bundle 1 .incoming) =
      .ok (settle (handleSignal smallNode (scarce 4) (holding firstHalf)
        (.bundle 1 .incoming))) := rfl
  exact ((hall smallNode _ (.signal h₁ trivial hrun)).orderly.each [] (by decide +kernel)).nonempty
    rfl

end BundleProcessor
