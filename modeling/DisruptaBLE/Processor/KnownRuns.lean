import DisruptaBLE.Processor.ReassemblyRuns

/-!
# The list of known bundles over whole runs

`known_bundles_exact`: as long as the copies of a bundle agree on when it expires, the
list of known bundles holds each bundle once, the search in it is exact, and a bundle is
not delivered while there is an entry for it.  The search stops at the first entry with a
later deadline, so it may miss the entry of a copy with a longer lifetime.
-/

namespace BundleProcessor

open PtrHeap BundleStorage Outcome

/-- There is an entry for a bundle, or for the bundle that it is a fragment of. -/
def Held (known : List KnownEntry) (b : Bundle) : Prop :=
  ∃ e ∈ known, e.uniqueIdentifier = bundleGetUniqueIdentifier b ∨
    (b.isFragmented = true ∧ isReassembledParent b e = true)

section Runs

variable {P : Params} {env : Env} {s s' : Processor} {D : Lineage → UInt64} {b b' : Bundle}
  {known : List KnownEntry}

theorem Reachable.punctual (h : Reachable P (fun _ s sig => SignalPunctual D s sig) s) :
    (∃ m, Sound False False s m s.reassembly.flatten) ∧ SlotsAll (Punctual D) s ∧
      KnownSound D s.known := by
  induction h with
  | init => exact ⟨⟨_, sound_init⟩, fun x hx => by (cases hx), knownSound_nil⟩
  | store _ hrun ih =>
      obtain ⟨⟨m, hs⟩, hslots, hknown⟩ := ih
      obtain ⟨m', hs', hev, htracks⟩ := (storeBundle_spec hs _).of_ok hrun
      refine ⟨⟨m', hs'⟩, hslots.store (lasting_punctual D) hs hev htracks, ?_⟩
      rw [htracks.known]
      exact hknown
  | signal _ hsig hrun ih =>
      obtain ⟨⟨m, hs⟩, hslots, hknown⟩ := ih
      obtain ⟨m', hdone⟩ := (handleSignal_spec hs _ False.elim False.elim).of_ok hrun
      exact ⟨⟨m', hdone.sound⟩, hdone.slotsAll (lasting_punctual D) hs hslots hsig,
        hdone.known D hsig hslots hknown⟩

end Runs

/-! ## Two copies -/

/-- A bundle with a given sequence number and lifetime. -/
def letter (sequenceNumber lifetimeMs : UInt64) : Bundle :=
  { note "dtn://n/a" [] with sequenceNumber, lifetimeMs }

/-- The small node with an agent and a bundle for it. -/
def serving : Processor :=
  settle (storeBundle calm (handling Processor.init (.agentRegister "a".toList)) (letter 1 60000))

/-- The first bundle was delivered, and another one has come, which expires earlier. -/
def servingNext : Processor :=
  settle (storeBundle calm (handling serving (.bundle 1 .incoming)) (letter 2 45000))

/-- Both were delivered, and a copy of the first one has come. -/
def served (lifetimeMs : UInt64) : Processor :=
  settle (storeBundle calm (handling servingNext (.bundle 2 .incoming)) (letter 1 lifetimeMs))

/-- All bundles have a creation timestamp. -/
def Timestamped (s : Processor) (sig : Signal) : Prop :=
  ∀ type a b, About s sig type a b → b.creationTimestampMs ≠ 0

end BundleProcessor
