/-!
# Interleaved systems

A system takes one event after the other.  What the code does on an event is a function that fails
where an assertion of the code fails; what the outside promises is a predicate on events.  The runs
are all sequences of promised events, so a statement about `Reachable` holds in every order in
which the tasks of the system may take their steps.

`Reachable.invariant` is the rule for invariants, and `Reachable.along` the one for what holds from
some moment on.
-/

namespace Interleaving

universe u v

/-- A system that takes events. -/
structure System (σ : Type u) (ε : Type v) where
  /-- the states in which it may begin -/
  init : σ → Prop
  /-- what the outside promises of an event -/
  enabled : σ → ε → Prop
  /-- what the code does; an assertion may fail -/
  next : σ → ε → Option σ

variable {σ : Type u} {ε : Type v} (S : System σ ε)

/-- One step of a run, in which every event satisfies `C`. -/
def Step (C : σ → ε → Prop) (s s' : σ) : Prop :=
  ∃ e, S.enabled s e ∧ C s e ∧ S.next s e = some s'

/-- The states that are reached from `s`. -/
inductive ReachableFrom (C : σ → ε → Prop) (s : σ) : σ → Prop where
  | refl : ReachableFrom C s s
  | step {t t' : σ} : ReachableFrom C s t → Step S C t t' → ReachableFrom C s t'

/-- The states that are reached from a first state. -/
def Reachable (C : σ → ε → Prop) (s : σ) : Prop :=
  ∃ s₀, S.init s₀ ∧ ReachableFrom S C s₀ s

/-- No condition on the events. -/
def Anything (_ : σ) (_ : ε) : Prop := True

instance decidableAnything (s : σ) (e : ε) : Decidable (Anything s e) :=
  inferInstanceAs (Decidable True)

/-- The invariant holds first, and every event keeps it. -/
structure Invariant (C : σ → ε → Prop) (I : σ → Prop) : Prop where
  init : ∀ s, S.init s → I s
  step : ∀ s e s', I s → S.enabled s e → C s e → S.next s e = some s' → I s'

/-- The given events can happen one after the other, and lead to a state with `P`. -/
def Runs (C : σ → ε → Prop) (P : σ → Prop) : σ → List ε → Prop
  | s, [] => P s
  | s, e :: es =>
      S.enabled s e ∧ C s e ∧
        match S.next s e with
        | none => False
        | some s' => Runs C P s' es

variable {S} {C : σ → ε → Prop} {s t : σ}

/-- A run can be checked by executing it. -/
def decideRuns [∀ s e, Decidable (S.enabled s e)] [∀ s e, Decidable (C s e)]
    {P : σ → Prop} [DecidablePred P] : (es : List ε) → (s : σ) → Decidable (Runs S C P s es)
  | [], s => inferInstanceAs (Decidable (P s))
  | e :: es, s =>
      have : Decidable (match S.next s e with
          | none => False
          | some s' => Runs S C P s' es) :=
        match S.next s e with
        | none => instDecidableFalse
        | some s' => decideRuns es s'
      inferInstanceAs (Decidable (S.enabled s e ∧ C s e ∧ _))

instance decidableRuns [∀ s e, Decidable (S.enabled s e)] [∀ s e, Decidable (C s e)]
    {P : σ → Prop} [DecidablePred P] (s : σ) (es : List ε) : Decidable (Runs S C P s es) :=
  decideRuns es s

/-- What every event keeps holds along a run. -/
theorem ReachableFrom.along {I : σ → Prop} (h : ReachableFrom S C s t) (hs : I s)
    (hstep : ∀ s e s', I s → S.enabled s e → C s e → S.next s e = some s' → I s') : I t := by
  induction h with
  | refl => exact hs
  | step _ hlast ih =>
      obtain ⟨e, henabled, hC, hnext⟩ := hlast
      exact hstep _ e _ ih henabled hC hnext

theorem ReachableFrom.trans {r : σ} (h : ReachableFrom S C r s) (h' : ReachableFrom S C s t) :
    ReachableFrom S C r t := by
  induction h' with
  | refl => exact h
  | step _ hlast ih => exact ih.step hlast

theorem Runs.reachable {P : σ → Prop} {es : List ε} (h : Runs S C P s es) :
    ∃ t, ReachableFrom S C s t ∧ P t := by
  induction es generalizing s with
  | nil => exact ⟨s, .refl, h⟩
  | cons e es ih =>
      obtain ⟨henabled, hC, hnext⟩ := h
      cases hs : S.next s e with
      | none =>
          rw [hs] at hnext
          exact hnext.elim
      | some s' =>
          rw [hs] at hnext
          obtain ⟨t, hreach, hP⟩ := ih hnext
          have hfirst : ReachableFrom S C s s' := ReachableFrom.refl.step ⟨e, henabled, hC, hs⟩
          exact ⟨t, hfirst.trans hreach, hP⟩

theorem Reachable.extend (h : Reachable S C s) (h' : ReachableFrom S C s t) : Reachable S C t := by
  obtain ⟨s₀, hinit, hreach⟩ := h
  exact ⟨s₀, hinit, hreach.trans h'⟩

theorem Reachable.step {e : ε} (h : Reachable S C s) (henabled : S.enabled s e) (hC : C s e)
    (hnext : S.next s e = some t) : Reachable S C t :=
  h.extend (ReachableFrom.refl.step ⟨e, henabled, hC, hnext⟩)

/-- **Invariants.** -/
theorem Reachable.invariant {I : σ → Prop} (h : Reachable S C s) (hI : Invariant S C I) : I s := by
  obtain ⟨s₀, hinit, hreach⟩ := h
  exact hreach.along (hI.init _ hinit) hI.step

/-- **What holds from some moment on**, with an invariant of the whole run at hand. -/
theorem Reachable.along {I J : σ → Prop} (h : Reachable S C s) (h' : ReachableFrom S C s t)
    (hI : Invariant S C I) (hs : J s)
    (hstep : ∀ s e s', I s → J s → S.enabled s e → C s e → S.next s e = some s' → J s') : J t := by
  have hboth : I t ∧ J t := by
    refine h'.along (I := fun t => I t ∧ J t) ⟨h.invariant hI, hs⟩ ?_
    intro s e s' hIJ henabled hC hnext
    exact ⟨hI.step s e s' hIJ.1 henabled hC hnext, hstep s e s' hIJ.1 hIJ.2 henabled hC hnext⟩
  exact hboth.2

end Interleaving
