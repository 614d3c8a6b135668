import DisruptaBLE.Lib.Heap

/-!
# Outcomes of fallible programs

`Ends tol x Q` is a postcondition for a program that may fail: it returns a value
with `Q`, or it ends in a fault that `tol` tolerates.  If every fault is tolerated,
this is partial correctness (`Returns`); if none is, it is total correctness.  A statement for
an arbitrary `tol` covers both, and what lies between.

The rules follow the shape of a program: `Ends.bind` for a sequence, `Ends.mono` for
a weaker postcondition, and `ends_of_eq` for a call whose result is known.
-/

namespace Outcome

open PtrHeap

universe u

variable {ε α γ : Type u} {tol : ε → Prop}

/-- `x` returns a value with `Q`, or ends in a tolerated fault. -/
def Ends (tol : ε → Prop) (x : Except ε α) (Q : α → Prop) : Prop :=
  match x with
  | .ok a => Q a
  | .error f => tol f

@[simp] theorem ends_ok {a : α} {Q : α → Prop} : Ends tol (.ok a) Q ↔ Q a := Iff.rfl

@[simp] theorem ends_error {f : ε} {Q : α → Prop} : Ends tol (.error f) Q ↔ tol f := Iff.rfl

@[simp] theorem ends_pure {a : α} {Q : α → Prop} : Ends tol (pure a) Q ↔ Q a := Iff.rfl

/-- The rule for a sequence. -/
theorem Ends.bind {x : Except ε α} {f : α → Except ε γ} {R : α → Prop} {Q : γ → Prop}
    (hx : Ends tol x R) (hf : ∀ a, R a → Ends tol (f a) Q) : Ends tol (x >>= f) Q := by
  cases x with
  | error e => exact hx
  | ok a => exact hf a hx

/-- The rule for a sequence whose second part depends on what the first one returned. -/
theorem Ends.bind_of_ok {x : Except ε α} {f : α → Except ε γ} {R : α → Prop} {Q : γ → Prop}
    (hx : Ends tol x R) (hf : ∀ a, x = .ok a → R a → Ends tol (f a) Q) :
    Ends tol (x >>= f) Q := by
  cases x with
  | error e => exact hx
  | ok a => exact hf a rfl hx

theorem Ends.mono {x : Except ε α} {Q Q' : α → Prop} (h : Ends tol x Q)
    (hQ : ∀ a, Q a → Q' a) : Ends tol x Q' := by
  cases x with
  | error e => exact h
  | ok a => exact hQ a h

/-- A weaker postcondition of what the program returned. -/
theorem Ends.mono_of_ok {x : Except ε α} {Q Q' : α → Prop} (h : Ends tol x Q)
    (hQ : ∀ a, x = .ok a → Q a → Q' a) : Ends tol x Q' := by
  cases x with
  | error e => exact h
  | ok a => exact hQ a rfl h

/-- Two postconditions of one program. -/
theorem Ends.and {x : Except ε α} {Q R : α → Prop} (hQ : Ends tol x Q) (hR : Ends tol x R) :
    Ends tol x fun a => Q a ∧ R a := by
  cases x with
  | error e => exact hQ
  | ok a => exact ⟨hQ, hR⟩

/-- A sequence whose first part has a known result. -/
theorem ends_of_eq {x : Except ε α} {a : α} {f : α → Except ε γ} {Q : γ → Prop}
    (hx : x = .ok a) (hf : Ends tol (f a) Q) : Ends tol (x >>= f) Q := by
  rw [hx]
  exact hf

/-- What a program returns satisfies its postcondition. -/
theorem Ends.of_ok {x : Except ε α} {a : α} {Q : α → Prop} (h : Ends tol x Q)
    (hx : x = .ok a) : Q a := by
  rw [hx] at h
  exact h

/-- The faults of a program are tolerated ones. -/
theorem Ends.of_error {x : Except ε α} {f : ε} {Q : α → Prop} (h : Ends tol x Q)
    (hx : x = .error f) : tol f := by
  rw [hx] at h
  exact h

/-- A sequence that returns a value: what its first part returns. -/
theorem ok_of_bind {x : Except ε α} {f : α → Except ε γ} {c : γ} (h : x >>= f = .ok c) :
    ∃ a, x = .ok a ∧ f a = .ok c := by
  cases x with
  | error e => cases h
  | ok a => exact ⟨a, rfl, h⟩

/-- Sequences with the same first part agree, if they agree on what it returns. -/
theorem bind_congr_ok {x : Except ε α} {f g : α → Except ε γ}
    (h : ∀ a, x = .ok a → f a = g a) : x >>= f = x >>= g := by
  cases x with
  | error e => rfl
  | ok a => exact h a rfl

/-- A program is judged by what it returns and by its faults. -/
theorem ends_intro {x : Except ε α} {Q : α → Prop} (hok : ∀ a, x = .ok a → Q a)
    (herr : ∀ f, x = .error f → tol f) : Ends tol x Q := by
  cases x with
  | error f => exact herr f rfl
  | ok a => exact hok a rfl

/-! ## Partial correctness -/

/-- `x` has the postcondition `Q` if it returns. -/
abbrev Returns (x : Except ε α) (Q : α → Prop) : Prop := Ends (fun _ => True) x Q

theorem returns_intro {x : Except ε α} {Q : α → Prop} (h : ∀ a, x = .ok a → Q a) : Returns x Q :=
  ends_intro h fun _ _ => trivial

/-- What a read returns is in the heap. -/
theorem returns_load {β : Type} (h : Heap β) (a : Addr) :
    Returns (h.load (some a)) fun v => h.cells a = some v :=
  returns_intro fun _ => Heap.load_eq_ok.mp

/-- What a write leaves. -/
theorem returns_modify {β : Type} (h : Heap β) (a : Addr) (f : β → β) :
    Returns (h.modify (some a) f) fun h' => ∃ v, h.cells a = some v ∧ h' = h.set a (f v) :=
  returns_intro fun _ => Heap.modify_eq_ok.mp

theorem returns_release {β : Type} (h : Heap β) (a : Addr) :
    Returns (h.release (some a)) fun h' => (∃ v, h.cells a = some v) ∧ h' = h.erase a :=
  returns_intro fun _ => Heap.release_eq_ok.mp

/-- After an assertion, it holds. -/
theorem returns_assertC (b : Bool) : Returns (assertC b) fun _ => b = true := by
  cases b with
  | false => trivial
  | true => rfl

end Outcome
