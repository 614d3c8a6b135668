import Mathlib.Data.Nat.Init

/-!
# Loops that end

A pass of a loop ends it with a result, or goes on with another state.  `Ends` is a finite run of
the loop, with the number of its passes.  It tells a loop that ends from one whose passes ran out,
which a loop with a number of passes as its argument does not: with enough passes that loop has the
result of the finite run (`Ends.eq_of_le`).

A loop ends if its passes decrease a number (`exists_ends`).
-/

namespace EndingLoop

universe u v

variable {σ : Type u} {ρ : Type v}

/-- The loop ends after some passes with a result. -/
inductive Ends (pass : σ → ρ ⊕ σ) : σ → Nat → ρ → Prop
  | last {s : σ} {r : ρ} : pass s = .inl r → Ends pass s 1 r
  | next {s s' : σ} {n : Nat} {r : ρ} : pass s = .inr s' → Ends pass s' n r → Ends pass s (n + 1) r

variable {pass : σ → ρ ⊕ σ} {s : σ} {n : Nat} {r : ρ}

/-- A loop whose passes keep an invariant and decrease a number ends. -/
theorem exists_ends (I : σ → Prop) (m : σ → Nat)
    (hpass : ∀ s s', I s → pass s = .inr s' → I s' ∧ m s' < m s) (hs : I s) :
    ∃ n r, n ≤ m s + 1 ∧ Ends pass s n r := by
  induction hk : m s using Nat.strong_induction_on generalizing s with
  | _ k ih =>
      cases hp : pass s with
      | inl r => exact ⟨1, r, by omega, .last hp⟩
      | inr s' =>
          obtain ⟨hs', hlt⟩ := hpass s s' hs hp
          obtain ⟨n, r, hn, hends⟩ := ih (m s') (by omega) hs' rfl
          exact ⟨n + 1, r, by omega, .next hp hends⟩

/-- What every pass keeps holds of the state that ends the loop. -/
theorem Ends.invariant {I : σ → Prop} {Q : ρ → Prop} (h : Ends pass s n r) (hs : I s)
    (hnext : ∀ s s', I s → pass s = .inr s' → I s') (hlast : ∀ s r, I s → pass s = .inl r → Q r) :
    Q r := by
  induction h with
  | last hp => exact hlast _ _ hs hp
  | next hp _ ih => exact ih (hnext _ _ hs hp)

/-- A loop for a number of passes has this result, if it has enough of them. -/
theorem Ends.eq_of_le (h : Ends pass s n r) (loop : Nat → σ → ρ)
    (hloop : ∀ fuel s, loop (fuel + 1) s = (pass s).elim id (loop fuel)) (fuel : Nat)
    (hn : n ≤ fuel) : loop fuel s = r := by
  induction h generalizing fuel with
  | last hp =>
      obtain ⟨k, rfl⟩ := Nat.exists_eq_add_of_le' hn
      rw [hloop, hp]
      rfl
  | @next s s' n r hp _ ih =>
      have hpos : 1 ≤ fuel := Nat.le_trans (Nat.le_add_left 1 n) hn
      obtain ⟨k, rfl⟩ := Nat.exists_eq_add_of_le' hpos
      rw [hloop, hp]
      exact ih k (by omega)

end EndingLoop
