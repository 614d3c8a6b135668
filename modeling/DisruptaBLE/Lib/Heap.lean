import Mathlib.Data.List.Nodup
import Mathlib.Data.Finset.Card
import Mathlib.Data.Finset.Range

/-!
# Pointers, cells and faults

A small semantics for pointer programs.  A heap maps addresses to cells; a
pointer is an address or `NULL`.  A program fragment is a function into
`Except Fault`, so that a failed assertion, a null dereference, an access
through a stale pointer and a loop that never ends are ordinary outcomes that
a theorem can exclude.

Allocation is not resolved here: `set` puts a cell at an address that the
caller supplies, and a statement about an allocating program says that this
address was unused.  Addresses may be used again after `erase`, as `malloc`
may do.

`bound` is an upper bound on the addresses ever used.  A traversal that visits
no cell twice takes at most `bound` steps, which is why the loops of a model
may use it as their fuel: `length_le_bound_of_nodup`.
-/

namespace PtrHeap

universe u

/-- The ways in which a run of pointer code can go wrong. -/
inductive Fault where
  /-- An assertion of the program is false. -/
  | assertFailed
  /-- `NULL` was dereferenced. -/
  | nullDeref
  /-- A pointer to no live cell was dereferenced. -/
  | dangling
  /-- A loop does not end. -/
  | diverged
  deriving DecidableEq, Repr

/-- The address of a cell. -/
abbrev Addr := Nat

/-- A pointer; `none` is `NULL`. -/
abbrev Ptr := Option Addr

/-- `ASSERT(b)`. -/
def assertC (b : Bool) : Except Fault Unit :=
  if b then .ok () else .error .assertFailed

@[simp] theorem assertC_true : assertC true = .ok () := rfl

theorem assertC_of {b : Bool} (h : b = true) : assertC b = .ok () := by
  simp [assertC, h]

@[simp] theorem ok_bind {ε α γ : Type u} (a : α) (f : α → Except ε γ) :
    ((Except.ok a : Except ε α) >>= f) = f a := rfl

/-- A sequence succeeds if both parts do. -/
theorem bind_eq_ok {ε α γ : Type u} {x : Except ε α} {f : α → Except ε γ} {r : γ} :
    (x >>= f) = .ok r ↔ ∃ a, x = .ok a ∧ f a = .ok r := by
  cases x with
  | error e => simp [bind, Except.bind]
  | ok a => simp

/-- Conversion to `int8_t`. -/
def int8 (x : Int) : Int := Int.bmod x 256

theorem int8_of_small {x : Int} (hlo : -128 ≤ x) (hhi : x ≤ 127) : int8 x = x := by
  unfold int8
  exact Int.bmod_eq_of_le (by omega) (by omega)

/-- A heap of cells of type `α`: no cell lies at or above `bound`. -/
structure Heap (α : Type u) where
  cells : Addr → Option α
  bound : Nat
  free_above : ∀ a, bound ≤ a → cells a = none

namespace Heap

variable {α : Type u}

/-- The heap without cells. -/
def empty : Heap α := ⟨fun _ => none, 0, fun _ _ => rfl⟩

/-- Write a cell, or create it if there is none at this address. -/
def set (h : Heap α) (a : Addr) (v : α) : Heap α where
  cells b := if b = a then some v else h.cells b
  bound := max h.bound (a + 1)
  free_above b hb := by
    have hne : b ≠ a := by omega
    simpa [hne] using h.free_above b (by omega)

/-- Release the cell at an address. -/
def erase (h : Heap α) (a : Addr) : Heap α where
  cells b := if b = a then none else h.cells b
  bound := h.bound
  free_above b hb := by
    by_cases hba : b = a
    · simp [hba]
    · simpa [hba] using h.free_above b hb

/-- Read through a pointer. -/
def load (h : Heap α) : Ptr → Except Fault α
  | none => .error .nullDeref
  | some a =>
      match h.cells a with
      | none => .error .dangling
      | some v => .ok v

/-- Change the cell behind a pointer. -/
def modify (h : Heap α) (p : Ptr) (f : α → α) : Except Fault (Heap α) :=
  match p with
  | none => .error .nullDeref
  | some a =>
      match h.cells a with
      | none => .error .dangling
      | some v => .ok (h.set a (f v))

/-- `free(p)`; `free(NULL)` does nothing. -/
def release (h : Heap α) : Ptr → Except Fault (Heap α)
  | none => .ok h
  | some a =>
      match h.cells a with
      | none => .error .dangling
      | some _ => .ok (h.erase a)

@[simp] theorem cells_empty (a : Addr) : (empty : Heap α).cells a = none := rfl

@[simp] theorem cells_set (h : Heap α) (a b : Addr) (v : α) :
    (h.set a v).cells b = if b = a then some v else h.cells b := rfl

theorem cells_set_self (h : Heap α) (a : Addr) (v : α) : (h.set a v).cells a = some v :=
  if_pos rfl

theorem cells_set_ne (h : Heap α) {a b : Addr} (hne : b ≠ a) (v : α) :
    (h.set a v).cells b = h.cells b := if_neg hne

@[simp] theorem cells_erase (h : Heap α) (a b : Addr) :
    (h.erase a).cells b = if b = a then none else h.cells b := rfl

theorem cells_erase_self (h : Heap α) (a : Addr) : (h.erase a).cells a = none := if_pos rfl

theorem cells_erase_ne (h : Heap α) {a b : Addr} (hne : b ≠ a) :
    (h.erase a).cells b = h.cells b := if_neg hne

@[simp] theorem bound_erase (h : Heap α) (a : Addr) : (h.erase a).bound = h.bound := rfl

theorem bound_le_bound_set (h : Heap α) (a : Addr) (v : α) :
    h.bound ≤ (h.set a v).bound := Nat.le_max_left _ _

theorem lt_bound_of_cell {h : Heap α} {a : Addr} {v : α} (hv : h.cells a = some v) :
    a < h.bound := by
  by_contra hge
  simp [h.free_above a (Nat.le_of_not_lt hge)] at hv

theorem load_cell {h : Heap α} {a : Addr} {v : α} (hv : h.cells a = some v) :
    h.load (some a) = .ok v := by
  simp [load, hv]

theorem modify_cell {h : Heap α} {a : Addr} {v : α} (hv : h.cells a = some v)
    (f : α → α) : h.modify (some a) f = .ok (h.set a (f v)) := by
  simp [modify, hv]

theorem release_cell {h : Heap α} {a : Addr} {v : α} (hv : h.cells a = some v) :
    h.release (some a) = .ok (h.erase a) := by
  simp [release, hv]

/-- What succeeds goes through a pointer to a live cell. -/
theorem load_eq_ok {h : Heap α} {a : Addr} {v : α} :
    h.load (some a) = .ok v ↔ h.cells a = some v := by
  cases hc : h.cells a <;> simp [load, hc]

theorem modify_eq_ok {h h' : Heap α} {a : Addr} {f : α → α} :
    h.modify (some a) f = .ok h' ↔ ∃ v, h.cells a = some v ∧ h' = h.set a (f v) := by
  cases hc : h.cells a <;> simp [modify, hc, eq_comm]

theorem release_eq_ok {h h' : Heap α} {a : Addr} :
    h.release (some a) = .ok h' ↔ (∃ v, h.cells a = some v) ∧ h' = h.erase a := by
  cases hc : h.cells a <;> simp [release, hc, eq_comm]

/-- Distinct live addresses are at most as many as the heap's bound, so a
traversal without a repeated cell fits into `bound` steps. -/
theorem length_le_bound_of_nodup {h : Heap α} {l : List Addr} (hnd : l.Nodup)
    (hlive : ∀ a ∈ l, (h.cells a).isSome) : l.length ≤ h.bound := by
  have hsub : l.toFinset ⊆ Finset.range h.bound := by
    intro a ha
    obtain ⟨v, hv⟩ := Option.isSome_iff_exists.mp (hlive a (List.mem_toFinset.mp ha))
    exact Finset.mem_range.mpr (lt_bound_of_cell hv)
  calc l.length = l.toFinset.card := (List.toFinset_card_of_nodup hnd).symm
    _ ≤ (Finset.range h.bound).card := Finset.card_le_card hsub
    _ = h.bound := Finset.card_range _

end Heap

end PtrHeap
