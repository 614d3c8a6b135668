import Mathlib.Data.List.Basic
import Mathlib.Data.Nat.ModEq

/-!
# A window in a ring of cells

Cells of equal size lie one after the other in a list (`cell`), and a copy of one cell changes no
other (`cell_write_of_ne`).  A list of items lies in a window of a ring of such cells: from a
start on, and at the end of the ring again from its beginning (`Window`).  Items can be taken from
the front of the window, appended while a cell is free, and replaced at the back, wherever the
window lies.
-/

namespace RingWindow

universe u

variable {α : Type u}

/-! ## Cells -/

/-- Cell number `i` of cells of `size` elements. -/
def cell (size : Nat) (xs : List α) (i : Nat) : List α := (xs.drop (i * size)).take size

/-- A copy of `ys` to position `at`. -/
def write (xs : List α) (pos : Nat) (ys : List α) : List α :=
  xs.take pos ++ ys ++ xs.drop (pos + ys.length)

theorem length_write {xs ys : List α} {pos : Nat} (h : pos + ys.length ≤ xs.length) :
    (write xs pos ys).length = xs.length := by
  simp only [write, List.length_append, List.length_take, List.length_drop]
  omega

theorem cell_write_same {size i : Nat} {xs ys : List α} (hsize : ys.length = size)
    (h : i * size ≤ xs.length) : cell size (write xs (i * size) ys) i = ys := by
  have htake : (xs.take (i * size)).length = i * size := by
    rw [List.length_take]
    omega
  rw [cell, write, List.append_assoc, List.drop_append_of_le_length (by omega),
    List.drop_eq_nil_of_le (by omega), List.nil_append, List.take_append_of_le_length (by omega),
    List.take_of_length_le (by omega)]

theorem getElem?_cell {size i k : Nat} {xs : List α} :
    (cell size xs i)[k]? = if k < size then xs[i * size + k]? else none := by
  rw [cell, List.getElem?_take, List.getElem?_drop]

theorem getElem?_write {xs ys : List α} {pos k : Nat} (h : pos + ys.length ≤ xs.length)
    (hout : k < pos ∨ pos + ys.length ≤ k) : (write xs pos ys)[k]? = xs[k]? := by
  have htake : (xs.take pos).length = pos := by
    rw [List.length_take]
    omega
  rcases hout with hbefore | hbehind
  · rw [write, List.append_assoc, List.getElem?_append_left (by omega), List.getElem?_take,
      if_pos hbefore]
  · rw [write, List.getElem?_append_right (by simp; omega), List.getElem?_drop]
    congr 1
    simp only [List.length_append, htake]
    omega

/-- A copy to one cell leaves the others. -/
theorem cell_write_of_ne {size i j : Nat} {xs ys : List α} (hsize : ys.length = size)
    (h : i * size + size ≤ xs.length) (hne : j ≠ i) :
    cell size (write xs (i * size) ys) j = cell size xs j := by
  apply List.ext_getElem?
  intro k
  rw [getElem?_cell, getElem?_cell]
  by_cases hk : k < size
  · rw [if_pos hk, if_pos hk]
    refine getElem?_write (by omega) ?_
    rcases Nat.lt_or_gt_of_ne hne with hlt | hgt
    · have hle : (j + 1) * size ≤ i * size := Nat.mul_le_mul_right _ hlt
      rw [Nat.succ_mul] at hle
      exact Or.inl (by omega)
    · have hle : (i + 1) * size ≤ j * size := Nat.mul_le_mul_right _ hgt
      rw [Nat.succ_mul] at hle
      exact Or.inr (by omega)
  · rw [if_neg hk, if_neg hk]

/-! ## The window -/

/-- The items lie in the cells from `start` on, around the end of a ring of `n` cells. -/
def Window (n : Nat) (cells : Nat → α) (start : Nat) (items : List α) : Prop :=
  ∀ (i : Nat) (h : i < items.length), cells ((start + i) % n) = items[i]

variable {n start : Nat} {cells : Nat → α} {items : List α}

theorem Window.nil : Window n cells start [] := fun _ h => absurd h (Nat.not_lt_zero _)

/-- The first item. -/
theorem Window.head {x : α} (h : Window n cells start (x :: items)) : cells (start % n) = x := by
  simpa using h 0 (Nat.succ_pos _)

/-- The first item taken, the window begins one cell later. -/
theorem Window.tail {x : α} (h : Window n cells start (x :: items)) :
    Window n cells (start + 1) items := by
  intro i hi
  have hitem := h (i + 1) (Nat.succ_lt_succ hi)
  rw [List.getElem_cons_succ] at hitem
  rw [← hitem]
  congr 2
  omega

/-- Where the window begins counts up to full turns. -/
theorem Window.congr {start' : Nat} (h : Window n cells start items)
    (hstart : start' % n = start % n) : Window n cells start' items := by
  intro i hi
  rw [← h i hi, Nat.add_mod, hstart, ← Nat.add_mod]

/-- The newest item taken away. -/
theorem Window.dropLast (h : Window n cells start items) :
    Window n cells start items.dropLast := by
  intro i hi
  rw [List.length_dropLast] at hi
  rw [List.getElem_dropLast]
  exact h i (by omega)

/-- Two places of a window that is not longer than the ring are different. -/
theorem mod_ne_of_lt {i j : Nat} (hij : i < j) (hj : j < n) :
    (start + i) % n ≠ (start + j) % n := by
  intro heq
  have hmod : i % n = j % n := Nat.ModEq.add_left_cancel' start heq
  rw [Nat.mod_eq_of_lt (by omega), Nat.mod_eq_of_lt hj] at hmod
  omega

/-- While a cell is free, the next item is written behind the last one. -/
theorem Window.append {x : α} {cells' : Nat → α} (h : Window n cells start items)
    (hfree : items.length < n) (hsame : cells' ((start + items.length) % n) = x)
    (hother : ∀ j, j < n → j ≠ (start + items.length) % n → cells' j = cells j) :
    Window n cells' start (items ++ [x]) := by
  intro i hi
  rw [List.length_append, List.length_singleton] at hi
  by_cases hlast : i = items.length
  · subst hlast
    simpa using hsame
  · have hold : i < items.length := by omega
    rw [hother _ (Nat.mod_lt _ (by omega)) (mod_ne_of_lt hold hfree), h i hold,
      List.getElem_append_left hold]

end RingWindow
