import Mathlib.Data.List.DropRight
import Mathlib.Data.List.Rotate

/-!
# Rings without a fill count

A ring is an array that is always full: a new value overwrites the oldest one.  Read from
the oldest value to the newest, its slots are a `window`, and a write drops the first
value of the window and appends the new one (`window_push`).

A ring that starts with one value in every slot therefore holds the last values of what
was written, preceded by as many copies of that value as are needed to fill it
(`window_pushes`).
-/

universe u

/-- Slots, and the index of the one that is written next. -/
structure RingBuffer (α : Type u) where
  slots : List α
  next : Nat
  inBounds : next < slots.length

namespace RingBuffer

variable {α : Type u}

/-- A ring with one value in every slot. -/
def filled (fill : α) (size : Nat) (h : 0 < size) : RingBuffer α where
  slots := List.replicate size fill
  next := 0
  inBounds := by rwa [List.length_replicate]

/-- The next slot is written. -/
def push (r : RingBuffer α) (x : α) : RingBuffer α where
  slots := r.slots.set r.next x
  next := (r.next + 1) % r.slots.length
  inBounds := by
    rw [List.length_set]
    exact Nat.mod_lt _ (Nat.lt_of_le_of_lt (Nat.zero_le _) r.inBounds)

/-- The slots from the oldest value to the newest. -/
def window (r : RingBuffer α) : List α := r.slots.rotate r.next

theorem mem_window {r : RingBuffer α} {x : α} : x ∈ r.window ↔ x ∈ r.slots := List.mem_rotate

@[simp] theorem window_filled (fill : α) (size : Nat) (h : 0 < size) :
    (filled fill size h).window = List.replicate size fill := List.rotate_replicate _ _ _

/-- **A write** drops the oldest value and appends the new one. -/
theorem window_push (r : RingBuffer α) (x : α) : (r.push x).window = r.window.tail ++ [x] := by
  obtain ⟨slots, next, inBounds⟩ := r
  obtain ⟨before, y, after, rfl, rfl⟩ :
      ∃ before y after, slots = before ++ y :: after ∧ next = before.length := by
    refine ⟨slots.take next, slots[next], slots.drop (next + 1), ?_, ?_⟩
    · rw [List.getElem_cons_drop, List.take_append_drop]
    · rw [List.length_take, Nat.min_eq_left (Nat.le_of_lt inBounds)]
  have hwritten : (before ++ y :: after).set before.length x = before ++ [x] ++ after := by
    simp
  have hlen : (before ++ y :: after).length = (before ++ [x] ++ after).length := by simp
  have hnext : before.length + 1 = (before ++ [x]).length := by simp
  have hold : (before ++ y :: after).rotate before.length = y :: after ++ before :=
    List.rotate_append_length_eq before (y :: after)
  have hnew : (before ++ [x] ++ after).rotate (before ++ [x]).length = after ++ (before ++ [x]) :=
    List.rotate_append_length_eq (before ++ [x]) after
  unfold window push
  dsimp only
  rw [hwritten, hlen, List.rotate_mod, hnext, hnew, hold]
  simp

/-- Several writes. -/
def pushes (r : RingBuffer α) (xs : List α) : RingBuffer α := xs.foldl push r

theorem pushes_concat (r : RingBuffer α) (xs : List α) (x : α) :
    r.pushes (xs ++ [x]) = (r.pushes xs).push x := List.foldl_concat ..

/-- **The values that were written last**, behind what the ring was filled with. -/
theorem window_pushes (fill : α) (size : Nat) (h : 0 < size) (xs : List α) :
    ((filled fill size h).pushes xs).window =
      (List.replicate size fill ++ xs).drop xs.length := by
  induction xs using List.reverseRecOn with
  | nil => simp [pushes]
  | append_singleton xs x ih =>
      have hlen : xs.length + 1 ≤ (List.replicate size fill ++ xs).length := by
        rw [List.length_append, List.length_replicate]
        omega
      rw [pushes_concat, window_push, ih, List.tail_drop, List.length_append,
        List.length_singleton, ← List.append_assoc, List.drop_append_of_le_length hlen]

/-- A full ring has forgotten what it was filled with. -/
theorem mem_pushes_of_full {fill : α} {size : Nat} {h : 0 < size} {xs : List α}
    (hfull : size ≤ xs.length) (x : α) :
    x ∈ ((filled fill size h).pushes xs).slots ↔ x ∈ xs.rtake size := by
  rw [← mem_window, window_pushes, List.drop_append, List.length_replicate,
    List.drop_of_length_le (by simpa using hfull), List.nil_append]
  rfl

/-- Until then, it holds both. -/
theorem mem_pushes_of_room {fill : α} {size : Nat} {h : 0 < size} {xs : List α}
    (hroom : xs.length < size) (x : α) :
    x ∈ ((filled fill size h).pushes xs).slots ↔ x = fill ∨ x ∈ xs := by
  have hcopies : size - xs.length ≠ 0 := by omega
  rw [← mem_window, window_pushes, List.drop_append_of_le_length (by simpa using hroom.le),
    List.mem_append, List.drop_replicate, List.mem_replicate]
  simp [hcopies]

end RingBuffer
