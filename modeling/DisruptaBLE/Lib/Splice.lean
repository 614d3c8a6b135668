import Mathlib.Data.List.Basic

/-!
# Writing a piece into a buffer

`splice l pos piece` is `l` with `piece` written over what stands from `pos` on.
`take_splice` says how the part of a buffer that agrees with another one grows by it.
-/

namespace Splice

universe u

variable {α : Type u} {l target piece : List α} {pos : Nat}

/-- `l` with a piece written at a position. -/
def splice (l : List α) (pos : Nat) (piece : List α) : List α :=
  l.take pos ++ piece ++ l.drop (pos + piece.length)

theorem length_splice (h : pos + piece.length ≤ l.length) :
    (splice l pos piece).length = l.length := by
  simp only [splice, List.length_append, List.length_take, List.length_drop]
  omega

/-- A buffer that agrees with another one up to `pos` agrees with it up to the end of a
piece of that one. -/
theorem take_splice (hagree : l.take pos = target.take pos) (hpos : pos ≤ l.length)
    (hpiece : piece = (target.drop pos).take piece.length) :
    (splice l pos piece).take (pos + piece.length) = target.take (pos + piece.length) := by
  have hlen : (l.take pos ++ piece).length = pos + piece.length := by simp [hpos]
  rw [splice, List.take_append_of_le_length (Nat.le_of_eq hlen.symm),
    List.take_of_length_le (Nat.le_of_eq hlen), List.take_add, hagree]
  rw [← hpiece]

end Splice
