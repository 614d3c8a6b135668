import Mathlib.Algebra.Group.Nat.Defs
import Mathlib.Data.List.Induction
import Mathlib.Data.Nat.Log

/-!
# Numbers to base 128

A number is written in groups of seven bits, the highest first, one group a byte; every byte but the
last has its eighth bit set.  `count` is the number of groups that it takes at least.
-/

namespace Base128

/-- The groups that a number takes. -/
def count (v : Nat) : Nat := v.log2 / 7 + 1

/-- The lowest group of a number, and some above it. -/
def groups : Nat → Nat → List UInt8
  | 0, v => [UInt8.ofNat (v % 128)]
  | n + 1, v => UInt8.ofNat (v / 128 ^ (n + 1) % 128 + 128) :: groups n v

/-- A number in its groups. -/
def bytes (v : Nat) : List UInt8 := groups (count v - 1) v

theorem count_pos (v : Nat) : 0 < count v := Nat.succ_pos _

/-- A number takes no more groups than it fits into. -/
theorem count_le_iff {v n : Nat} : count v ≤ n + 1 ↔ v < 128 ^ (n + 1) := by
  have hpow : (128 : Nat) ^ (n + 1) = 2 ^ (7 * (n + 1)) := by
    rw [Nat.pow_mul]
  rw [hpow]
  obtain rfl | hv := Nat.eq_zero_or_pos v
  · have hpos : 0 < 2 ^ (7 * (n + 1)) := Nat.two_pow_pos _
    simp [count, hpos]
  · rw [← Nat.log2_lt hv.ne', count]
    omega

theorem count_mono {v w : Nat} (h : v ≤ w) : count v ≤ count w := by
  obtain ⟨n, hn⟩ : ∃ n, count w = n + 1 := ⟨_, rfl⟩
  rw [hn]
  have hw : w < 128 ^ (n + 1) := count_le_iff.mp hn.le
  exact count_le_iff.mpr (Nat.lt_of_le_of_lt h hw)

theorem lt_pow_count (v : Nat) : v < 128 ^ count v := by
  obtain ⟨n, hn⟩ : ∃ n, count v = n + 1 := ⟨_, rfl⟩
  rw [hn]
  exact count_le_iff.mp hn.le

theorem count_eq {v n : Nat} (hupper : v < 128 ^ (n + 1)) (hlower : 128 ^ n ≤ v ∨ n = 0) :
    count v = n + 1 := by
  have hle : count v ≤ n + 1 := count_le_iff.mpr hupper
  have hpos := count_pos v
  cases n with
  | zero => omega
  | succ n =>
      have hnot : ¬ count v ≤ n + 1 := fun h => by
        have hlt : v < 128 ^ (n + 1) := count_le_iff.mp h
        omega
      omega

/-- A ladder of comparisons finds the number of digits: one rung of it. -/
theorem count_rung (n : Nat) {v bound rest : Nat} [Decidable (v < bound)]
    (hbound : bound = 128 ^ (n + 1)) (hlower : 128 ^ n ≤ v ∨ n = 0)
    (hrest : 128 ^ (n + 1) ≤ v → rest = count v) :
    (if v < bound then n + 1 else rest) = count v := by
  subst hbound
  split
  · next hupper => exact (count_eq hupper hlower).symm
  · next hover => exact hrest (Nat.le_of_not_lt hover)

@[simp] theorem length_groups (n v : Nat) : (groups n v).length = n + 1 := by
  induction n with
  | zero => rfl
  | succ n ih => rw [groups, List.length_cons, ih]

@[simp] theorem length_bytes (v : Nat) : (bytes v).length = count v := by
  have hpos := count_pos v
  rw [bytes, length_groups]
  omega

/-- The next group below the upper part of a number. -/
theorem div_group (v n : Nat) : v / 128 ^ (n + 1) * 128 + v / 128 ^ n % 128 = v / 128 ^ n := by
  rw [Nat.pow_succ, ← Nat.div_div_eq_div_mul]
  omega

theorem div_pow_count (v : Nat) : v / 128 ^ count v = 0 := Nat.div_eq_of_lt (lt_pow_count v)

/-! ## Any groups -/

/-- The number that some bytes form, whether or not it takes so many groups. -/
def number (bytes : List UInt8) : Nat := bytes.foldl (fun n b => n * 128 + b.toNat % 128) 0

theorem number_snoc (bytes : List UInt8) (b : UInt8) :
    number (bytes ++ [b]) = number bytes * 128 + b.toNat % 128 := by
  rw [number, List.foldl_append]
  rfl

theorem number_lt (bytes : List UInt8) : number bytes < 128 ^ bytes.length := by
  induction bytes using List.reverseRecOn with
  | nil => exact Nat.one_pos
  | append_singleton bytes b ih =>
      rw [number_snoc, List.length_append, List.length_singleton, Nat.pow_succ]
      omega

end Base128
