import Mathlib.Data.List.Basic
import Mathlib.Tactic.Ring

/-!
# Numbers in little-endian byte order

A number is written as a fixed count of bytes, the least significant one first.
`leValue` reads back what `leBytes` wrote, up to the bytes that did not fit
(`leValue_leBytes`).  A sequence of words of one width is their bytes one after
the other, and is read back word by word (`words_flatMap`).
-/

namespace LittleEndian

/-- The `w` least significant bytes of a number. -/
def leBytes : Nat → Nat → List UInt8
  | 0, _ => []
  | w + 1, n => UInt8.ofNat n :: leBytes w (n / 256)

/-- The number that bytes stand for. -/
def leValue : List UInt8 → Nat
  | [] => 0
  | b :: bs => b.toNat + 256 * leValue bs

@[simp] theorem length_leBytes (w n : Nat) : (leBytes w n).length = w := by
  induction w generalizing n with
  | zero => rfl
  | succ w ih => simp [leBytes, ih]

/-- **Reading back a number** gives what fits into its bytes. -/
theorem leValue_leBytes (w n : Nat) : leValue (leBytes w n) = n % 256 ^ w := by
  induction w generalizing n with
  | zero => simp [leBytes, leValue, Nat.mod_one]
  | succ w ih =>
      have hbyte : (UInt8.ofNat n).toNat = n % 256 := UInt8.toNat_ofNat'
      rw [leBytes, leValue, ih, hbyte, Nat.pow_succ, Nat.mul_comm, Nat.mul_comm (256 ^ w) 256,
        Nat.mod_mul, Nat.mul_comm]

theorem leValue_lt (bs : List UInt8) : leValue bs < 256 ^ bs.length := by
  induction bs with
  | nil => exact Nat.one_pos
  | cons b bs ih =>
      have hb : b.toNat < 256 := b.toNat_lt
      rw [leValue, List.length_cons, Nat.pow_succ]
      omega

/-- **Writing a number** gives the bytes that stand for it. -/
theorem leBytes_leValue (bs : List UInt8) : leBytes bs.length (leValue bs) = bs := by
  induction bs with
  | nil => rfl
  | cons b bs ih =>
      have hb : b.toNat < 256 := b.toNat_lt
      have hlow : UInt8.ofNat (b.toNat + 256 * leValue bs) = b := by
        apply UInt8.toNat_inj.mp
        rw [UInt8.toNat_ofNat']
        omega
      have hhigh : (b.toNat + 256 * leValue bs) / 256 = leValue bs := by omega
      rw [List.length_cons, leBytes, leValue, hlow, hhigh, ih]

/-- The first `count` words of a buffer, each of them `w` bytes. -/
def words (w : Nat) : Nat → List UInt8 → List (List UInt8)
  | 0, _ => []
  | count + 1, bs => bs.take w :: words w count (bs.drop w)

/-- **Reading back words** of one width, whatever follows them. -/
theorem words_flatMap {α : Type} {w : Nat} {f : α → List UInt8} (hf : ∀ a, (f a).length = w)
    (xs : List α) (rest : List UInt8) : words w xs.length (xs.flatMap f ++ rest) = xs.map f := by
  induction xs with
  | nil => rfl
  | cons x xs ih =>
      have hsplit : (x :: xs).flatMap f ++ rest = f x ++ (xs.flatMap f ++ rest) := by simp
      rw [List.length_cons, words, hsplit, List.take_left' (hf x), List.drop_left' (hf x), ih,
        List.map_cons]

@[simp] theorem length_words (w count : Nat) (bs : List UInt8) :
    (words w count bs).length = count := by
  induction count generalizing bs with
  | zero => rfl
  | succ count ih => rw [words, List.length_cons, ih]

/-- The words of a buffer that is long enough have their width. -/
theorem length_of_mem_words {w count : Nat} {bs : List UInt8} (h : count * w ≤ bs.length) :
    ∀ x ∈ words w count bs, x.length = w := by
  induction count generalizing bs with
  | zero => simp [words]
  | succ count ih =>
      rw [Nat.succ_mul] at h
      intro x hx
      rcases List.mem_cons.mp hx with rfl | hx
      · rw [List.length_take]
        omega
      · apply ih _ x hx
        rw [List.length_drop]
        omega

/-- The words of a buffer are its first bytes. -/
theorem flatten_words (w count : Nat) (bs : List UInt8) :
    (words w count bs).flatten = bs.take (count * w) := by
  induction count generalizing bs with
  | zero => simp [words]
  | succ count ih =>
      rw [words, List.flatten_cons, ih, Nat.succ_mul, Nat.add_comm, List.take_add]

theorem length_flatMap_words {α : Type} {w : Nat} {f : α → List UInt8}
    (hf : ∀ a, (f a).length = w) (xs : List α) : (xs.flatMap f).length = xs.length * w := by
  induction xs with
  | nil => simp
  | cons x xs ih =>
      rw [List.flatMap_cons, List.length_append, hf, ih, List.length_cons]
      ring

end LittleEndian
