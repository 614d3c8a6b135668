import Mathlib.Data.List.Induction
import Mathlib.Tactic.Ring
import Mathlib.Tactic.NormNum

/-!
# CBOR

The heads of CBOR data items: a major type, and an argument in one of five widths or none.

* `encodeHead` writes an argument in its shortest form.
* `readHead` reads an argument of any width.  It asks for more bytes only as long as the head is
  not complete (`readHead_append`), and it reads back what `encodeHead` wrote
  (`readHead_encodeHead`).
-/

namespace Cbor

/-! ## Numbers -/

/-- The number that bytes stand for, the most significant one first. -/
def beNat (l : List UInt8) : Nat := l.foldl (fun n b => 256 * n + b.toNat) 0

/-- The lowest bytes of a number, the most significant one first. -/
def toBytes : Nat → Nat → List UInt8
  | 0, _ => []
  | k + 1, n => toBytes k (n / 256) ++ [UInt8.ofNat n]

@[simp] theorem length_toBytes (k n : Nat) : (toBytes k n).length = k := by
  induction k generalizing n with
  | zero => rfl
  | succ k ih => simp [toBytes, ih]

theorem beNat_append_singleton (l : List UInt8) (b : UInt8) :
    beNat (l ++ [b]) = 256 * beNat l + b.toNat := by
  simp [beNat]

theorem beNat_toBytes {k n : Nat} (h : n < 256 ^ k) : beNat (toBytes k n) = n := by
  induction k generalizing n with
  | zero =>
      have hn : n = 0 := by simpa using h
      simp [toBytes, beNat, hn]
  | succ k ih =>
      have hdiv : n / 256 < 256 ^ k := by
        rw [Nat.div_lt_iff_lt_mul (by decide), ← Nat.pow_succ]
        exact h
      rw [toBytes, beNat_append_singleton, ih hdiv]
      have hbyte : (UInt8.ofNat n).toNat = n % 256 := by simp
      rw [hbyte]
      exact Nat.div_add_mod n 256

/-! ## Heads -/

/-- The major types. -/
inductive Kind where
  | uint
  | negative
  | bytes
  | text
  | array
  | map
  | tag
  | simple
  deriving DecidableEq, Repr

/-- The number of a major type. -/
def Kind.major : Kind → Nat
  | .uint => 0
  | .negative => 1
  | .bytes => 2
  | .text => 3
  | .array => 4
  | .map => 5
  | .tag => 6
  | .simple => 7

/-- The major type with a number. -/
def Kind.ofMajor : Nat → Kind
  | 0 => .uint
  | 1 => .negative
  | 2 => .bytes
  | 3 => .text
  | 4 => .array
  | 5 => .map
  | 6 => .tag
  | _ => .simple

@[simp] theorem Kind.ofMajor_major (k : Kind) : Kind.ofMajor k.major = k := by
  cases k <;> rfl

theorem Kind.major_lt (k : Kind) : k.major < 8 := by
  cases k <;> decide

/-- Whether items of this type may have an indefinite length. -/
def Kind.indefinite : Kind → Bool
  | .bytes | .text | .array | .map => true
  | _ => false

/-- A head: its argument, unless its length is indefinite, and the number of its bytes. -/
structure Head where
  kind : Kind
  arg : Option Nat
  size : Nat
  deriving DecidableEq, Repr

/-- What stands at the front of some bytes. -/
inductive Front where
  /-- not enough bytes for a head -/
  | short
  | malformed
  | stop
  | head (h : Head)
  deriving DecidableEq, Repr

/-- The front of some bytes. -/
def readHead : List UInt8 → Front
  | [] => .short
  | b :: rest =>
      let kind := Kind.ofMajor (b.toNat / 32)
      let info := b.toNat % 32
      if info < 24 then .head ⟨kind, some info, 1⟩
      else if info < 28 then
        let width := 2 ^ (info - 24)
        if rest.length < width then .short
        else if kind = .simple ∧ width = 1 ∧ beNat (rest.take width) < 32 then .malformed
        else .head ⟨kind, some (beNat (rest.take width)), 1 + width⟩
      else if info < 31 then .malformed
      else if kind.indefinite then .head ⟨kind, none, 1⟩
      else if kind = .simple then .stop
      else .malformed

/-- The shortest head with an argument below `2 ^ 64`. -/
def encodeHead (k : Kind) (n : Nat) : List UInt8 :=
  if n < 24 then [UInt8.ofNat (32 * k.major + n)]
  else if n < 2 ^ 8 then UInt8.ofNat (32 * k.major + 24) :: toBytes 1 n
  else if n < 2 ^ 16 then UInt8.ofNat (32 * k.major + 25) :: toBytes 2 n
  else if n < 2 ^ 32 then UInt8.ofNat (32 * k.major + 26) :: toBytes 4 n
  else UInt8.ofNat (32 * k.major + 27) :: toBytes 8 n

theorem length_encodeHead (k : Kind) (n : Nat) : (encodeHead k n).length =
    if n < 24 then 1 else if n < 2 ^ 8 then 2 else if n < 2 ^ 16 then 3
    else if n < 2 ^ 32 then 5 else 9 := by
  unfold encodeHead
  split_ifs <;> simp

/-- **More bytes do not change a complete head.** -/
theorem readHead_append {l : List UInt8} (h : readHead l ≠ .short) (r : List UInt8) :
    readHead (l ++ r) = readHead l := by
  cases l with
  | nil => exact absurd rfl h
  | cons b rest =>
      rw [List.cons_append]
      unfold readHead at h ⊢
      dsimp only at h ⊢
      split
      · rfl
      · next hinfo =>
        rw [if_neg hinfo] at h
        split
        · next hwide =>
          rw [if_pos hwide] at h
          have hlen : ¬ rest.length < 2 ^ (b.toNat % 32 - 24) := by
            intro hlt
            rw [if_pos hlt] at h
            exact h rfl
          have hlen' : ¬ (rest ++ r).length < 2 ^ (b.toNat % 32 - 24) := by
            rw [List.length_append]
            omega
          rw [if_neg hlen, if_neg hlen', List.take_append_of_le_length (by omega)]
        · rfl

/-- A head is not empty, and not longer than the bytes it was read from. -/
theorem readHead_size {l : List UInt8} {h : Head} (hl : readHead l = .head h) :
    1 ≤ h.size ∧ h.size ≤ l.length := by
  cases l with
  | nil => cases hl
  | cons b rest =>
      unfold readHead at hl
      dsimp only at hl
      split_ifs at hl with h₁ h₂ h₃ h₄ h₅ h₆ h₇
      · obtain rfl := Front.head.inj hl
        simp
      · obtain rfl := Front.head.inj hl
        have hle := Nat.not_lt.mp h₃
        simp only [List.length_cons]
        exact ⟨Nat.le_add_right _ _, by omega⟩
      · obtain rfl := Front.head.inj hl
        simp

/-- **What is written is read back.** -/
theorem readHead_encodeHead {k : Kind} {n : Nat} (hk : k ≠ .simple) (hn : n < 2 ^ 64)
    (r : List UInt8) :
    readHead (encodeHead k n ++ r) = .head ⟨k, some n, (encodeHead k n).length⟩ := by
  have hmajor := k.major_lt
  have hfirst : ∀ i, i < 32 → (UInt8.ofNat (32 * k.major + i)).toNat = 32 * k.major + i := by
    intro i hi
    rw [UInt8.toNat_ofNat']
    omega
  have hkind : ∀ i, i < 32 → Kind.ofMajor ((32 * k.major + i) / 32) = k := by
    intro i hi
    rw [show (32 * k.major + i) / 32 = k.major by omega, Kind.ofMajor_major]
  -- a head with an argument of the given width
  have hwide : ∀ e, e < 4 → n < 256 ^ 2 ^ e →
      readHead (UInt8.ofNat (32 * k.major + (24 + e)) :: toBytes (2 ^ e) n ++ r) =
        .head ⟨k, some n, 1 + 2 ^ e⟩ := by
    intro e he hlt
    rw [List.cons_append]
    unfold readHead
    dsimp only
    rw [hfirst _ (by omega), hkind _ (by omega),
      show (32 * k.major + (24 + e)) % 32 = 24 + e by omega, if_neg (by omega), if_pos (by omega),
      show 24 + e - 24 = e by omega, if_neg (by simp), if_neg (fun h => hk h.1),
      List.take_left' (length_toBytes _ _), beNat_toBytes hlt]
  unfold encodeHead
  split_ifs with h₁ h₂ h₃ h₄
  · rw [List.singleton_append]
    unfold readHead
    dsimp only
    rw [hfirst _ (by omega), hkind _ (by omega), show (32 * k.major + n) % 32 = n by omega,
      if_pos h₁]
    rfl
  · exact hwide 0 (by omega) (by norm_num; omega)
  · exact hwide 1 (by omega) (by norm_num; omega)
  · exact hwide 2 (by omega) (by norm_num; omega)
  · exact hwide 3 (by omega) (by norm_num; omega)

end Cbor
