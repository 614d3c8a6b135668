import Mathlib.Data.List.Basic

/-!
# Cyclic redundancy checks bit by bit

A register of `w` bits takes one bit of the message after the other.  It moves up by one place, and
when the bit that falls out differs from the bit that comes in, the polynomial is taken off it.
Everything is linear in exclusive or, and this is why eight such steps can be read from a table of
256 entries (`byte_step`), also when bits go through the register the other way round
(`reflected_step`).
-/

namespace BitCrc

variable {w : Nat}

/-- One bit into the register. -/
def shiftIn (poly register : BitVec w) (bit : Bool) : BitVec w :=
  if register.msb ^^ bit then (register <<< 1) ^^^ poly else register <<< 1

/-- The first bits of a register, the highest first. -/
def top (n : Nat) (register : BitVec w) : List Bool := (List.range n).map register.getMsbD

/-- The bits of a byte, the highest first. -/
def bits (byte : BitVec 8) : List Bool := top 8 byte

/-- What a check is documented by. -/
structure Parameters (w : Nat) where
  poly : BitVec w
  reflectInput : Bool
  reflectResult : Bool
  initial : BitVec w
  finalXor : BitVec w
  deriving DecidableEq, Repr

namespace Parameters

/-- A byte into the register, bit by bit. -/
def shiftByte (p : Parameters w) (register : BitVec w) (byte : BitVec 8) : BitVec w :=
  (bits (if p.reflectInput then byte.reverse else byte)).foldl (shiftIn p.poly) register

/-- The register after a message. -/
def register (p : Parameters w) (data : List (BitVec 8)) : BitVec w :=
  data.foldl p.shiftByte p.initial

/-- The checksum of a message. -/
def checksum (p : Parameters w) (data : List (BitVec 8)) : BitVec w :=
  (if p.reflectResult then (p.register data).reverse else p.register data) ^^^ p.finalXor

end Parameters

/-! ## Linearity -/

section Linear

variable (poly a b : BitVec w)

theorem shiftIn_xor (x y : Bool) :
    shiftIn poly (a ^^^ b) (x ^^ y) = shiftIn poly a x ^^^ shiftIn poly b y := by
  have hcancel : ∀ p q r : BitVec w, (p ^^^ r) ^^^ (q ^^^ r) = p ^^^ q := by
    intro p q r
    rw [BitVec.xor_assoc, BitVec.xor_comm q r, ← BitVec.xor_assoc r r q, BitVec.xor_self,
      BitVec.zero_xor]
  have hbit : ((a ^^^ b).msb ^^ (x ^^ y)) = ((a.msb ^^ x) ^^ (b.msb ^^ y)) := by
    rw [BitVec.msb_xor]
    cases a.msb <;> cases b.msb <;> cases x <;> cases y <;> rfl
  unfold shiftIn
  rw [hbit, BitVec.shiftLeft_xor_distrib]
  cases a.msb ^^ x <;> cases b.msb ^^ y
  · rfl
  · exact BitVec.xor_assoc _ _ _
  · show (a <<< 1 ^^^ b <<< 1) ^^^ poly = (a <<< 1 ^^^ poly) ^^^ b <<< 1
    rw [BitVec.xor_assoc, BitVec.xor_comm (b <<< 1), BitVec.xor_assoc]
  · exact (hcancel _ _ _).symm

/-- What was in the register before a sequence of bits goes through it on its own. -/
theorem foldl_shiftIn_xor (bs : List Bool) :
    bs.foldl (shiftIn poly) (a ^^^ b) =
      bs.foldl (shiftIn poly) a ^^^ (List.replicate bs.length false).foldl (shiftIn poly) b := by
  induction bs generalizing a b with
  | nil => rfl
  | cons bit bs ih =>
      have hstep := shiftIn_xor poly a b bit false
      rw [Bool.xor_false] at hstep
      rw [List.foldl_cons, hstep, ih, List.length_cons, List.replicate_succ, List.foldl_cons,
        List.foldl_cons]

theorem shiftIn_split (bit : Bool) :
    shiftIn poly a bit = (a <<< 1) ^^^ shiftIn poly 0#w (a.msb ^^ bit) := by
  unfold shiftIn
  cases a.msb ^^ bit <;> simp

theorem top_succ (n : Nat) : top (n + 1) a = a.msb :: top n (a <<< 1) := by
  rw [top, List.range_succ_eq_map, List.map_cons, List.map_map, BitVec.msb_eq_getMsbD_zero, top]
  congr 1
  apply List.map_congr_left
  intro i _
  rw [Function.comp_apply, BitVec.getMsbD_shiftLeft]

/-- A sequence of bits meets the bits that fall out at the top, and the rest moves up. -/
theorem foldl_shiftIn (bs : List Bool) :
    bs.foldl (shiftIn poly) a =
      (a <<< bs.length) ^^^
        (List.zipWith xor (top bs.length a) bs).foldl (shiftIn poly) 0#w := by
  induction bs generalizing a with
  | nil => simp
  | cons bit bs ih =>
      have hmeet : (List.zipWith xor (top bs.length (a <<< 1)) bs).length = bs.length := by
        simp [top]
      have hrest := foldl_shiftIn_xor poly 0#w (shiftIn poly 0#w (a.msb ^^ bit))
        (List.zipWith xor (top bs.length (a <<< 1)) bs)
      rw [BitVec.zero_xor, hmeet] at hrest
      rw [List.foldl_cons, shiftIn_split, foldl_shiftIn_xor, ih, List.length_cons, top_succ,
        List.zipWith_cons_cons, List.foldl_cons, hrest, Nat.add_comm bs.length 1,
        BitVec.shiftLeft_add, BitVec.xor_assoc]

end Linear

/-! ## Tables -/

/-- The entry of the table: a byte through an empty register. -/
def tableEntry (poly : BitVec w) (index : BitVec 8) : BitVec w :=
  (bits index).foldl (shiftIn poly) 0#w

/-- The highest byte of a register. -/
def topByte (register : BitVec w) : BitVec 8 := (register >>> (w - 8)).setWidth 8

theorem zipWith_bits (a b : BitVec 8) : List.zipWith xor (bits a) (bits b) = bits (a ^^^ b) := by
  unfold bits top
  rw [List.zipWith_map, List.zipWith_self]
  apply List.map_congr_left
  intro i _
  rw [BitVec.getMsbD_xor]

theorem bits_topByte (hw : 8 ≤ w) (register : BitVec w) :
    bits (topByte register) = top 8 register := by
  unfold bits top topByte
  apply List.map_congr_left
  intro i hi
  rw [List.mem_range] at hi
  rw [BitVec.getMsbD_eq_getLsbD, BitVec.getMsbD_eq_getLsbD, BitVec.getLsbD_setWidth,
    BitVec.getLsbD_ushiftRight]
  have hindex : w - 8 + (8 - 1 - i) = w - 1 - i := by
    omega
  have hlow : 8 - 1 - i < 8 := by
    omega
  have hwide : i < w := Nat.lt_of_lt_of_le hi hw
  simp only [hindex, hlow, hi, hwide, decide_true, Bool.true_and]

/-- A byte into the register by means of the table. -/
def tableStep (poly register : BitVec w) (byte : BitVec 8) : BitVec w :=
  (register <<< 8) ^^^ tableEntry poly (topByte register ^^^ byte)

/-- **Eight steps at once.**  The highest byte of the register and the byte of the message select
the entry. -/
theorem byte_step (hw : 8 ≤ w) (poly register : BitVec w) (byte : BitVec 8) :
    (bits byte).foldl (shiftIn poly) register = tableStep poly register byte := by
  have hlength : (bits byte).length = 8 := rfl
  rw [foldl_shiftIn, hlength, ← bits_topByte hw, zipWith_bits, tableStep, tableEntry]

/-! ## Reflection -/

theorem reverse_xor (a b : BitVec w) : (a ^^^ b).reverse = a.reverse ^^^ b.reverse := by
  apply BitVec.eq_of_getLsbD_eq
  intro i _
  simp only [BitVec.getLsbD_reverse, BitVec.getLsbD_xor, BitVec.getMsbD_xor]

theorem reverse_shiftLeft (a : BitVec w) (n : Nat) : (a <<< n).reverse = a.reverse >>> n := by
  apply BitVec.eq_of_getLsbD_eq
  intro i _
  rw [BitVec.getLsbD_reverse, BitVec.getMsbD_shiftLeft, BitVec.getLsbD_ushiftRight,
    BitVec.getLsbD_reverse, Nat.add_comm]

theorem topByte_reverse (hw : 8 ≤ w) (a : BitVec w) :
    (topByte a).reverse = a.reverse.setWidth 8 := by
  apply BitVec.eq_of_getLsbD_eq
  intro i hi
  rw [BitVec.getLsbD_reverse, BitVec.getLsbD_setWidth, BitVec.getLsbD_reverse]
  have hbit := congrArg (fun l => l.getD i false) (bits_topByte hw a)
  simpa [bits, top, hi] using hbit

/-- The entry of the table of a check whose bits come the other way round. -/
def reflectedEntry (poly : BitVec w) (index : BitVec 8) : BitVec w :=
  (tableEntry poly index.reverse).reverse

/-- One bit into a register that is kept reflected. -/
def shiftOut (poly register : BitVec w) (bit : Bool) : BitVec w :=
  if register.getLsbD 0 ^^ bit then (register >>> 1) ^^^ poly else register >>> 1

theorem reverse_shiftIn (poly register : BitVec w) (bit : Bool) :
    (shiftIn poly register bit).reverse = shiftOut poly.reverse register.reverse bit := by
  unfold shiftIn shiftOut
  rw [BitVec.getLsbD_reverse, BitVec.msb_eq_getMsbD_zero]
  split
  · rw [reverse_xor, reverse_shiftLeft]
  · rw [reverse_shiftLeft]

theorem reverse_foldl_shiftIn (poly register : BitVec w) (bs : List Bool) :
    (bs.foldl (shiftIn poly) register).reverse =
      bs.foldl (shiftOut poly.reverse) register.reverse := by
  induction bs generalizing register with
  | nil => rfl
  | cons bit bs ih => rw [List.foldl_cons, List.foldl_cons, ih, reverse_shiftIn]

/-- The entry, from the reflected polynomial and the bits of the index from the lowest on. -/
theorem reflectedEntry_eq (poly : BitVec w) (index : BitVec 8) :
    reflectedEntry poly index =
      ((List.range 8).map index.getLsbD).foldl (shiftOut poly.reverse) 0#w := by
  have hbits : bits index.reverse = (List.range 8).map index.getLsbD := by
    unfold bits top
    apply List.map_congr_left
    intro i _
    exact BitVec.getMsbD_reverse
  rw [reflectedEntry, tableEntry, reverse_foldl_shiftIn, hbits, BitVec.reverse_eq_zero_iff.mpr rfl]

/-- A byte into a register that is kept reflected. -/
def reflectedStep (poly register : BitVec w) (byte : BitVec 8) : BitVec w :=
  (register >>> 8) ^^^ reflectedEntry poly (register.setWidth 8 ^^^ byte)

/-- **Eight reflected steps at once.**  The register is kept reflected, so that its lowest byte and
the byte of the message as it is select the entry. -/
theorem reflected_step (hw : 8 ≤ w) (poly register : BitVec w) (byte : BitVec 8) :
    ((bits byte.reverse).foldl (shiftIn poly) register).reverse =
      reflectedStep poly register.reverse byte := by
  rw [byte_step hw, tableStep, reverse_xor, reverse_shiftLeft, reflectedStep, reflectedEntry,
    reverse_xor, ← topByte_reverse hw, BitVec.reverse_reverse_eq]

/-! ## Whole messages -/

namespace Parameters

variable (p : Parameters w) (data : List (BitVec 8))

/-- A loop with a table computes a check without reflection. -/
theorem checksum_direct (hw : 8 ≤ w) (hinput : p.reflectInput = false)
    (hresult : p.reflectResult = false) :
    p.checksum data = data.foldl (tableStep p.poly) p.initial ^^^ p.finalXor := by
  have hbyte : p.shiftByte = tableStep p.poly := by
    funext r byte
    rw [shiftByte, hinput, if_neg Bool.false_ne_true, byte_step hw]
  rw [checksum, hresult, if_neg Bool.false_ne_true, register, hbyte]

theorem reverse_foldl (hw : 8 ≤ w) (hinput : p.reflectInput = true) (r : BitVec w) :
    (data.foldl p.shiftByte r).reverse = data.foldl (reflectedStep p.poly) r.reverse := by
  induction data generalizing r with
  | nil => rfl
  | cons byte data ih =>
      rw [List.foldl_cons, List.foldl_cons, ih, shiftByte, if_pos hinput, reflected_step hw]

/-- A loop with a reflected table computes a check with reflection. -/
theorem checksum_reflected (hw : 8 ≤ w) (hinput : p.reflectInput = true)
    (hresult : p.reflectResult = true) :
    p.checksum data = data.foldl (reflectedStep p.poly) p.initial.reverse ^^^ p.finalXor := by
  rw [checksum, if_pos hresult, register, reverse_foldl p data hw hinput]

end Parameters

end BitCrc
