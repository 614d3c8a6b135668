import DisruptaBLE.Lib.Base128
import DisruptaBLE.Processor.Bundle
import Mathlib.Data.Nat.Bitwise

/-!
# Self-delimiting numeric values

`components/bundle6/sdnv.c`: numbers to base 128, written at once and read byte by byte.  The reader
refuses a byte that would not fit its type any more.

What a number is written as is read back into every type that holds it (`ReadsBits.reads_bytes`).
-/

namespace Bundle6

open BundleProcessor

/-- `enum sdnv_status`. -/
inductive SdnvStatus where
  | inProgress
  | done
  | error
  deriving DecidableEq, Repr

/-- `enum sdnv_error`. -/
inductive SdnvError where
  | none
  | overflow
  | alreadyDone
  deriving DecidableEq, Repr

/-- `struct sdnv_state`. -/
structure SdnvState where
  status : SdnvStatus
  error : SdnvError
  bytesParsed : Nat
  deriving DecidableEq, Repr

/-- `sdnv_reset`. -/
def sdnvReset : SdnvState := ⟨.inProgress, .none, 0⟩

/-! ## Reading -/

/-- `sdnv_validate_byte_u8` and its kin: the bytes that fit in any case, and what the next one still
fits to. -/
def sdnvValidateByte (fitting limit : Nat) (state : SdnvState) (value : Nat) : Bool :=
  state.bytesParsed < fitting || state.bytesParsed = fitting && value ≤ limit

def sdnvValidateByteU8 : SdnvState → Nat → Bool := sdnvValidateByte 1 0x1

def sdnvValidateByteU16 : SdnvState → Nat → Bool := sdnvValidateByte 2 0x1FF

def sdnvValidateByteU32 : SdnvState → Nat → Bool := sdnvValidateByte 4 0x1FFFFFF

def sdnvValidateByteU64 : SdnvState → Nat → Bool := sdnvValidateByte 9 0x1FFFFFFFFFFFFFF

/-- `sdnv_read_generic`, for a type of a number of bits. -/
def sdnvReadGeneric (bits : Nat) (validate : SdnvState → Nat → Bool) (state : SdnvState)
    (value : Nat) (byte : UInt8) : SdnvState × Nat :=
  if !validate state value then ({ state with error := .overflow, status := .error }, value)
  else if state.status = .done then
    ({ state with error := .alreadyDone, status := .error }, value)
  else
    let value := if state.bytesParsed = 0 then 0 else (value <<< 7) % 2 ^ bits
    ({ state with
        status := if byte &&& 0x80 = 0 then .done else state.status
        bytesParsed := state.bytesParsed + 1 },
      value ||| (byte &&& 0x7F).toNat)

/-- `sdnv_read_u8`. -/
def sdnvReadU8 (state : SdnvState) (value byte : UInt8) : SdnvState × UInt8 :=
  let (state, value) := sdnvReadGeneric 8 sdnvValidateByteU8 state value.toNat byte
  (state, UInt8.ofNat value)

/-- `sdnv_read_u16`. -/
def sdnvReadU16 (state : SdnvState) (value : UInt16) (byte : UInt8) : SdnvState × UInt16 :=
  let (state, value) := sdnvReadGeneric 16 sdnvValidateByteU16 state value.toNat byte
  (state, UInt16.ofNat value)

/-- `sdnv_read_u32`. -/
def sdnvReadU32 (state : SdnvState) (value : UInt32) (byte : UInt8) : SdnvState × UInt32 :=
  let (state, value) := sdnvReadGeneric 32 sdnvValidateByteU32 state value.toNat byte
  (state, UInt32.ofNat value)

/-- `sdnv_read_u64`. -/
def sdnvReadU64 (state : SdnvState) (value : UInt64) (byte : UInt8) : SdnvState × UInt64 :=
  let (state, value) := sdnvReadGeneric 64 sdnvValidateByteU64 state value.toNat byte
  (state, UInt64.ofNat value)

/-! ## Writing -/

/-- The loop of `sdnv_write_generic`, from the last byte to the first one. -/
def sdnvWriteLoop : Nat → Nat → List UInt8 → List UInt8
  | 0, _, written => written
  | n + 1, value, written =>
      sdnvWriteLoop n (value >>> 7) ((UInt8.ofNat (value &&& 0x7F) ||| 0x80) :: written)

/-- `sdnv_write_generic`; the last byte has no marker. -/
def sdnvWriteGeneric (sdnvBytes value : Nat) : List UInt8 :=
  sdnvWriteLoop (sdnvBytes - 1) (value >>> 7) [(UInt8.ofNat (value &&& 0x7F) ||| 0x80) &&& 0x7F]

/-- `sdnv_write_u16`. -/
def sdnvWriteU16 (value : UInt16) : List UInt8 :=
  sdnvWriteGeneric (sdnvGetSizeU16 value) value.toNat

/-- `sdnv_write_u32`. -/
def sdnvWriteU32 (value : UInt32) : List UInt8 :=
  sdnvWriteGeneric (sdnvGetSizeU32 value) value.toNat

/-- `sdnv_write_u64`. -/
def sdnvWriteU64 (value : UInt64) : List UInt8 :=
  sdnvWriteGeneric (sdnvGetSizeU64 value) value.toNat

/-! ## Sizes -/

/-- A mask of upper bits tests whether a number fits below them. -/
theorem and_mask_eq_zero {bits k v : Nat} (hk : k ≤ bits) (hv : v < 2 ^ bits) :
    v &&& (2 ^ bits - 2 ^ k) = 0 ↔ v < 2 ^ k := by
  obtain ⟨d, rfl⟩ := Nat.exists_eq_add_of_le hk
  have hmask : 2 ^ (k + d) - 2 ^ k = (2 ^ d - 1) <<< k := by
    rw [Nat.shiftLeft_eq, Nat.sub_mul, Nat.one_mul, Nat.pow_add, Nat.mul_comm]
  have hupper : v >>> k &&& (2 ^ d - 1) = v / 2 ^ k := by
    rw [Nat.and_two_pow_sub_one_eq_mod, Nat.shiftRight_eq_div_pow, Nat.mod_eq_of_lt]
    rw [Nat.div_lt_iff_lt_mul (Nat.two_pow_pos k), ← Nat.pow_add, Nat.add_comm]
    exact hv
  have hand : v &&& (2 ^ d - 1) <<< k = (v >>> k &&& (2 ^ d - 1)) <<< k := by
    apply Nat.eq_of_testBit_eq
    intro i
    simp only [Nat.testBit_and, Nat.testBit_shiftLeft, Nat.testBit_shiftRight]
    by_cases hi : k ≤ i
    · rw [Nat.add_sub_cancel' hi]
      grind
    · simp [hi]
  have hpos := Nat.two_pow_pos k
  rw [hmask, hand, hupper, Nat.shiftLeft_eq, Nat.mul_eq_zero, or_iff_left hpos.ne',
    Nat.div_eq_zero_iff]
  omega

theorem mask16 {value mask : UInt16} {k : Nat} (hk : k ≤ 16) (hmask : mask.toNat = 2 ^ 16 - 2 ^ k) :
    value &&& mask = 0 ↔ value.toNat < 2 ^ k := by
  rw [← UInt16.toNat_inj, UInt16.toNat_and, hmask]
  exact and_mask_eq_zero hk value.toNat_lt

theorem mask32 {value mask : UInt32} {k : Nat} (hk : k ≤ 32) (hmask : mask.toNat = 2 ^ 32 - 2 ^ k) :
    value &&& mask = 0 ↔ value.toNat < 2 ^ k := by
  rw [← UInt32.toNat_inj, UInt32.toNat_and, hmask]
  exact and_mask_eq_zero hk value.toNat_lt

theorem mask64 {value mask : UInt64} {k : Nat} (hk : k ≤ 64) (hmask : mask.toNat = 2 ^ 64 - 2 ^ k) :
    value &&& mask = 0 ↔ value.toNat < 2 ^ k := by
  rw [← UInt64.toNat_inj, UInt64.toNat_and, hmask]
  exact and_mask_eq_zero hk value.toNat_lt

theorem sdnvGetSizeU16_eq (value : UInt16) : sdnvGetSizeU16 value = Base128.count value.toNat := by
  have hlt := value.toNat_lt
  have h7 : value &&& 0xFF80 = 0 ↔ value.toNat < 2 ^ 7 := mask16 (by decide) rfl
  have h14 : value &&& 0xC000 = 0 ↔ value.toNat < 2 ^ 14 := mask16 (by decide) rfl
  simp only [sdnvGetSizeU16, h7, h14]
  refine Base128.count_rung 0 rfl (.inr rfl) fun h => ?_
  refine Base128.count_rung 1 rfl (.inl h) fun h => ?_
  exact (Base128.count_eq (by omega) (.inl h)).symm

theorem sdnvGetSizeU32_eq (value : UInt32) : sdnvGetSizeU32 value = Base128.count value.toNat := by
  have hlt := value.toNat_lt
  have h7 : value &&& 0xFFFFFF80 = 0 ↔ value.toNat < 2 ^ 7 := mask32 (by decide) rfl
  have h14 : value &&& 0xFFFFC000 = 0 ↔ value.toNat < 2 ^ 14 := mask32 (by decide) rfl
  have h21 : value &&& 0xFFE00000 = 0 ↔ value.toNat < 2 ^ 21 := mask32 (by decide) rfl
  have h28 : value &&& 0xF0000000 = 0 ↔ value.toNat < 2 ^ 28 := mask32 (by decide) rfl
  simp only [sdnvGetSizeU32, h7, h14, h21, h28]
  refine Base128.count_rung 0 rfl (.inr rfl) fun h => ?_
  refine Base128.count_rung 1 rfl (.inl h) fun h => ?_
  refine Base128.count_rung 2 rfl (.inl h) fun h => ?_
  refine Base128.count_rung 3 rfl (.inl h) fun h => ?_
  exact (Base128.count_eq (by omega) (.inl h)).symm

theorem sdnvGetSizeU64_eq (value : UInt64) : sdnvGetSizeU64 value = Base128.count value.toNat := by
  have hlt := value.toNat_lt
  have h7 : value &&& 0xFFFFFFFFFFFFFF80 = 0 ↔ value.toNat < 2 ^ 7 := mask64 (by decide) rfl
  have h14 : value &&& 0xFFFFFFFFFFFFC000 = 0 ↔ value.toNat < 2 ^ 14 := mask64 (by decide) rfl
  have h21 : value &&& 0xFFFFFFFFFFE00000 = 0 ↔ value.toNat < 2 ^ 21 := mask64 (by decide) rfl
  have h28 : value &&& 0xFFFFFFFFF0000000 = 0 ↔ value.toNat < 2 ^ 28 := mask64 (by decide) rfl
  have h35 : value &&& 0xFFFFFFF800000000 = 0 ↔ value.toNat < 2 ^ 35 := mask64 (by decide) rfl
  have h42 : value &&& 0xFFFFFC0000000000 = 0 ↔ value.toNat < 2 ^ 42 := mask64 (by decide) rfl
  have h49 : value &&& 0xFFFE000000000000 = 0 ↔ value.toNat < 2 ^ 49 := mask64 (by decide) rfl
  have h56 : value &&& 0xFF00000000000000 = 0 ↔ value.toNat < 2 ^ 56 := mask64 (by decide) rfl
  have h63 : value &&& 0x8000000000000000 = 0 ↔ value.toNat < 2 ^ 63 := mask64 (by decide) rfl
  simp only [sdnvGetSizeU64, h7, h14, h21, h28, h35, h42, h49, h56, h63]
  refine Base128.count_rung 0 rfl (.inr rfl) fun h => ?_
  refine Base128.count_rung 1 rfl (.inl h) fun h => ?_
  refine Base128.count_rung 2 rfl (.inl h) fun h => ?_
  refine Base128.count_rung 3 rfl (.inl h) fun h => ?_
  refine Base128.count_rung 4 rfl (.inl h) fun h => ?_
  refine Base128.count_rung 5 rfl (.inl h) fun h => ?_
  refine Base128.count_rung 6 rfl (.inl h) fun h => ?_
  refine Base128.count_rung 7 rfl (.inl h) fun h => ?_
  refine Base128.count_rung 8 rfl (.inl h) fun h => ?_
  exact (Base128.count_eq (by omega) (.inl h)).symm

/-! ## What is written -/

/-- The bytes of a group, with the marker and without it. -/
theorem group_bits : ∀ g : Fin 128,
    UInt8.ofNat g ||| 0x80 = UInt8.ofNat (g + 128) ∧
      (UInt8.ofNat g ||| 0x80) &&& 0x7F = UInt8.ofNat g ∧
      UInt8.ofNat (g + 128) &&& 0x80 ≠ 0 ∧ (UInt8.ofNat (g + 128) &&& 0x7F).toNat = g ∧
      UInt8.ofNat g &&& 0x80 = 0 ∧ (UInt8.ofNat g &&& 0x7F).toNat = g := by
  decide

theorem bits_of_group (v : Nat) :
    UInt8.ofNat (v % 128) ||| 0x80 = UInt8.ofNat (v % 128 + 128) ∧
      (UInt8.ofNat (v % 128) ||| 0x80) &&& 0x7F = UInt8.ofNat (v % 128) ∧
      UInt8.ofNat (v % 128 + 128) &&& 0x80 ≠ 0 ∧
      (UInt8.ofNat (v % 128 + 128) &&& 0x7F).toNat = v % 128 ∧
      UInt8.ofNat (v % 128) &&& 0x80 = 0 ∧ (UInt8.ofNat (v % 128) &&& 0x7F).toNat = v % 128 :=
  group_bits ⟨v % 128, Nat.mod_lt v (by decide)⟩

theorem and_lowest (v : Nat) : v &&& 0x7F = v % 128 := Nat.and_two_pow_sub_one_eq_mod v 7

theorem shift_group (v : Nat) : v >>> 7 = v / 128 := Nat.shiftRight_eq_div_pow v 7

/-- The loop writes group after group. -/
theorem sdnvWriteLoop_eq (value n j : Nat) :
    sdnvWriteLoop n (value / 128 ^ (j + 1)) (Base128.groups j value) =
      Base128.groups (n + j) value := by
  induction n generalizing j with
  | zero => rw [sdnvWriteLoop, Nat.zero_add]
  | succ n ih =>
      rw [sdnvWriteLoop, and_lowest, (bits_of_group _).1, shift_group, ← Base128.groups,
        Nat.div_div_eq_div_mul, ← Nat.pow_succ, ih, Nat.add_right_comm]
      rfl

theorem sdnvWriteGeneric_eq (n value : Nat) :
    sdnvWriteGeneric (n + 1) value = Base128.groups n value := by
  have hloop := sdnvWriteLoop_eq value n 0
  rw [sdnvWriteGeneric, and_lowest, (bits_of_group _).2.1, shift_group, Nat.add_sub_cancel]
  rw [Base128.groups, Nat.zero_add, Nat.pow_one] at hloop
  exact hloop

theorem sdnvWriteGeneric_count (value : Nat) :
    sdnvWriteGeneric (Base128.count value) value = Base128.bytes value :=
  sdnvWriteGeneric_eq _ value

theorem sdnvWriteU16_eq (value : UInt16) : sdnvWriteU16 value = Base128.bytes value.toNat := by
  rw [sdnvWriteU16, sdnvGetSizeU16_eq, sdnvWriteGeneric_count]

theorem sdnvWriteU32_eq (value : UInt32) : sdnvWriteU32 value = Base128.bytes value.toNat := by
  rw [sdnvWriteU32, sdnvGetSizeU32_eq, sdnvWriteGeneric_count]

theorem sdnvWriteU64_eq (value : UInt64) : sdnvWriteU64 value = Base128.bytes value.toNat := by
  rw [sdnvWriteU64, sdnvGetSizeU64_eq, sdnvWriteGeneric_count]

/-! ## What is read -/

/-- A reader takes some bytes, and with the last of them it is done with a value. -/
inductive Reads {α : Type} (read : SdnvState → α → UInt8 → SdnvState × α) :
    SdnvState → α → List UInt8 → SdnvState → α → Prop
  | last {state state' : SdnvState} {value value' : α} {byte : UInt8} :
      read state value byte = (state', value') → state'.status = .done →
        Reads read state value [byte] state' value'
  | more {state state' final : SdnvState} {value value' result : α} {byte : UInt8}
      {bytes : List UInt8} :
      read state value byte = (state', value') → state'.status = .inProgress →
        Reads read state' value' bytes final result →
        Reads read state value (byte :: bytes) final result

/-- A reader of a type of some bits.  All but one of the groups that these take fit in any case. -/
structure ReadsBits {α : Type} (read : SdnvState → α → UInt8 → SdnvState × α) (toNat : α → Nat)
    (ofNat : Nat → α) (bits fitting limit : Nat) : Prop where
  fitting_pos : 0 < fitting
  bits_le : bits ≤ 7 * fitting + 7
  limit_eq : limit + 1 = 2 ^ (bits - 7)
  seven_le : 7 ≤ bits
  toNat_ofNat : ∀ n < 2 ^ bits, toNat (ofNat n) = n
  read_eq : ∀ state value byte, read state value byte =
    ((sdnvReadGeneric bits (sdnvValidateByte fitting limit) state (toNat value) byte).1,
      ofNat (sdnvReadGeneric bits (sdnvValidateByte fitting limit) state (toNat value) byte).2)

theorem readsBits8 : ReadsBits sdnvReadU8 UInt8.toNat UInt8.ofNat 8 1 0x1 where
  fitting_pos := by decide
  bits_le := by decide
  limit_eq := by decide
  seven_le := by decide
  toNat_ofNat := fun _ h => by rw [UInt8.toNat_ofNat', Nat.mod_eq_of_lt h]
  read_eq := fun _ _ _ => rfl

theorem readsBits16 : ReadsBits sdnvReadU16 UInt16.toNat UInt16.ofNat 16 2 0x1FF where
  fitting_pos := by decide
  bits_le := by decide
  limit_eq := by decide
  seven_le := by decide
  toNat_ofNat := fun _ h => by rw [UInt16.toNat_ofNat', Nat.mod_eq_of_lt h]
  read_eq := fun _ _ _ => rfl

theorem readsBits32 : ReadsBits sdnvReadU32 UInt32.toNat UInt32.ofNat 32 4 0x1FFFFFF where
  fitting_pos := by decide
  bits_le := by decide
  limit_eq := by decide
  seven_le := by decide
  toNat_ofNat := fun _ h => by rw [UInt32.toNat_ofNat', Nat.mod_eq_of_lt h]
  read_eq := fun _ _ _ => rfl

theorem readsBits64 : ReadsBits sdnvReadU64 UInt64.toNat UInt64.ofNat 64 9 0x1FFFFFFFFFFFFFF where
  fitting_pos := by decide
  bits_le := by decide
  limit_eq := by decide
  seven_le := by decide
  toNat_ofNat := fun _ h => by rw [UInt64.toNat_ofNat', Nat.mod_eq_of_lt h]
  read_eq := fun _ _ _ => rfl

section

variable {α : Type} {read : SdnvState → α → UInt8 → SdnvState × α} {toNat : α → Nat}
  {ofNat : Nat → α} {bits fitting limit : Nat} {state : SdnvState} {value : α} {v n : Nat}
  {byte : UInt8}

/-- One more group of a number that fits. -/
theorem ReadsBits.read_group (h : ReadsBits read toNat ofNat bits fitting limit)
    (hv : v < 2 ^ bits) (hstatus : state.status = .inProgress)
    (hfit : state.bytesParsed + n ≤ fitting)
    (hvalue : if state.bytesParsed = 0 then v / 128 ^ (n + 1) = 0
      else toNat value = v / 128 ^ (n + 1))
    (hbyte : (byte &&& 0x7F).toNat = v / 128 ^ n % 128) :
    read state value byte =
      ({ state with
          status := if byte &&& 0x80 = 0 then .done else .inProgress
          bytesParsed := state.bytesParsed + 1 }, ofNat (v / 128 ^ n)) := by
  have hgroup := Base128.div_group v n
  have hlt : v / 128 ^ n % 128 < 2 ^ 7 := Nat.mod_lt _ (by decide)
  have hle : v / 128 ^ n ≤ v := Nat.div_le_self _ _
  have hvalid : sdnvValidateByte fitting limit state (toNat value) = true := by
    obtain hless | hlast := Nat.lt_or_eq_of_le (Nat.le_of_add_right_le hfit)
    · simp [sdnvValidateByte, hless]
    · have hzero : n = 0 := by omega
      have hpos := h.fitting_pos
      rw [if_neg (by omega), hzero, Nat.zero_add, Nat.pow_one] at hvalue
      have hpow : 2 ^ bits = 2 ^ (bits - 7) * 128 := by
        rw [show (128 : Nat) = 2 ^ 7 from rfl, ← Nat.pow_add, Nat.sub_add_cancel h.seven_le]
      have hlimit := h.limit_eq
      have hupper : v / 128 ≤ limit := by omega
      simp [sdnvValidateByte, hlast, hvalue, hupper]
  have hshift : (if state.bytesParsed = 0 then 0 else (toNat value <<< 7) % 2 ^ bits) =
      (v / 128 ^ (n + 1)) <<< 7 := by
    split_ifs at hvalue ⊢
    · rw [hvalue, Nat.zero_shiftLeft]
    · rw [hvalue, Nat.mod_eq_of_lt]
      rw [Nat.shiftLeft_eq]
      omega
  rw [h.read_eq]
  unfold sdnvReadGeneric
  rw [hvalid]
  simp only [Bool.not_true, Bool.false_eq_true, if_false, hstatus, reduceCtorEq, hshift, hbyte]
  rw [← Nat.shiftLeft_add_eq_or_of_lt hlt, Nat.shiftLeft_eq, hgroup]

/-- **A number that fits** is read back from its groups. -/
theorem ReadsBits.reads_groups (h : ReadsBits read toNat ofNat bits fitting limit)
    (hv : v < 2 ^ bits) (hstatus : state.status = .inProgress)
    (hfit : state.bytesParsed + n ≤ fitting)
    (hvalue : if state.bytesParsed = 0 then v / 128 ^ (n + 1) = 0
      else toNat value = v / 128 ^ (n + 1)) :
    Reads read state value (Base128.groups n v)
      { state with status := .done, bytesParsed := state.bytesParsed + (n + 1) } (ofNat v) := by
  induction n generalizing state value with
  | zero =>
      obtain ⟨-, -, -, -, hmark, hlow⟩ := bits_of_group v
      have hread := h.read_group hv hstatus hfit hvalue
        (show _ = v / 128 ^ 0 % 128 by rw [hlow, Nat.pow_zero, Nat.div_one])
      rw [if_pos hmark, Nat.pow_zero, Nat.div_one] at hread
      exact .last hread rfl
  | succ n ih =>
      obtain ⟨-, -, hmark, hlow, -⟩ := bits_of_group (v / 128 ^ (n + 1))
      have hread := h.read_group hv hstatus hfit hvalue hlow
      rw [if_neg hmark] at hread
      have hle : v / 128 ^ (n + 1) ≤ v := Nat.div_le_self _ _
      have hrest := @ih { state with
        status := .inProgress
        bytesParsed := state.bytesParsed + 1 } (ofNat (v / 128 ^ (n + 1))) rfl
        (by dsimp only; omega)
        (by rw [if_neg (Nat.succ_ne_zero _), h.toNat_ofNat _ (by omega)])
      have hcount : state.bytesParsed + 1 + (n + 1) = state.bytesParsed + (n + 1 + 1) := by omega
      rw [← hcount]
      exact .more hread rfl hrest

/-- The state of a reader behind a number of some bytes. -/
def sdnvDone (n : Nat) : SdnvState := ⟨.done, .none, n⟩

/-- **What a number is written as** is read back. -/
theorem ReadsBits.reads_bytes (h : ReadsBits read toNat ofNat bits fitting limit)
    (hv : v < 2 ^ bits) (value : α) :
    Reads read sdnvReset value (Base128.bytes v) (sdnvDone (Base128.count v)) (ofNat v) := by
  have hpos := Base128.count_pos v
  have hcount : Base128.count v ≤ fitting + 1 := by
    have hpow : (128 : Nat) ^ (fitting + 1) = 2 ^ (7 * (fitting + 1)) := by
      rw [Nat.pow_mul]
    rw [Base128.count_le_iff, hpow]
    exact Nat.lt_of_lt_of_le hv (Nat.pow_le_pow_right (by decide) h.bits_le)
  have hgroups : Reads read sdnvReset value (Base128.groups (Base128.count v - 1) v)
      { sdnvReset with
        status := .done
        bytesParsed := sdnvReset.bytesParsed + (Base128.count v - 1 + 1) } (ofNat v) :=
    h.reads_groups hv rfl
    (by simp only [sdnvReset]; omega)
    (by
      change v / 128 ^ (Base128.count v - 1 + 1) = 0
      rw [Nat.sub_add_cancel hpos]
      exact Base128.div_pow_count v)
  have hcount : sdnvReset.bytesParsed + (Base128.count v - 1 + 1) = Base128.count v := by
    simp only [sdnvReset]
    omega
  rw [hcount] at hgroups
  exact hgroups

end

theorem reads_write16 (x start : UInt16) :
    Reads sdnvReadU16 sdnvReset start (sdnvWriteU16 x) (sdnvDone (sdnvGetSizeU16 x)) x := by
  have h := readsBits16.reads_bytes x.toNat_lt start
  rwa [UInt16.ofNat_toNat, ← sdnvWriteU16_eq, ← sdnvGetSizeU16_eq] at h

theorem reads_write32 (x start : UInt32) :
    Reads sdnvReadU32 sdnvReset start (sdnvWriteU32 x) (sdnvDone (sdnvGetSizeU32 x)) x := by
  have h := readsBits32.reads_bytes x.toNat_lt start
  rwa [UInt32.ofNat_toNat, ← sdnvWriteU32_eq, ← sdnvGetSizeU32_eq] at h

theorem reads_write64 (x start : UInt64) :
    Reads sdnvReadU64 sdnvReset start (sdnvWriteU64 x) (sdnvDone (sdnvGetSizeU64 x)) x := by
  have h := readsBits64.reads_bytes x.toNat_lt start
  rwa [UInt64.ofNat_toNat, ← sdnvWriteU64_eq, ← sdnvGetSizeU64_eq] at h

end Bundle6
