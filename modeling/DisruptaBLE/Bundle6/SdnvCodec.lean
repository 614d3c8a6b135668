import DisruptaBLE.Bundle6.Sdnv

/-!
# The codec of self-delimiting numeric values

`components/bundle6/sdnv.c` for its four widths.  What is written is read back, and exactly the last
byte ends it.  Of any other bytes the reader keeps every bit, or it refuses them: before each byte,
the value is the number of the bytes so far, and a byte that would take it out of its type is an
error that stays (`Stuck.feed`).
-/

namespace Bundle6

open BundleProcessor

/-! ## Definitions -/

/-- `sdnv_get_size_u8`. -/
def sdnvGetSizeU8 (value : UInt8) : Nat := if value &&& 0x80 = 0 then 1 else 2

/-- `sdnv_write_u8`. -/
def sdnvWriteU8 (value : UInt8) : List UInt8 :=
  sdnvWriteGeneric (sdnvGetSizeU8 value) value.toNat

/-- The widths of the functions of the file. -/
inductive Width where
  | u8
  | u16
  | u32
  | u64
  deriving DecidableEq, Repr

/-- The functions of one width. -/
structure Codec where
  bits : Nat
  Value : Type
  toNat : Value → Nat
  getSize : Value → Nat
  write : Value → List UInt8
  read : SdnvState → Value → UInt8 → SdnvState × Value

/-- The functions of each width. -/
def codec : Width → Codec
  | .u8 => ⟨8, UInt8, UInt8.toNat, sdnvGetSizeU8, sdnvWriteU8, sdnvReadU8⟩
  | .u16 => ⟨16, UInt16, UInt16.toNat, sdnvGetSizeU16, sdnvWriteU16, sdnvReadU16⟩
  | .u32 => ⟨32, UInt32, UInt32.toNat, sdnvGetSizeU32, sdnvWriteU32, sdnvReadU32⟩
  | .u64 => ⟨64, UInt64, UInt64.toNat, sdnvGetSizeU64, sdnvWriteU64, sdnvReadU64⟩

/-- Bytes are fed to a reader one after the other, whatever it says. -/
def feed {α : Type} (read : SdnvState → α → UInt8 → SdnvState × α) (s : SdnvState × α)
    (bytes : List UInt8) : SdnvState × α :=
  bytes.foldl (fun s byte => read s.1 s.2 byte) s

/-- All bytes but the last one have the marker: the bytes belong to one number. -/
def OneNumber (bytes : List UInt8) : Prop := ∀ b ∈ bytes.dropLast, b &&& 0x80 ≠ 0

instance (bytes : List UInt8) : Decidable (OneNumber bytes) :=
  inferInstanceAs (Decidable (∀ b ∈ bytes.dropLast, b &&& 0x80 ≠ 0))

/-- A reader is done behind the first `k` bytes, and was not done before. -/
def DoneAt {α : Type} (read : SdnvState → α → UInt8 → SdnvState × α) (start : α)
    (bytes : List UInt8) (k : Nat) : Prop :=
  (feed read (sdnvReset, start) (bytes.take k)).1.status = .done ∧
    ∀ j < k, (feed read (sdnvReset, start) (bytes.take j)).1.status ≠ .done

/-! ## The width of 8 bits -/

theorem sdnvGetSizeU8_eq (value : UInt8) : sdnvGetSizeU8 value = Base128.count value.toNat := by
  have h7 : value &&& 0x80 = 0 ↔ value.toNat < 2 ^ 7 := by
    rw [← UInt8.toNat_inj, UInt8.toNat_and]
    exact @and_mask_eq_zero 8 7 value.toNat (by decide) value.toNat_lt
  have hlt := value.toNat_lt
  simp only [sdnvGetSizeU8, h7]
  refine Base128.count_rung 0 rfl (.inr rfl) fun h => ?_
  exact (Base128.count_eq (by omega) (.inl h)).symm

theorem sdnvWriteU8_eq (value : UInt8) : sdnvWriteU8 value = Base128.bytes value.toNat := by
  rw [sdnvWriteU8, sdnvGetSizeU8_eq, sdnvWriteGeneric_count]

theorem reads_write8 (x start : UInt8) :
    Reads sdnvReadU8 sdnvReset start (sdnvWriteU8 x) (sdnvDone (sdnvGetSizeU8 x)) x := by
  have h := readsBits8.reads_bytes x.toNat_lt start
  rwa [UInt8.ofNat_toNat, ← sdnvWriteU8_eq, ← sdnvGetSizeU8_eq] at h

/-! ## Feeding -/

section Feeding

variable {α : Type} {read : SdnvState → α → UInt8 → SdnvState × α}

theorem feed_snoc (s : SdnvState × α) (bytes : List UInt8) (b : UInt8) :
    feed read s (bytes ++ [b]) =
      read (feed read s bytes).1 (feed read s bytes).2 b := by
  rw [feed, List.foldl_append]
  rfl

theorem feed_append (s : SdnvState × α) (a b : List UInt8) :
    feed read s (a ++ b) = feed read (feed read s a) b := List.foldl_append

/-- **A number is read** exactly with its last byte. -/
theorem Reads.feed {state state' : SdnvState} {value value' : α} {bytes : List UInt8}
    (h : Reads read state value bytes state' value') (hstate : state.status = .inProgress) :
    feed read (state, value) bytes = (state', value') ∧ state'.status = .done ∧
      ∀ k < bytes.length, (Bundle6.feed read (state, value) (bytes.take k)).1.status =
        .inProgress := by
  induction h with
  | @last state state' value value' byte hread hdone =>
      refine ⟨hread, hdone, ?_⟩
      intro k hk
      obtain rfl : k = 0 := Nat.lt_one_iff.mp hk
      exact hstate
  | @more state state' final value value' result byte bytes hread hmore _ ih =>
      obtain ⟨hfeed, hdone, hbefore⟩ := ih hmore
      have hstep : ∀ bs, Bundle6.feed read (state, value) (byte :: bs) =
          Bundle6.feed read (state', value') bs := by
        intro bs
        show Bundle6.feed read (read state value byte) bs = _
        rw [hread]
      refine ⟨(hstep bytes).trans hfeed, hdone, ?_⟩
      intro k hk
      cases k with
      | zero => exact hstate
      | succ k =>
          rw [List.take_succ_cons, hstep]
          exact hbefore k (Nat.lt_of_succ_lt_succ hk)

end Feeding

/-! ## Any bytes -/

section Values

variable {α : Type} {read : SdnvState → α → UInt8 → SdnvState × α} {toNat : α → Nat}
  {ofNat : Nat → α} {bits fitting limit : Nat}

/-- The reader is in the middle of a number or at its end. -/
def Holds (toNat : α → Nat) (bits : Nat) (status : SdnvStatus) (bytes : List UInt8)
    (s : SdnvState × α) : Prop :=
  s.1 = ⟨status, .none, bytes.length⟩ ∧ (bytes ≠ [] → toNat s.2 = Base128.number bytes) ∧
    Base128.number bytes < 2 ^ bits

/-- The reader has met a byte that does not fit. -/
def Stuck (toNat : α → Nat) (fitting limit : Nat) (s : SdnvState × α) : Prop :=
  s.1.status = .error ∧ s.1.error = .overflow ∧
    sdnvValidateByte fitting limit s.1 (toNat s.2) = false

/-- A reader whose groups that fit in any case fit its type, which has no other values. -/
structure ExactBits (read : SdnvState → α → UInt8 → SdnvState × α) (toNat : α → Nat)
    (ofNat : Nat → α) (bits fitting limit : Nat) : Prop
    extends ReadsBits read toNat ofNat bits fitting limit where
  room : 7 * fitting ≤ bits
  toNat_lt : ∀ value, toNat value < 2 ^ bits

theorem ExactBits.refuse (h : ExactBits read toNat ofNat bits fitting limit) {s : SdnvState × α}
    (hs : sdnvValidateByte fitting limit s.1 (toNat s.2) = false) (b : UInt8) :
    Stuck toNat fitting limit (read s.1 s.2 b) := by
  have hvalue : toNat (ofNat (toNat s.2)) = toNat s.2 := h.toNat_ofNat _ (h.toNat_lt _)
  rw [h.read_eq]
  unfold sdnvReadGeneric
  rw [hs]
  refine ⟨rfl, rfl, ?_⟩
  show sdnvValidateByte fitting limit _ (toNat (ofNat (toNat s.2))) = false
  rw [hvalue]
  exact hs

theorem Stuck.feed (h : ExactBits read toNat ofNat bits fitting limit) {s : SdnvState × α}
    (hs : Stuck toNat fitting limit s) (bytes : List UInt8) :
    Stuck toNat fitting limit (feed read s bytes) := by
  induction bytes generalizing s with
  | nil => exact hs
  | cons b bytes ih => exact ih (h.refuse hs.2.2 b)

/-- A byte that passes the check keeps the number in its type. -/
theorem ExactBits.fits (h : ExactBits read toNat ofNat bits fitting limit) {s : SdnvState × α}
    {bytes : List UInt8} (hlength : s.1.bytesParsed = bytes.length)
    (hvalue : bytes ≠ [] → toNat s.2 = Base128.number bytes)
    (hvalid : sdnvValidateByte fitting limit s.1 (toNat s.2) = true) (g : Nat) (hg : g < 128) :
    Base128.number bytes * 128 + g < 2 ^ bits := by
  have hnumber := Base128.number_lt bytes
  rw [sdnvValidateByte, hlength, Bool.or_eq_true, decide_eq_true_eq, Bool.and_eq_true,
    decide_eq_true_eq, decide_eq_true_eq] at hvalid
  obtain hroom | ⟨hlast, hlimit⟩ := hvalid
  · have hnext : 128 ^ (bytes.length + 1) ≤ 2 ^ bits :=
      calc 128 ^ (bytes.length + 1)
          ≤ 128 ^ fitting := Nat.pow_le_pow_right (by decide) hroom
        _ = 2 ^ (7 * fitting) := by rw [Nat.pow_mul]
        _ ≤ 2 ^ bits := Nat.pow_le_pow_right (by decide) h.room
    rw [Nat.pow_succ] at hnext
    omega
  · have hne : bytes ≠ [] := by
      intro heq
      obtain rfl := heq
      exact absurd hlast.symm h.fitting_pos.ne'
    have hpow : 2 ^ bits = 2 ^ (bits - 7) * 128 := by
      rw [show (128 : Nat) = 2 ^ 7 from rfl, ← Nat.pow_add, Nat.sub_add_cancel h.seven_le]
    have hlimit_eq := h.limit_eq
    rw [hvalue hne] at hlimit
    omega

/-- **One more byte.**  It is added to the number, or it does not fit. -/
theorem ExactBits.step (h : ExactBits read toNat ofNat bits fitting limit) {s : SdnvState × α}
    {bytes : List UInt8} (hs : Holds toNat bits .inProgress bytes s) (b : UInt8) :
    Holds toNat bits (if b &&& 0x80 = 0 then .done else .inProgress) (bytes ++ [b])
        (read s.1 s.2 b) ∨
      Stuck toNat fitting limit (read s.1 s.2 b) := by
  obtain ⟨hstate, hvalue, hlt⟩ := hs
  cases hvalid : sdnvValidateByte fitting limit s.1 (toNat s.2) with
  | false => exact .inr (h.refuse hvalid b)
  | true =>
      left
      have hlow : (b &&& 0x7F).toNat = b.toNat % 128 := by
        rw [UInt8.toNat_and]
        exact and_lowest _
      have hlowlt : b.toNat % 128 < 2 ^ 7 := Nat.mod_lt _ (by decide)
      have hfits : Base128.number bytes * 128 + b.toNat % 128 < 2 ^ bits :=
        h.fits (by rw [hstate]) hvalue hvalid _ hlowlt
      have hshift : (if s.1.bytesParsed = 0 then 0 else (toNat s.2 <<< 7) % 2 ^ bits) =
          Base128.number bytes <<< 7 := by
        rw [hstate]
        dsimp only
        obtain rfl | hne := eq_or_ne bytes []
        · rfl
        · rw [if_neg (fun h0 => hne (List.length_eq_zero_iff.mp h0)), hvalue hne,
            Nat.mod_eq_of_lt]
          rw [Nat.shiftLeft_eq]
          omega
      have hread : read s.1 s.2 b =
          (⟨if b &&& 0x80 = 0 then .done else .inProgress, .none, bytes.length + 1⟩,
            ofNat (Base128.number (bytes ++ [b]))) := by
        rw [h.read_eq]
        unfold sdnvReadGeneric
        rw [hvalid, hshift, hstate]
        simp only [Bool.not_true, Bool.false_eq_true, if_false, reduceCtorEq, hlow]
        rw [← Nat.shiftLeft_add_eq_or_of_lt hlowlt, Nat.shiftLeft_eq, Base128.number_snoc]
      rw [hread]
      rw [← Base128.number_snoc] at hfits
      exact ⟨by rw [List.length_append, List.length_singleton],
        fun _ => h.toNat_ofNat _ hfits, hfits⟩

/-- Bytes with markers only, from the start. -/
theorem ExactBits.feed_marked (h : ExactBits read toNat ofNat bits fitting limit) (start : α)
    {bytes : List UInt8} (hmarked : ∀ b ∈ bytes, b &&& 0x80 ≠ 0) :
    Holds toNat bits .inProgress bytes (feed read (sdnvReset, start) bytes) ∨
      Stuck toNat fitting limit (feed read (sdnvReset, start) bytes) := by
  induction bytes using List.reverseRecOn with
  | nil => exact .inl ⟨rfl, fun hne => absurd rfl hne, Nat.two_pow_pos _⟩
  | append_singleton bytes b ih =>
      rw [feed_snoc]
      obtain hgood | hstuck := ih fun c hc => hmarked c (List.mem_append_left _ hc)
      · have hstep := h.step hgood b
        rwa [if_neg (hmarked b (List.mem_append_right _ (List.mem_singleton_self b)))] at hstep
      · exact .inr (h.refuse hstuck.2.2 b)

/-- The bytes of one number, from the start. -/
theorem ExactBits.feed_number (h : ExactBits read toNat ofNat bits fitting limit) (start : α)
    {bytes : List UInt8} (hnumber : OneNumber bytes) :
    (∃ status, Holds toNat bits status bytes (feed read (sdnvReset, start) bytes)) ∨
      Stuck toNat fitting limit (feed read (sdnvReset, start) bytes) := by
  obtain rfl | ⟨init, b, rfl⟩ := List.eq_nil_or_concat' bytes
  · exact .inl ⟨_, (h.feed_marked start fun c hc => absurd hc List.not_mem_nil).resolve_right
      fun hstuck => nomatch hstuck.1⟩
  · rw [OneNumber, List.dropLast_concat] at hnumber
    rw [feed_snoc]
    obtain hgood | hstuck := h.feed_marked start hnumber
    · exact (h.step hgood b).imp_left fun hnext => ⟨_, hnext⟩
    · exact .inr (h.refuse hstuck.2.2 b)

/-- A number that its type does not hold is refused, whatever follows. -/
theorem ExactBits.overflow (h : ExactBits read toNat ofNat bits fitting limit) (start : α)
    {bytes : List UInt8} (hnumber : OneNumber bytes) (hlarge : 2 ^ bits ≤ Base128.number bytes)
    (more : List UInt8) :
    (feed read (sdnvReset, start) (bytes ++ more)).1.status = .error := by
  obtain ⟨status, -, -, hlt⟩ | hstuck := h.feed_number start hnumber
  · omega
  · rw [feed_append]
    exact (hstuck.feed h more).1

/-- Before a reader is done for the first time, all bytes have the marker. -/
theorem ExactBits.marked_of_not_done (h : ExactBits read toNat ofNat bits fitting limit) (start : α)
    {bytes : List UInt8}
    (hnot : ∀ j ≤ bytes.length, (feed read (sdnvReset, start) (bytes.take j)).1.status ≠ .done) :
    (∀ b ∈ bytes, b &&& 0x80 ≠ 0) ∨
      Stuck toNat fitting limit (feed read (sdnvReset, start) bytes) := by
  induction bytes using List.reverseRecOn with
  | nil => exact .inl fun b hb => absurd hb List.not_mem_nil
  | append_singleton bytes b ih =>
      have hbefore : ∀ j ≤ bytes.length,
          (feed read (sdnvReset, start) (bytes.take j)).1.status ≠ .done := by
        intro j hj
        have hj' := hnot j (by rw [List.length_append]; omega)
        rwa [List.take_append_of_le_length hj] at hj'
      have hlast := hnot _ (Nat.le_refl _)
      rw [List.take_length, feed_snoc] at hlast
      rw [feed_snoc]
      obtain hmarked | hstuck := ih hbefore
      · obtain hgood | hstuck := h.feed_marked start hmarked
        · obtain hnext | hstuck := h.step hgood b
          · have hmark : b &&& 0x80 ≠ 0 := by
              intro hmark
              rw [if_pos hmark] at hnext
              exact hlast (by rw [hnext.1])
            left
            intro c hc
            obtain hc | hc := List.mem_append.mp hc
            · exact hmarked c hc
            · exact List.mem_singleton.mp hc ▸ hmark
          · exact .inr hstuck
        · exact .inr (h.refuse hstuck.2.2 b)
      · exact .inr (h.refuse hstuck.2.2 b)

theorem DoneAt.le_length {start : α} {bytes : List UInt8} {k : Nat}
    (h : DoneAt read start bytes k) : k ≤ bytes.length := by
  by_contra hk
  apply h.2 bytes.length (by omega)
  have hnow := h.1
  rwa [List.take_of_length_le (by omega)] at hnow ⊢

/-- **A reader that is done** has the number of the bytes so far, without a bit lost. -/
theorem ExactBits.done (h : ExactBits read toNat ofNat bits fitting limit) {start : α}
    {bytes : List UInt8} {k : Nat} (hdone : DoneAt read start bytes k) :
    toNat (feed read (sdnvReset, start) (bytes.take k)).2 = Base128.number (bytes.take k) ∧
      Base128.number (bytes.take k) < 2 ^ bits ∧ OneNumber (bytes.take k) := by
  have hk := hdone.le_length
  obtain ⟨hnow, hbefore⟩ := hdone
  cases k with
  | zero => cases hnow
  | succ k =>
      have hlength : (bytes.take k).length = k := List.length_take_of_le (by omega)
      have hinit : bytes.take (k + 1) = bytes.take k ++ [bytes[k]] :=
        List.take_succ_eq_append_getElem hk
      have hnot : ∀ j ≤ (bytes.take k).length,
          (feed read (sdnvReset, start) ((bytes.take k).take j)).1.status ≠ .done := by
        intro j hj
        rw [hlength] at hj
        rw [List.take_take, Nat.min_eq_left hj]
        exact hbefore j (by omega)
      rw [hinit, feed_snoc] at hnow
      obtain hmarked | hstuck := h.marked_of_not_done start hnot
      · have hnumber : OneNumber (bytes.take (k + 1)) := by
          rw [OneNumber, hinit, List.dropLast_concat]
          exact hmarked
        rw [hinit, feed_snoc]
        obtain hgood | hstuck := h.feed_marked start hmarked
        · obtain hnext | hstuck := h.step hgood bytes[k]
          · exact ⟨hnext.2.1 (List.append_ne_nil_of_right_ne_nil _ (List.cons_ne_nil _ _)),
              hnext.2.2, hinit ▸ hnumber⟩
          · exact absurd hnow (by rw [hstuck.1]; decide)
        · exact absurd hnow (by rw [(h.refuse hstuck.2.2 _).1]; decide)
      · exact absurd hnow (by rw [(h.refuse hstuck.2.2 _).1]; decide)

end Values

/-! ## The four widths -/

theorem exactBits8 : ExactBits sdnvReadU8 UInt8.toNat UInt8.ofNat 8 1 0x1 :=
  { readsBits8 with room := by decide, toNat_lt := UInt8.toNat_lt }

theorem exactBits16 : ExactBits sdnvReadU16 UInt16.toNat UInt16.ofNat 16 2 0x1FF :=
  { readsBits16 with room := by decide, toNat_lt := UInt16.toNat_lt }

theorem exactBits32 : ExactBits sdnvReadU32 UInt32.toNat UInt32.ofNat 32 4 0x1FFFFFF :=
  { readsBits32 with room := by decide, toNat_lt := UInt32.toNat_lt }

theorem exactBits64 : ExactBits sdnvReadU64 UInt64.toNat UInt64.ofNat 64 9 0x1FFFFFFFFFFFFFF :=
  { readsBits64 with room := by decide, toNat_lt := UInt64.toNat_lt }

theorem codec_exact (w : Width) : ∃ ofNat fitting limit,
    ExactBits (codec w).read (codec w).toNat ofNat (codec w).bits fitting limit := by
  cases w with
  | u8 => exact ⟨_, _, _, exactBits8⟩
  | u16 => exact ⟨_, _, _, exactBits16⟩
  | u32 => exact ⟨_, _, _, exactBits32⟩
  | u64 => exact ⟨_, _, _, exactBits64⟩

theorem codec_reads (w : Width) (v start : (codec w).Value) :
    Reads (codec w).read sdnvReset start ((codec w).write v)
      (sdnvDone ((codec w).getSize v)) v := by
  cases w with
  | u8 => exact reads_write8 v start
  | u16 => exact reads_write16 v start
  | u32 => exact reads_write32 v start
  | u64 => exact reads_write64 v start

theorem length_written {written : List UInt8} {v size : Nat} (hwritten : written = Base128.bytes v)
    (hsize : size = Base128.count v) : written.length = size := by
  rw [hwritten, hsize, Base128.length_bytes]

theorem codec_length (w : Width) (v : (codec w).Value) :
    ((codec w).write v).length = (codec w).getSize v := by
  cases w with
  | u8 => exact length_written (sdnvWriteU8_eq v) (sdnvGetSizeU8_eq v)
  | u16 => exact length_written (sdnvWriteU16_eq v) (sdnvGetSizeU16_eq v)
  | u32 => exact length_written (sdnvWriteU32_eq v) (sdnvGetSizeU32_eq v)
  | u64 => exact length_written (sdnvWriteU64_eq v) (sdnvGetSizeU64_eq v)

/-- **The codec.**  For every width: a value is written to as many bytes as its size says, and fed
to a reader they end it exactly with the last byte, with the value.  If a reader comes to its end
in any bytes, it has the number that these form, which its type holds.  A number that its type does
not hold ends in an error, whatever follows it. -/
theorem sdnv_codec (w : Width) :
    (∀ v start : (codec w).Value,
      ((codec w).write v).length = (codec w).getSize v ∧
        (feed (codec w).read (sdnvReset, start) ((codec w).write v)).1.status = .done ∧
        (feed (codec w).read (sdnvReset, start) ((codec w).write v)).2 = v ∧
        ∀ k < ((codec w).write v).length,
          (feed (codec w).read (sdnvReset, start) (((codec w).write v).take k)).1.status =
            .inProgress) ∧
    (∀ (start : (codec w).Value) (bytes : List UInt8) (k : Nat),
      DoneAt (codec w).read start bytes k →
        (codec w).toNat (feed (codec w).read (sdnvReset, start) (bytes.take k)).2 =
            Base128.number (bytes.take k) ∧
          Base128.number (bytes.take k) < 2 ^ (codec w).bits) ∧
    ∀ (start : (codec w).Value) (bytes more : List UInt8), OneNumber bytes →
      2 ^ (codec w).bits ≤ Base128.number bytes →
        (feed (codec w).read (sdnvReset, start) (bytes ++ more)).1.status = .error := by
  obtain ⟨ofNat, fitting, limit, h⟩ := codec_exact w
  refine ⟨?_, ?_, ?_⟩
  · intro v start
    obtain ⟨hfeed, hdone, hbefore⟩ := (codec_reads w v start).feed rfl
    exact ⟨codec_length w v, by rw [hfeed, hdone], by rw [hfeed], hbefore⟩
  · intro start bytes k hdone
    obtain ⟨hvalue, hlt, -⟩ := h.done hdone
    exact ⟨hvalue, hlt⟩
  · intro start bytes more hnumber hlarge
    exact h.overflow start hnumber hlarge more

/-- The number 255 in bytes, and 256, which 8 bits do not hold. -/
theorem sdnv_codec_u8 :
    UInt8.toNat (feed sdnvReadU8 (sdnvReset, 0) [0x81, 0x7F]).2 = 255 ∧
      (feed sdnvReadU8 (sdnvReset, 0) [0x82, 0x00]).1.status = .error := by
  obtain ⟨-, hdone, hover⟩ := sdnv_codec .u8
  exact ⟨(hdone (0 : UInt8) [0x81, 0x7F] 2 ⟨by decide +kernel, by decide +kernel⟩).1,
    hover (0 : UInt8) [0x82, 0x00] [] (by decide +kernel) (by decide +kernel)⟩

end Bundle6
