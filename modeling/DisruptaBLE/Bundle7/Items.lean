import DisruptaBLE.Bundle7.TinyCbor

/-!
# Items that are read where they were written

`stand n l` is the iterator in front of `n` items of a container that is not empty, or at its end.
When what is written next begins with a complete head (`Ready`), the functions of TinyCBOR go from
one such iterator to another one: over a number (`advance_uint`), into a container
(`enter_array`), out of one (`leave_array`), and over a string (`copy_string`).
-/

namespace Bundle7

open Cbor

/-- Some bytes begin with a complete head, which is not a break. -/
def Starts (l : List UInt8) : Prop := ∃ h, readHead l = .head h

/-- The iterator in front of `n` items. -/
def stand (n : Nat) (l : List UInt8) : CborValue :=
  if n = 0 then ⟨l, none, true, some 0⟩ else (preparseValue (some n) l).2

/-- The next item, if there is one, can be preparsed. -/
def Ready (n : Nat) (l : List UInt8) : Prop := n ≠ 0 → Starts l

/-- Some bytes are a head with an argument, whatever stands behind them. -/
def IsHead (k : Kind) (v : Nat) (w : List UInt8) : Prop :=
  ∀ r, readHead (w ++ r) = .head ⟨k, some v, w.length⟩

variable {l r s w : List UInt8} {n v : Nat} {k : Kind} {h : Head}

theorem ready_zero (l : List UInt8) : Ready 0 l := fun h => absurd rfl h

theorem ready_of_starts (h : Starts l) : Ready n l := fun _ => h

theorem isHead_encodeHead (hk : k ≠ .simple) (hv : v < 2 ^ 64) : IsHead k v (encodeHead k v) :=
  readHead_encodeHead hk hv

theorem IsHead.starts (hw : IsHead k v w) (r : List UInt8) : Starts (w ++ r) := ⟨_, hw r⟩

theorem starts_encode (hk : k ≠ .simple) (hv : v < 2 ^ 64) (r : List UInt8) :
    Starts (encodeHead k v ++ r) := ⟨_, readHead_encodeHead hk hv r⟩

@[simp] theorem rest_stand (n : Nat) (l : List UInt8) : (stand n l).rest = l := by
  unfold stand preparseValue
  split
  · rfl
  · split <;> rfl

theorem atEnd_stand (n : Nat) (l : List UInt8) : (stand n l).atEnd = (n == 0) := by
  unfold stand preparseValue
  split
  · next hn => simp [CborValue.atEnd, hn]
  · next hn => split <;> simp [CborValue.atEnd, hn]

theorem stand_succ (hl : readHead l = .head h) :
    stand (n + 1) l = ⟨l, some h.kind, h.arg.isSome, some (n + 1)⟩ := by
  simp [stand, preparseValue, hl]

theorem headOf_stand (hl : readHead l = .head h) : headOf (stand n l) = .ok h := by
  simp [headOf, hl]

theorem preparseItem_stand (hn : n ≠ 0) (hl : Starts l) :
    preparseItem (some n) l = (none, stand n l) := by
  obtain ⟨h, hl⟩ := hl
  simp [preparseItem, stand, hn, preparseValue, hl]

/-- Behind an item. -/
theorem preparseNext_stand (hl : readHead l = .head h) (hk : h.kind ≠ .tag) (hready : Ready n r) :
    preparseNext (stand (n + 1) l) r = (none, stand n r) := by
  rw [stand_succ hl]
  simp only [preparseNext]
  rw [if_neg (by simpa using hk)]
  by_cases hn : n = 0
  · subst hn
    rfl
  · rw [if_neg (by omega), Nat.add_sub_cancel]
    exact preparseItem_stand hn (hready hn)

/-! ## Numbers -/

theorem IsHead.isUnsignedInteger (hw : IsHead .uint v w) :
    (stand (n + 1) (w ++ r)).isUnsignedInteger = true := by
  rw [stand_succ (hw r)]
  rfl

theorem isUnsignedInteger_stand (hv : v < 2 ^ 64) :
    (stand (n + 1) (encodeHead .uint v ++ r)).isUnsignedInteger = true :=
  (isHead_encodeHead (by decide) hv).isUnsignedInteger

theorem IsHead.getUint64 (hw : IsHead .uint v w) :
    reference.getUint64 (stand n (w ++ r)) = UInt64.ofNat v := by
  simp [reference, headOf_stand (hw r)]

theorem getUint64_stand (hv : v < 2 ^ 64) :
    reference.getUint64 (stand n (encodeHead .uint v ++ r)) = UInt64.ofNat v :=
  (isHead_encodeHead (by decide) hv).getUint64

/-- **Over a number.** -/
theorem IsHead.advance (hw : IsHead .uint v w) (hready : Ready n r) :
    reference.advanceFixed (stand (n + 1) (w ++ r)) = (none, stand n r) := by
  have hnext := preparseNext_stand (hw r) (by simp) hready
  simpa [reference, headOf_stand (hw r)] using hnext

theorem advance_uint (hv : v < 2 ^ 64) (hready : Ready n r) :
    reference.advanceFixed (stand (n + 1) (encodeHead .uint v ++ r)) = (none, stand n r) :=
  (isHead_encodeHead (by decide) hv).advance hready

/-! ## Containers -/

theorem IsHead.isArray (hw : IsHead .array v w) : (stand (n + 1) (w ++ r)).isArray = true := by
  rw [stand_succ (hw r)]
  rfl

theorem isArray_stand (hv : v < 2 ^ 64) :
    (stand (n + 1) (encodeHead .array v ++ r)).isArray = true :=
  (isHead_encodeHead (by decide) hv).isArray

theorem IsHead.lengthKnown (hw : IsHead k v w) :
    (stand (n + 1) (w ++ r)).lengthKnown = true := by
  rw [stand_succ (hw r)]
  rfl

theorem lengthKnown_stand (hk : k ≠ .simple) (hv : v < 2 ^ 64) :
    (stand (n + 1) (encodeHead k v ++ r)).lengthKnown = true :=
  (isHead_encodeHead hk hv).lengthKnown

theorem IsHead.knownLength (hw : IsHead k v w) : knownLength (stand n (w ++ r)) = .ok v := by
  simp [Bundle7.knownLength, headOf_stand (hw r)]

theorem knownLength_stand (hk : k ≠ .simple) (hv : v < 2 ^ 64) :
    knownLength (stand n (encodeHead k v ++ r)) = .ok v :=
  (isHead_encodeHead hk hv).knownLength

theorem getArrayLength_stand (hv : v < 2 ^ 64) :
    reference.getArrayLength (stand n (encodeHead .array v ++ r)) = .ok v :=
  knownLength_stand (by decide) hv

/-- **Into a container.** -/
theorem IsHead.enter (hw : IsHead .array v w) (hv : v < 2 ^ 32 - 1) (hready : Ready v r) :
    reference.enterContainer (stand n (w ++ r)) = .ok (stand v r) := by
  have hdrop : (w ++ r).drop w.length = r := List.drop_left
  simp only [reference, headOf_stand (hw r), rest_stand, hdrop]
  rw [if_neg (by omega)]
  by_cases hv0 : v = 0
  · subst hv0
    rfl
  · rw [if_neg hv0, preparseItem_stand hv0 (hready hv0)]
    rfl

theorem enter_array (hv : v < 2 ^ 32 - 1) (hready : Ready v r) :
    reference.enterContainer (stand n (encodeHead .array v ++ r)) = .ok (stand v r) :=
  (isHead_encodeHead (by decide) (by omega)).enter hv hready

/-- **Out of a container**, behind its last item. -/
theorem IsHead.leave (hw : IsHead .array v w) (hready : Ready n s) (m : Nat) :
    reference.leaveContainer (stand (n + 1) (w ++ r)) (stand m s) = .ok (stand n s) := by
  simp only [reference, rest_stand]
  rw [preparseNext_stand (hw r) (by simp) hready]
  rfl

theorem leave_array (hv : v < 2 ^ 64) (hready : Ready n s) (m : Nat) :
    reference.leaveContainer (stand (n + 1) (encodeHead .array v ++ r)) (stand m s) =
      .ok (stand n s) :=
  (isHead_encodeHead (by decide) hv).leave hready m

/-! ## Strings -/

theorem getStringLength_stand (hk : k ≠ .simple) (hv : v < 2 ^ 64) :
    reference.getStringLength (stand n (encodeHead k v ++ r)) = .ok v :=
  knownLength_stand hk hv

theorem readString_stand (hk : k ≠ .simple) (hs : s.length < 2 ^ 64) :
    readString (stand n (encodeHead k s.length ++ (s ++ r))) = .ok (s, r) := by
  have hl := readHead_encodeHead hk hs (s ++ r)
  have hdrop : (encodeHead k s.length ++ (s ++ r)).drop (encodeHead k s.length).length = s ++ r :=
    List.drop_left
  have hrest : (encodeHead k s.length ++ (s ++ r)).drop
      ((encodeHead k s.length).length + s.length) =
      r := by
    rw [← List.drop_drop, hdrop, List.drop_left]
  simp only [readString, headOf_stand hl, rest_stand, hdrop, hrest]
  rw [if_neg (by simp only [List.length_append]; omega), List.take_left]

/-- **Over a string**, which is copied to a buffer that is long enough. -/
theorem copy_string {size : Nat} (hk : k ≠ .simple) (htag : k ≠ .tag) (hs : s.length < 2 ^ 64)
    (hsize : s.length ≤ size) (hready : Ready n r) :
    reference.copyString (stand (n + 1) (encodeHead k s.length ++ (s ++ r))) size =
      .ok (s, stand n r) := by
  have hl := readHead_encodeHead hk hs (s ++ r)
  simp only [reference, readString_stand hk hs, preparseNext_stand hl htag hready, checked]
  rw [if_neg (by omega)]

theorem isTextString_stand (hv : v < 2 ^ 64) :
    (stand (n + 1) (encodeHead .text v ++ r)).isTextString = true := by
  rw [stand_succ (readHead_encodeHead (by decide) hv r)]
  rfl

theorem isByteString_stand (hv : v < 2 ^ 64) :
    (stand (n + 1) (encodeHead .bytes v ++ r)).isByteString = true := by
  rw [stand_succ (readHead_encodeHead (by decide) hv r)]
  rfl

/-- A container is not a number. -/
theorem not_isUnsignedInteger_stand (hk : k ≠ .simple) (hne : k ≠ .uint) (hv : v < 2 ^ 64) :
    (stand (n + 1) (encodeHead k v ++ r)).isUnsignedInteger = false := by
  rw [stand_succ (readHead_encodeHead hk hv r)]
  simp [CborValue.isUnsignedInteger, hne]

end Bundle7
