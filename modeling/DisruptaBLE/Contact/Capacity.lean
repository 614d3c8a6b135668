import DisruptaBLE.Contact.Node

/-!
# The capacity of a contact over time

`recalculate_contact_capacity` and `contact_get_cur_remaining_capacity`
(`components/ud3tn/node.c`), at the contacts of the router.
-/

namespace ContactRouter

open BundleProcessor

/-! ## Signed sizes -/

theorem toInt_toInt32 (x : UInt32) : x.toInt32.toInt = (x.toNat : Int).bmod (2 ^ 32) :=
  BitVec.toInt_eq_toNat_bmod x.toBitVec

theorem toInt_toInt32_of_lt {x : UInt32} (h : x.toNat < 2 ^ 31) :
    x.toInt32.toInt = x.toNat := by
  rw [toInt_toInt32, Int.bmod_eq_of_le] <;> omega

theorem toInt_toInt32_of_ge {x : UInt32} (h : 2 ^ 31 ≤ x.toNat) : x.toInt32.toInt < 0 := by
  have hlt := x.toNat_lt
  rw [toInt_toInt32, Int.bmod_def]
  omega

/-! ## The capacity of a contact -/

/-- The capacity that `recalculate_contact_capacity` finds for a duration and a bit rate. -/
def newCapacity (c : Contact) (bitrate : UInt32) : UInt64 :=
  min (min (c.toTime - c.fromTime) 0xFFFFFFFF * bitrate.toUInt64) 0x7FFFFFFF

/-- `recalculate_contact_capacity`, with the bit rate of the contact. -/
def recalculateContactCapacity (bitrate : UInt32) (c : Contact) : Contact :=
  let capacityDifference := ((newCapacity c bitrate).toUInt32 - c.totalCapacity).toInt32
  { c with
    totalCapacity := (newCapacity c bitrate).toUInt32
    remainingCapacityP0 := c.remainingCapacityP0 + capacityDifference
    remainingCapacityP1 := c.remainingCapacityP1 + capacityDifference
    remainingCapacityP2 := c.remainingCapacityP2 + capacityDifference }

/-- The router and the routing table see the same times and capacities. -/
structure SameCapacity (d : RoutingTable.Contact) (c : Contact) : Prop where
  fromTime : d.fromTime = c.fromTime
  toTime : d.toTime = c.toTime
  total : d.totalCapacity = c.totalCapacity
  p0 : d.remainingCapacityP0 = c.remainingCapacityP0
  p1 : d.remainingCapacityP1 = c.remainingCapacityP1
  p2 : d.remainingCapacityP2 = c.remainingCapacityP2

/-- What the routing table recalculates is what the router sees. -/
theorem SameCapacity.recalculate {d : RoutingTable.Contact} {c : Contact}
    (h : SameCapacity d c) :
    SameCapacity (RoutingTable.recalculateContactCapacity d)
      (recalculateContactCapacity d.bitrate c) := by
  obtain ⟨hfrom, hto, htotal, h0, h1, h2⟩ := h
  constructor <;>
    simp [RoutingTable.recalculateContactCapacity, recalculateContactCapacity, newCapacity,
      hfrom, hto, htotal, h0, h1, h2]

/-- A new capacity fits into the signed type. -/
theorem newCapacity_lt (c : Contact) (bitrate : UInt32) :
    (newCapacity c bitrate).toNat < 2 ^ 31 := by
  have hle : newCapacity c bitrate ≤ 0x7FFFFFFF := by
    rw [newCapacity, UInt64.min_def]
    split
    · assumption
    · exact UInt64.le_refl _
  have := UInt64.le_iff_toNat_le.1 hle
  simpa using Nat.lt_succ_of_le this

/-- The total capacity of the contact was set by `recalculate_contact_capacity`. -/
def CapacitySet (c : Contact) : Prop :=
  ∃ (bitrate : UInt32) (c' : Contact), c'.fromTime = c.fromTime ∧ c'.toTime = c.toTime ∧
    c.totalCapacity = (recalculateContactCapacity bitrate c').totalCapacity

theorem CapacitySet.total_lt {c : Contact} (h : CapacitySet c) :
    c.totalCapacity.toNat < 2 ^ 31 := by
  obtain ⟨bitrate, c', -, -, hc⟩ := h
  have hlt := newCapacity_lt c' bitrate
  rw [hc]
  show (newCapacity c' bitrate).toUInt32.toNat < 2 ^ 31
  rw [UInt64.toNat_toUInt32, Nat.mod_eq_of_lt (by omega)]
  exact hlt

/-! ## The remaining capacity over time -/

/-- The time left at `t`, and the duration of the contact. -/
def timeLeft (c : Contact) (t : UInt64) : Nat := c.toTime.toNat - t.toNat

/-- The capacity left at `t`, over the integers. -/
def capacityLeft (c : Contact) (prio : RoutingPriority) (t : UInt64) : Int :=
  if c.toTime ≤ t then 0
  else if t ≤ c.fromTime then (contactCapacity c prio).toInt
  else
    min (contactCapacity c prio).toInt
      (c.totalCapacity.toNat * timeLeft c t / timeLeft c c.fromTime : Nat)

/-- The remaining capacity is the share of the time left at every time, and does not grow. -/
structure CapacityOverTime (c : Contact) (prio : RoutingPriority) : Prop where
  value : ∀ t, (contactGetCurRemainingCapacity t c prio).toInt = capacityLeft c prio t
  antitone : 0 ≤ contactCapacity c prio → ∀ t t', t ≤ t' →
    contactGetCurRemainingCapacity t' c prio ≤ contactGetCurRemainingCapacity t c prio

section

variable {c : Contact} {prio : RoutingPriority} {t : UInt64}

theorem remaining_of_ended (h : c.toTime ≤ t) : contactGetCurRemainingCapacity t c prio = 0 := by
  rw [contactGetCurRemainingCapacity, if_pos h]

theorem remaining_of_planned (hft : c.fromTime < c.toTime) (h : t ≤ c.fromTime) :
    contactGetCurRemainingCapacity t c prio = contactCapacity c prio := by
  have hto : ¬c.toTime ≤ t := fun hto =>
    UInt64.not_le.2 (UInt64.lt_of_le_of_lt h hft) hto
  rw [contactGetCurRemainingCapacity, if_neg hto, if_pos h]

/-- While the contact lasts, the share of the time left is computed in 64 bits. -/
theorem remaining_of_running (hset : CapacitySet c) (hto : ¬c.toTime ≤ t)
    (hfrom : ¬t ≤ c.fromTime) :
    (contactGetCurRemainingCapacity t c prio).toInt =
      min (contactCapacity c prio).toInt
        (c.totalCapacity.toNat * timeLeft c t % 2 ^ 64 / timeLeft c c.fromTime : Nat) := by
  have hltTo : t.toNat < c.toTime.toNat := UInt64.lt_iff_toNat_lt.1 (UInt64.not_le.1 hto)
  have hltFrom : c.fromTime.toNat < t.toNat := UInt64.lt_iff_toNat_lt.1 (UInt64.not_le.1 hfrom)
  have htotal := hset.total_lt
  set q := c.totalCapacity.toNat * timeLeft c t % 2 ^ 64 / timeLeft c c.fromTime with hq
  have hqle : q ≤ c.totalCapacity.toNat := by
    have hshare : c.totalCapacity.toNat * timeLeft c t % 2 ^ 64 ≤
        c.totalCapacity.toNat * timeLeft c c.fromTime :=
      (Nat.mod_le _ _).trans (Nat.mul_le_mul_left _ (by unfold timeLeft; omega))
    exact Nat.div_le_of_le_mul (by rwa [Nat.mul_comm (timeLeft _ _)])
  have hleft : (c.totalCapacity.toUInt64 * (c.toTime - t) / (c.toTime - c.fromTime)).toNat = q := by
    rw [UInt64.toNat_div, UInt64.toNat_mul, UInt64.toNat_sub_of_le _ _
      (UInt64.le_of_lt (UInt64.not_le.1 hto)), UInt64.toNat_sub_of_le _ _
      (UInt64.le_iff_toNat_le.2 (by omega)), UInt32.toNat_toUInt64]
    rfl
  have hfits : ¬(0x7FFFFFFF : UInt64) <
      c.totalCapacity.toUInt64 * (c.toTime - t) / (c.toTime - c.fromTime) := by
    rw [UInt64.lt_iff_toNat_lt, hleft, show (0x7FFFFFFF : UInt64).toNat = 0x7FFFFFFF from rfl]
    omega
  have hresult : (c.totalCapacity.toUInt64 * (c.toTime - t) /
      (c.toTime - c.fromTime)).toUInt32.toInt32.toInt = q := by
    have hcut : (c.totalCapacity.toUInt64 * (c.toTime - t) /
        (c.toTime - c.fromTime)).toUInt32.toNat = q := by
      rw [UInt64.toNat_toUInt32, hleft, Nat.mod_eq_of_lt (by omega)]
    rw [toInt_toInt32_of_lt (by omega), hcut]
  rw [contactGetCurRemainingCapacity, if_neg hto, if_neg hfrom]
  simp only [if_neg hfits]
  split
  · next hlt =>
    rw [Int32.lt_iff_toInt_lt, hresult] at hlt
    rw [hresult, min_eq_right (by omega)]
  · next hlt =>
    rw [Int32.lt_iff_toInt_lt, hresult] at hlt
    rw [min_eq_left (by omega)]

/-- Without a product beyond 64 bits, the share of the time left is the one over the integers. -/
theorem remaining_eq_left (hset : CapacitySet c) (hft : c.fromTime < c.toTime)
    (hfits : c.totalCapacity.toNat * (timeLeft c c.fromTime - 1) < 2 ^ 64 ∨
      contactCapacity c prio ≤ 0) :
    (contactGetCurRemainingCapacity t c prio).toInt = capacityLeft c prio t := by
  unfold capacityLeft
  by_cases hto : c.toTime ≤ t
  · rw [if_pos hto, remaining_of_ended hto]
    rfl
  by_cases hfrom : t ≤ c.fromTime
  · rw [if_neg hto, if_pos hfrom, remaining_of_planned hft hfrom]
  rw [if_neg hto, if_neg hfrom, remaining_of_running hset hto hfrom]
  have hltTo := UInt64.lt_iff_toNat_lt.1 (UInt64.not_le.1 hto)
  have hltFrom := UInt64.lt_iff_toNat_lt.1 (UInt64.not_le.1 hfrom)
  obtain hfits | hzero := hfits
  · have hproduct : c.totalCapacity.toNat * timeLeft c t ≤
        c.totalCapacity.toNat * (timeLeft c c.fromTime - 1) :=
      Nat.mul_le_mul_left _ (by unfold timeLeft; omega)
    rw [Nat.mod_eq_of_lt (by omega)]
  · rw [Int32.le_iff_toInt_le] at hzero
    have hzero : (contactCapacity c prio).toInt ≤ 0 := hzero
    rw [min_eq_left (hzero.trans (Int.natCast_nonneg _)),
      min_eq_left (hzero.trans (Int.natCast_nonneg _))]

/-- Over the integers the capacity left does not grow. -/
theorem capacityLeft_antitone (hft : c.fromTime < c.toTime) (hr : 0 ≤ contactCapacity c prio)
    {t' : UInt64} (htt : t ≤ t') : capacityLeft c prio t' ≤ capacityLeft c prio t := by
  have hr : 0 ≤ (contactCapacity c prio).toInt := Int32.le_iff_toInt_le.1 hr
  have htt := UInt64.le_iff_toNat_le.1 htt
  have hft := UInt64.lt_iff_toNat_lt.1 hft
  unfold capacityLeft
  simp only [UInt64.le_iff_toNat_le]
  by_cases hto' : c.toTime.toNat ≤ t'.toNat
  · rw [if_pos hto']
    split
    · exact le_refl _
    split
    · exact hr
    · exact le_min hr (Int.natCast_nonneg _)
  have hto : ¬c.toTime.toNat ≤ t.toNat := by omega
  rw [if_neg hto', if_neg hto]
  by_cases hfrom' : t'.toNat ≤ c.fromTime.toNat
  · rw [if_pos hfrom', if_pos (by omega)]
  rw [if_neg hfrom']
  split
  · exact min_le_left _ _
  · apply min_le_min_left
    have hleft : timeLeft c t' ≤ timeLeft c t := by
      unfold timeLeft
      omega
    exact_mod_cast Nat.div_le_div_right (Nat.mul_le_mul_left _ hleft)

/-- With a product beyond 64 bits, there is a time at which nothing is left by the code, but
something over the integers. -/
theorem exists_time_lost (hset : CapacitySet c) (hr : 0 < contactCapacity c prio)
    (hlong : 2 ^ 64 ≤ c.totalCapacity.toNat * (timeLeft c c.fromTime - 1)) :
    ∃ t, (contactGetCurRemainingCapacity t c prio).toInt ≠ capacityLeft c prio t := by
  have hr : 0 < (contactCapacity c prio).toInt := Int32.lt_iff_toInt_lt.1 hr
  have htotal := hset.total_lt
  have hto := c.toTime.toNat_lt
  set T := c.totalCapacity.toNat with hT
  set D := timeLeft c c.fromTime with hD
  have hpos : 0 < T := by
    rcases Nat.eq_zero_or_pos T with h0 | h0
    · rw [h0] at hlong
      omega
    · exact h0
  -- the smallest time left at which the product leaves the 64 bits
  obtain ⟨q, r, hqr, hrT⟩ : ∃ q r, T * q + r = 2 ^ 64 - 1 ∧ r < T :=
    ⟨_, _, Nat.div_add_mod _ T, Nat.mod_lt _ hpos⟩
  have hlarge : 2 ^ 33 ≤ q := by
    by_contra hlt
    have := Nat.mul_le_mul (show T ≤ 2 ^ 31 - 1 by omega) (show q ≤ 2 ^ 33 - 1 by omega)
    omega
  obtain ⟨k, hk⟩ : ∃ k, k = q + 1 := ⟨_, rfl⟩
  have hproduct : T * k = T * q + T := by rw [hk, Nat.mul_add, Nat.mul_one]
  have hkD : k < D := by
    by_contra hle
    have := Nat.mul_le_mul_left T (show D - 1 ≤ q by omega)
    omega
  have hDto : D ≤ c.toTime.toNat := by
    rw [hD]
    exact Nat.sub_le _ _
  have htime : (UInt64.ofNat (c.toTime.toNat - k)).toNat = c.toTime.toNat - k := by
    rw [UInt64.toNat_ofNat_of_lt' (by rw [UInt64.size]; omega)]
  have hleft : timeLeft c (UInt64.ofNat (c.toTime.toNat - k)) = k := by
    rw [timeLeft, htime]
    omega
  refine ⟨UInt64.ofNat (c.toTime.toNat - k), ?_⟩
  have hend : ¬c.toTime ≤ UInt64.ofNat (c.toTime.toNat - k) := by
    rw [UInt64.le_iff_toNat_le, htime]
    omega
  have hbegin : ¬UInt64.ofNat (c.toTime.toNat - k) ≤ c.fromTime := by
    rw [UInt64.le_iff_toNat_le, htime]
    have : D = c.toTime.toNat - c.fromTime.toNat := rfl
    omega
  rw [remaining_of_running hset hend hbegin, capacityLeft, if_neg hend, if_neg hbegin, hleft]
  have hcut : T * k % 2 ^ 64 / D = 0 := by
    apply Nat.div_eq_of_lt
    rw [Nat.mod_eq_sub_mod (by omega), Nat.mod_eq_of_lt (by omega)]
    omega
  have hshare : 1 ≤ T * k / D := (Nat.one_le_div_iff (by omega)).2 (by omega)
  rw [hcut]
  generalize T * k / D = share at hshare
  omega

end

/-- The remaining capacity follows the time left, for every total capacity that was set by
`recalculate_contact_capacity`, if and only if the product of the capacity and the time left
never leaves the 64 bits, or nothing remains for the priority. -/
theorem capacity_over_time_iff (c : Contact) (prio : RoutingPriority) (hset : CapacitySet c)
    (hft : c.fromTime < c.toTime) :
    CapacityOverTime c prio ↔
      c.totalCapacity.toNat * (timeLeft c c.fromTime - 1) < 2 ^ 64 ∨
        contactCapacity c prio ≤ 0 := by
  constructor
  · intro h
    by_contra hno
    rw [not_or, Nat.not_lt, Int32.not_le] at hno
    obtain ⟨t, ht⟩ := exists_time_lost hset hno.2 hno.1
    exact ht (h.value t)
  · intro hfits
    have hvalue : ∀ t, (contactGetCurRemainingCapacity t c prio).toInt = capacityLeft c prio t :=
      fun t => remaining_eq_left hset hft hfits
    refine ⟨hvalue, fun hr t t' htt => ?_⟩
    rw [Int32.le_iff_toInt_le, hvalue, hvalue]
    exact capacityLeft_antitone hft hr htt

/-- A contact from 0 on, with the capacity of its bit rate and no bundle. -/
def emptyContact (toTime : UInt64) (bitrate : UInt32) : Contact :=
  recalculateContactCapacity bitrate
    { trustworthiness := 1
      reliability := 1
      claMbs := none
      fromTime := 0
      toTime
      totalCapacity := 0
      remainingCapacityP0 := 0
      remainingCapacityP1 := 0
      remainingCapacityP2 := 0
      contactBundles := []
      bundleCount := 0 }

theorem emptyContact_set (toTime : UInt64) (bitrate : UInt32) :
    CapacitySet (emptyContact toTime bitrate) :=
  ⟨bitrate, emptyContact toTime bitrate, rfl, rfl, rfl⟩

/-- An hour at 1000 bytes each second. -/
theorem capacity_over_time_iff_hour : CapacityOverTime (emptyContact 3600 1000) .normal :=
  (capacity_over_time_iff (emptyContact 3600 1000) .normal (emptyContact_set 3600 1000)
    (by decide)).2 (Or.inl (by decide))

/-- A contact of 2 ^ 34 seconds: with 8589934597 seconds left the product is 2 ^ 64 and more, and
the code finds nothing left, while it is a half of the capacity. -/
theorem long_contact_lost :
    CapacitySet (emptyContact 17179869184 1) ∧
      (emptyContact 17179869184 1).fromTime < (emptyContact 17179869184 1).toTime ∧
      contactGetCurRemainingCapacity 8589934587 (emptyContact 17179869184 1) .normal = 0 ∧
      capacityLeft (emptyContact 17179869184 1) .normal 8589934587 = 1073741824 ∧
      ¬CapacityOverTime (emptyContact 17179869184 1) .normal := by
  have hcode :
      contactGetCurRemainingCapacity 8589934587 (emptyContact 17179869184 1) .normal = 0 := by
    decide
  have hleft : capacityLeft (emptyContact 17179869184 1) .normal 8589934587 = 1073741824 := by
    decide
  refine ⟨emptyContact_set _ _, by decide, hcode, hleft, fun h => ?_⟩
  have hvalue := h.value 8589934587
  rw [hcode, hleft] at hvalue
  exact absurd hvalue (by decide)

end ContactRouter
