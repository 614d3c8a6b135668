import DisruptaBLE.Contact.Capacity
import DisruptaBLE.Contact.RouterRuns

/-!
# The plan for fragments

The payload sizes that `router_get_first_route_frag` (`components/routing/contact/router.c`) plans
for the fragments of a bundle.

The loop bounds the payload by the header of the next fragment, takes the rest for the last
fragment by the header of the last one, and the first fragment has a header of its own.
`fragment_plan_iff` says for which sizes these agree.  The search for the route of one fragment is
a parameter; with `router_calculate_fragment_route` in its place, this is the search of the router
(`routerGetFirstRouteFrag_eq`).
-/

namespace ContactRouter

open BundleProcessor

/-! ## The search -/

/-- The search for the route of a fragment: with the payload, the size of the fragment, and the
bytes that the earlier fragments take. -/
abbrev RouteSearch := UInt32 → UInt32 → UInt32 → Bool × FragmentRoute

/-- The header of the fragment with this index. -/
def headerSize (firstFragSz midFragSz lastFragSz : UInt32) (index fragments : Nat) : UInt32 :=
  if index = 0 then firstFragSz else if index + 1 = fragments then lastFragSz else midFragSz

/-- The second loop of `router_get_first_route_frag`, from the fragment with this index on. -/
def fragmentRoutesBy (search : RouteSearch) (firstFragSz midFragSz lastFragSz : UInt32) :
    Nat → UInt32 → List UInt32 → Bool × List FragmentRoute
  | _, _, [] => (true, [])
  | index, processedSz, payloadSize :: rest =>
      let bundleSize := payloadSize +
        (if index = 0 then firstFragSz else if rest = [] then lastFragSz else midFragSz)
      let (found, route) := search payloadSize bundleSize processedSz
      let (all, routes) := fragmentRoutesBy search firstFragSz midFragSz lastFragSz (index + 1)
        (processedSz + bundleSize) rest
      (found && all, route :: routes)

/-- `router_get_first_route_frag`. -/
def routerGetFirstRouteFragBy (rc : RouterConfig) (search : RouteSearch) (payloadLength : UInt32)
    (maxFragSz firstFragSz midFragSz lastFragSz : UInt32) : RouterResult :=
  if maxFragSz < firstFragSz || maxFragSz < lastFragSz then .none
  else
    let (sizes, remainingPay) := payloadSizes rc maxFragSz midFragSz lastFragSz
      routerMaxFragments firstFragSz payloadLength
    if remainingPay ≠ 0 then .none
    else
      let (found, routes) := fragmentRoutesBy search firstFragSz midFragSz lastFragSz 0 0 sizes
      if found then
        ⟨routes.foldl (fun p r => p * r.probability) 1, routes,
          routes.foldl (fun n r => n + r.preemptionImproved) 0⟩
      else .none

/-- The search of the router. -/
def fragmentSearch (rc : RouterConfig) (now : UInt64) (contacts : Nat → Contact)
    (assoc : List AssociatedContact) (b : Bundle) (expirationTime : UInt64) : RouteSearch :=
  fun payloadSize size processedSz => routerCalculateFragmentRoute rc now contacts payloadSize size
    assoc processedSz (bundleGetRoutingPriority b) expirationTime []

section

variable (rc : RouterConfig) (now : UInt64) (contacts : Nat → Contact)
  (assoc : List AssociatedContact) (b : Bundle) (expirationTime : UInt64)

theorem fragmentRoutes_eq (firstFragSz midFragSz lastFragSz : UInt32) (sizes : List UInt32)
    (index : Nat) (processedSz : UInt32) :
    fragmentRoutes rc now contacts assoc (bundleGetRoutingPriority b) expirationTime
        firstFragSz midFragSz lastFragSz index processedSz sizes =
      fragmentRoutesBy (fragmentSearch rc now contacts assoc b expirationTime) firstFragSz
        midFragSz lastFragSz index processedSz sizes := by
  induction sizes generalizing index processedSz with
  | nil => rfl
  | cons payloadSize rest ih =>
      rw [fragmentRoutes, fragmentRoutesBy]
      simp only [ih]
      rfl

theorem routerGetFirstRouteFrag_eq (maxFragSz firstFragSz midFragSz lastFragSz : UInt32) :
    routerGetFirstRouteFrag rc now contacts assoc b expirationTime maxFragSz firstFragSz midFragSz
        lastFragSz =
      routerGetFirstRouteFragBy rc (fragmentSearch rc now contacts assoc b expirationTime)
        b.payloadLength maxFragSz firstFragSz midFragSz lastFragSz := by
  rw [routerGetFirstRouteFrag, routerGetFirstRouteFragBy]
  simp only [fragmentRoutes_eq]

/-- The search does not change the payload of the fragment. -/
theorem payloadSize_collectContacts {size preprocessedSize : UInt32} {priority : RoutingPriority}
    {excluded : List Nat} {res : FragmentRoute} {xs : List AssociatedContact} :
    (collectContacts rc now contacts size priority expirationTime excluded preprocessedSize res
      xs).payloadSize = res.payloadSize := by
  induction xs generalizing preprocessedSize res with
  | nil => rfl
  | cons x xs ih =>
      unfold collectContacts
      dsimp only
      split
      · rfl
      split
      · exact ih
      split
      · exact ih
      split
      · exact ih
      split
      · rfl
      split
      · exact ih
      · exact ih

/-- The route that is found is one for the payload. -/
def KeepsPayload (search : RouteSearch) : Prop :=
  ∀ payloadSize size processedSz, (search payloadSize size processedSz).2.payloadSize = payloadSize

theorem keepsPayload_fragmentSearch :
    KeepsPayload (fragmentSearch rc now contacts assoc b expirationTime) :=
  fun _ _ _ => payloadSize_collectContacts rc now contacts expirationTime

end

/-! ## Sound plans -/

section

variable (rc : RouterConfig) (maxFragSz midFragSz lastFragSz : UInt32)

/-- No subtraction and no conversion of the first loop wraps. -/
def LoopExact : Nat → UInt32 → UInt32 → Prop
  | 0, _, _ => True
  | n + 1, nextFragSz, remainingPay =>
      remainingPay = 0 ∨
        nextFragSz ≤ maxFragSz ∧ (maxFragSz - nextFragSz).toNat < 2 ^ 31 ∧
          ((maxFragSz - nextFragSz).toInt32 <
              (min remainingPay rc.fragmentMinPayload.toUInt32).toInt32 ∨
            lastFragSz ≤ maxFragSz ∧
              (remainingPay ≤ maxFragSz - lastFragSz ∨
                remainingPay.toNat < 2 ^ 31 ∧
                  let pay := (min remainingPay.toInt32 (maxFragSz - nextFragSz).toInt32).toUInt32
                  pay ≤ remainingPay ∧ LoopExact n midFragSz (remainingPay - pay)))

end

/-- The payload sizes of a sound plan. -/
structure PlanSound (rc : RouterConfig) (payloadLength maxFragSz firstFragSz midFragSz
    lastFragSz : UInt32) (sizes : List UInt32) : Prop where
  count : sizes.length ≤ routerMaxFragments
  positive : ∀ x ∈ sizes, 0 < x.toNat
  sum : (sizes.map UInt32.toNat).sum = payloadLength.toNat
  fits : ∀ (i : Nat) (hi : i < sizes.length), sizes[i].toNat +
    (headerSize firstFragSz midFragSz lastFragSz i sizes.length).toNat ≤ maxFragSz.toNat
  exact : payloadLength.toNat < 2 ^ 31 →
    LoopExact rc maxFragSz midFragSz lastFragSz routerMaxFragments firstFragSz payloadLength

section

variable {rc : RouterConfig} {maxFragSz firstFragSz midFragSz lastFragSz : UInt32}

theorem le_toInt32_iff {x y : UInt32} (hx : x.toNat < 2 ^ 31) (hy : y.toNat < 2 ^ 31) :
    x.toInt32 ≤ y.toInt32 ↔ x.toNat ≤ y.toNat := by
  rw [Int32.le_iff_toInt_le, toInt_toInt32_of_lt hx, toInt_toInt32_of_lt hy]
  omega

/-- A rest with a sign of its own is bounded by the room in the fragment. -/
theorem toNat_pay {rem room : UInt32} (hrem : rem.toNat < 2 ^ 31) (hroom : room.toNat < 2 ^ 31) :
    (min rem.toInt32 room.toInt32).toUInt32.toNat = min rem.toNat room.toNat := by
  have hle := le_toInt32_iff hrem hroom
  show (if rem.toInt32 ≤ room.toInt32 then rem.toInt32 else room.toInt32).toUInt32.toNat = _
  split
  · next h => rw [UInt32.toUInt32_toInt32, Nat.min_eq_left (hle.1 h)]
  · next h =>
    have hlt := Nat.not_le.1 (mt hle.2 h)
    rw [UInt32.toUInt32_toInt32, Nat.min_eq_right (Nat.le_of_lt hlt)]

/-- A rest from 2 ^ 31 on is negative, and so it is less than all room. -/
theorem pay_of_large {rem room : UInt32} (hrem : 2 ^ 31 ≤ rem.toNat)
    (hroom : room.toNat < 2 ^ 31) : (min rem.toInt32 room.toInt32).toUInt32 = rem := by
  have hle : rem.toInt32 ≤ room.toInt32 := by
    rw [Int32.le_iff_toInt_le, toInt_toInt32_of_lt hroom]
    have := toInt_toInt32_of_ge hrem
    omega
  show (if rem.toInt32 ≤ room.toInt32 then rem.toInt32 else room.toInt32).toUInt32 = _
  rw [if_pos hle, UInt32.toUInt32_toInt32]

theorem payloadSizes_zero (n : Nat) (nextFragSz : UInt32) :
    payloadSizes rc maxFragSz midFragSz lastFragSz n nextFragSz 0 = ([], 0) := by
  cases n with
  | zero => rfl
  | succ n => rw [payloadSizes, if_pos rfl]

theorem length_payloadSizes (n : Nat) (nextFragSz rem : UInt32) :
    (payloadSizes rc maxFragSz midFragSz lastFragSz n nextFragSz rem).1.length ≤ n := by
  induction n generalizing nextFragSz rem with
  | zero => exact Nat.le_refl _
  | succ n ih =>
      rw [payloadSizes]
      dsimp only
      split
      · exact Nat.zero_le _
      split
      · exact Nat.zero_le _
      split
      · exact Nat.succ_le_succ (Nat.zero_le _)
      · exact Nat.succ_le_succ (ih _ _)

theorem toNat_min (x y : UInt32) : (min x y).toNat = min x.toNat y.toNat := by
  show (if x ≤ y then x else y).toNat = _
  split
  · next h => rw [Nat.min_eq_left (UInt32.le_iff_toNat_le.1 h)]
  · next h => rw [Nat.min_eq_right (by rw [UInt32.le_iff_toNat_le] at h; omega)]

/-- What one turn of the loop does when the whole payload is placed. -/
theorem payloadSizes_succ {n : Nat} {nextFragSz rem : UInt32} {sizes : List UInt32}
    (hrem : rem ≠ 0)
    (h : payloadSizes rc maxFragSz midFragSz lastFragSz (n + 1) nextFragSz rem = (sizes, 0)) :
    (maxFragSz - nextFragSz).toNat < 2 ^ 31 ∧
      ¬(maxFragSz - nextFragSz).toInt32 < (min rem rc.fragmentMinPayload.toUInt32).toInt32 ∧
      (rem ≤ maxFragSz - lastFragSz ∧ sizes = [rem] ∨
        ¬rem ≤ maxFragSz - lastFragSz ∧ ∃ rest,
          let pay := (min rem.toInt32 (maxFragSz - nextFragSz).toInt32).toUInt32
          sizes = pay :: rest ∧ payloadSizes rc maxFragSz midFragSz lastFragSz n midFragSz
            (rem - pay) = (rest, 0)) := by
  rw [payloadSizes, if_neg hrem] at h
  dsimp only at h
  by_cases hmin : (maxFragSz - nextFragSz).toInt32 <
      (min rem rc.fragmentMinPayload.toUInt32).toInt32
  · rw [if_pos hmin] at h
    exact absurd (Prod.mk.inj h).2 hrem
  rw [if_neg hmin] at h
  refine ⟨?_, hmin, ?_⟩
  · have hsmall : (min rem rc.fragmentMinPayload.toUInt32).toNat < 2 ^ 31 := by
      have hpayload : rc.fragmentMinPayload.toUInt32.toNat < 2 ^ 16 :=
        rc.fragmentMinPayload.toNat_lt
      rw [toNat_min]
      omega
    rw [Int32.lt_iff_toInt_lt, toInt_toInt32_of_lt hsmall] at hmin
    by_contra hge
    have hneg := toInt_toInt32_of_ge (Nat.not_lt.1 hge)
    omega
  · by_cases hlast : rem ≤ maxFragSz - lastFragSz
    · rw [if_pos hlast] at h
      exact Or.inl ⟨hlast, (Prod.mk.inj h).1.symm⟩
    · rw [if_neg hlast] at h
      obtain ⟨hsizes, hrest⟩ := Prod.mk.inj h
      exact Or.inr ⟨hlast, _, hsizes.symm, Prod.ext rfl hrest⟩

/-- The fragments behind the first one with their headers. -/
def TailFits (maxFragSz midFragSz lastFragSz : UInt32) : List UInt32 → Prop
  | [] => True
  | [x] => x.toNat + lastFragSz.toNat ≤ maxFragSz.toNat
  | x :: y :: rest =>
      x.toNat + midFragSz.toNat ≤ maxFragSz.toNat ∧
        TailFits maxFragSz midFragSz lastFragSz (y :: rest)

/-- **The fragments behind the first one**: they are positive, add up to the rest and keep the loop
exact, and fit if and only if what the fragments in the middle leave fits into the last one. -/
theorem payloadSizes_tail (hmid : midFragSz ≤ maxFragSz) (hlast : lastFragSz ≤ maxFragSz)
    {n : Nat} {rem : UInt32} {sizes : List UInt32} (hpos : rem ≠ 0) (hrem : rem.toNat < 2 ^ 31)
    (h : payloadSizes rc maxFragSz midFragSz lastFragSz n midFragSz rem = (sizes, 0)) :
    sizes ≠ [] ∧ (∀ x ∈ sizes, 0 < x.toNat) ∧ (sizes.map UInt32.toNat).sum = rem.toNat ∧
      LoopExact rc maxFragSz midFragSz lastFragSz n midFragSz rem ∧
      (TailFits maxFragSz midFragSz lastFragSz sizes ↔
        (rem.toNat - 1) % (maxFragSz.toNat - midFragSz.toNat) + 1 ≤
          maxFragSz.toNat - lastFragSz.toNat) ∧
      (rem.toNat ≤ maxFragSz.toNat - lastFragSz.toNat ∨ midFragSz < maxFragSz) := by
  have hroom := UInt32.toNat_sub_of_le _ _ hmid
  have hroomLast := UInt32.toNat_sub_of_le _ _ hlast
  have hmid' := UInt32.le_iff_toNat_le.1 hmid
  have hlast' := UInt32.le_iff_toNat_le.1 hlast
  have hpos' : 0 < rem.toNat := Nat.pos_of_ne_zero fun h0 => hpos (UInt32.toNat_inj.1 h0)
  induction n generalizing rem sizes with
  | zero => exact absurd (Prod.mk.inj h).2 hpos
  | succ n ih =>
      obtain ⟨hsmall, -, ⟨hfit, rfl⟩ | ⟨hlarge, rest, rfl, hrest⟩⟩ := payloadSizes_succ hpos h
      · -- the rest is taken for the last fragment
        have hfit' := UInt32.le_iff_toNat_le.1 hfit
        rw [hroomLast] at hfit'
        refine ⟨List.cons_ne_nil _ _, fun x hx => ?_, by simp, ?_, ?_, Or.inl hfit'⟩
        · rwa [List.mem_singleton.1 hx]
        · exact Or.inr ⟨hmid, hsmall, Or.inr ⟨hlast, Or.inl hfit⟩⟩
        · have hmod := Nat.mod_le (rem.toNat - 1) (maxFragSz.toNat - midFragSz.toNat)
          refine iff_of_true ?_ (by omega)
          show rem.toNat + lastFragSz.toNat ≤ maxFragSz.toNat
          omega
      · have hpay := toNat_pay hrem hsmall
        have hlarge' : maxFragSz.toNat - lastFragSz.toNat < rem.toNat := by
          rw [UInt32.le_iff_toNat_le, hroomLast] at hlarge
          omega
        rw [hroom] at hpay
        generalize hp : (min rem.toInt32 (maxFragSz - midFragSz).toInt32).toUInt32 = pay at *
        have hle : pay ≤ rem := UInt32.le_iff_toNat_le.2 (by omega)
        have hsub := UInt32.toNat_sub_of_le _ _ hle
        have hexact (hloop : LoopExact rc maxFragSz midFragSz lastFragSz n midFragSz (rem - pay)) :
            LoopExact rc maxFragSz midFragSz lastFragSz (n + 1) midFragSz rem := by
          refine Or.inr ⟨hmid, hsmall, Or.inr ⟨hlast, Or.inr ⟨hrem, ?_⟩⟩⟩
          rw [hp]
          exact ⟨hle, hloop⟩
        by_cases hdone : rem.toNat ≤ maxFragSz.toNat - midFragSz.toNat
        · -- the fragment takes the rest, though the header of the last one would be too large
          have hzero : rem - pay = 0 := UInt32.toNat_inj.1 (by rw [hsub]; show _ = 0; omega)
          rw [hzero, payloadSizes_zero] at hrest
          obtain rfl : rest = [] := (Prod.mk.inj hrest).1.symm
          refine ⟨List.cons_ne_nil _ _, fun x hx => ?_, ?_, hexact ?_, ?_, Or.inr ?_⟩
          · rw [List.mem_singleton.1 hx]
            omega
          · simp only [List.map_cons, List.map_nil, List.sum_cons, List.sum_nil]
            omega
          · rw [hzero]
            cases n with
            | zero => trivial
            | succ n => exact Or.inl rfl
          · rw [Nat.mod_eq_of_lt (by omega)]
            refine iff_of_false ?_ (by omega)
            show ¬pay.toNat + lastFragSz.toNat ≤ maxFragSz.toNat
            omega
          · exact UInt32.lt_iff_toNat_lt.2 (by omega)
        · have hnext : rem - pay ≠ 0 := fun h0 => by
            rw [h0] at hsub
            have : (0 : UInt32).toNat = 0 := rfl
            omega
          have hnext' : 0 < (rem - pay).toNat :=
            Nat.pos_of_ne_zero fun h0 => hnext (UInt32.toNat_inj.1 h0)
          obtain ⟨hne, hposRest, hsum, hloop, hfits, hroomy⟩ :=
            ih hnext (by omega) hrest hnext'
          -- a fragment without room for payload would be planned again and again
          have hwide : midFragSz < maxFragSz := by
            obtain hfit | hwide := hroomy
            · by_contra hno
              rw [UInt32.lt_iff_toNat_lt] at hno
              omega
            · exact hwide
          have hwide' := UInt32.lt_iff_toNat_lt.1 hwide
          refine ⟨List.cons_ne_nil _ _, fun x hx => ?_, ?_, hexact hloop, ?_, Or.inr hwide⟩
          · rcases List.mem_cons.1 hx with rfl | hx
            · omega
            · exact hposRest x hx
          · simp only [List.map_cons, List.sum_cons, hsum]
            omega
          · obtain ⟨y, ys, rfl⟩ := List.exists_cons_of_ne_nil hne
            have hhead : pay.toNat + midFragSz.toNat ≤ maxFragSz.toNat := by omega
            rw [TailFits, and_iff_right hhead, hfits, hsub,
              Nat.mod_eq_sub_mod (a := rem.toNat - 1) (by omega)]
            rw [show rem.toNat - pay.toNat - 1 =
              rem.toNat - 1 - (maxFragSz.toNat - midFragSz.toNat) by omega]

/-- The fragments behind the first one fit when each fits with its header. -/
theorem tailFits_iff (l : List UInt32) :
    TailFits maxFragSz midFragSz lastFragSz l ↔ ∀ (i : Nat) (hi : i < l.length),
      l[i].toNat + (if i + 1 = l.length then lastFragSz else midFragSz).toNat ≤
        maxFragSz.toNat := by
  induction l with
  | nil => exact iff_of_true trivial fun i hi => absurd hi (Nat.not_lt_zero i)
  | cons x l ih =>
      cases l with
      | nil =>
          constructor
          · intro h i hi
            obtain rfl : i = 0 := Nat.lt_one_iff.1 hi
            exact h
          · exact fun h => h 0 Nat.one_pos
      | cons y l =>
          rw [TailFits, ih]
          constructor
          · rintro ⟨hx, hrest⟩ i hi
            cases i with
            | zero => exact hx
            | succ i =>
                have hi' : i < (y :: l).length := Nat.lt_of_succ_lt_succ hi
                simpa only [List.length_cons, Nat.add_right_cancel_iff, List.getElem_cons_succ]
                  using hrest i hi'
          · intro h
            refine ⟨h 0 (Nat.succ_pos _), fun i hi => ?_⟩
            simpa only [List.length_cons, Nat.add_right_cancel_iff, List.getElem_cons_succ]
              using h (i + 1) (Nat.succ_lt_succ hi)

/-- All fragments fit when the first one does, and the ones behind it. -/
theorem fits_cons_iff (x : UInt32) (l : List UInt32) :
    (∀ (i : Nat) (hi : i < (x :: l).length), (x :: l)[i].toNat +
        (headerSize firstFragSz midFragSz lastFragSz i (x :: l).length).toNat ≤ maxFragSz.toNat) ↔
      x.toNat + firstFragSz.toNat ≤ maxFragSz.toNat ∧
        TailFits maxFragSz midFragSz lastFragSz l := by
  rw [tailFits_iff]
  constructor
  · intro h
    refine ⟨h 0 (Nat.succ_pos _), fun i hi => ?_⟩
    have := h (i + 1) (Nat.succ_lt_succ hi)
    simpa only [headerSize, Nat.succ_ne_zero, if_false, List.length_cons,
      Nat.add_right_cancel_iff, List.getElem_cons_succ] using this
  · rintro ⟨hx, hrest⟩ i hi
    cases i with
    | zero => exact hx
    | succ i =>
        have := hrest i (Nat.lt_of_succ_lt_succ hi)
        simpa only [headerSize, Nat.succ_ne_zero, if_false, List.length_cons,
          Nat.add_right_cancel_iff, List.getElem_cons_succ] using this

/-- The sizes for which the headers that the loop reckons with are those that the fragments get:
the payload fits behind the first header, or behind none of the headers at the ends, with a last
fragment that takes what the ones in the middle leave. -/
def HeadersAgree (payloadLength maxFragSz firstFragSz midFragSz lastFragSz : Nat) : Prop :=
  payloadLength ≤ maxFragSz - firstFragSz ∨
    maxFragSz - lastFragSz < payloadLength ∧ payloadLength < 2 ^ 31 ∧ firstFragSz < maxFragSz ∧
      midFragSz ≤ maxFragSz ∧
      (payloadLength - (maxFragSz - firstFragSz) - 1) % (maxFragSz - midFragSz) + 1 ≤
        maxFragSz - lastFragSz

/-- The plan of the first loop is sound for these sizes only. -/
theorem planSound_iff (hfirst : firstFragSz ≤ maxFragSz) (hlast : lastFragSz ≤ maxFragSz)
    {payloadLength : UInt32} {sizes : List UInt32} (hne : sizes ≠ [])
    (h : payloadSizes rc maxFragSz midFragSz lastFragSz routerMaxFragments firstFragSz
      payloadLength = (sizes, 0)) :
    PlanSound rc payloadLength maxFragSz firstFragSz midFragSz lastFragSz sizes ↔
      HeadersAgree payloadLength.toNat maxFragSz.toNat firstFragSz.toNat midFragSz.toNat
        lastFragSz.toNat := by
  have hroom := UInt32.toNat_sub_of_le _ _ hfirst
  have hroomLast := UInt32.toNat_sub_of_le _ _ hlast
  have hfirst' := UInt32.le_iff_toNat_le.1 hfirst
  have hlast' := UInt32.le_iff_toNat_le.1 hlast
  have hcount := @length_payloadSizes rc maxFragSz midFragSz lastFragSz routerMaxFragments
    firstFragSz payloadLength
  rw [h] at hcount
  have hpos : payloadLength ≠ 0 := by
    rintro rfl
    rw [payloadSizes_zero] at h
    exact hne (Prod.mk.inj h).1.symm
  have hpos' : 0 < payloadLength.toNat :=
    Nat.pos_of_ne_zero fun h0 => hpos (UInt32.toNat_inj.1 h0)
  -- a single fragment is sound when it fits behind the first header
  have hsingle (hexact : payloadLength.toNat < 2 ^ 31 →
      LoopExact rc maxFragSz midFragSz lastFragSz routerMaxFragments firstFragSz payloadLength)
      (hsizes : sizes = [payloadLength]) :
      PlanSound rc payloadLength maxFragSz firstFragSz midFragSz lastFragSz sizes ↔
        payloadLength.toNat ≤ maxFragSz.toNat - firstFragSz.toNat := by
    subst hsizes
    constructor
    · intro hsound
      have := ((fits_cons_iff _ _).1 hsound.fits).1
      omega
    · intro hle
      refine ⟨hcount, fun x hx => ?_, by simp, (fits_cons_iff _ _).2 ⟨by omega, trivial⟩, hexact⟩
      rwa [List.mem_singleton.1 hx]
  unfold HeadersAgree
  obtain ⟨hsmall, hlong, ⟨hfit, hsizes⟩ | ⟨hlarge, rest, hsizes, hrest⟩⟩ :=
    payloadSizes_succ hpos h
  · have hfit' := UInt32.le_iff_toNat_le.1 hfit
    rw [hroomLast] at hfit'
    rw [hsingle (fun _ => Or.inr ⟨hfirst, hsmall, Or.inr ⟨hlast, Or.inl hfit⟩⟩) hsizes]
    omega
  have hlarge' : maxFragSz.toNat - lastFragSz.toNat < payloadLength.toNat := by
    rw [UInt32.le_iff_toNat_le, hroomLast] at hlarge
    omega
  by_cases hbig : 2 ^ 31 ≤ payloadLength.toNat
  · -- the rest is negative as a signed number, and all of it becomes the first fragment
    have hpay := pay_of_large hbig hsmall
    rw [hpay] at hsizes hrest
    rw [UInt32.sub_self, payloadSizes_zero] at hrest
    obtain rfl : rest = [] := (Prod.mk.inj hrest).1.symm
    rw [hsingle (fun hlt => absurd hlt (Nat.not_lt.2 hbig)) hsizes]
    omega
  have hrem : payloadLength.toNat < 2 ^ 31 := Nat.lt_of_not_le hbig
  have hpay := toNat_pay hrem hsmall
  rw [hroom] at hpay
  generalize hp : (min payloadLength.toInt32 (maxFragSz - firstFragSz).toInt32).toUInt32 = pay at *
  have hle : pay ≤ payloadLength := UInt32.le_iff_toNat_le.2 (by omega)
  have hsub := UInt32.toNat_sub_of_le _ _ hle
  have hexact (hloop : LoopExact rc maxFragSz midFragSz lastFragSz 9 midFragSz
      (payloadLength - pay)) : LoopExact rc maxFragSz midFragSz lastFragSz routerMaxFragments
        firstFragSz payloadLength := by
    refine Or.inr ⟨hfirst, hsmall, Or.inr ⟨hlast, Or.inr ⟨hrem, ?_⟩⟩⟩
    rw [hp]
    exact ⟨hle, hloop⟩
  by_cases hdone : payloadLength.toNat ≤ maxFragSz.toNat - firstFragSz.toNat
  · have hall : pay = payloadLength := UInt32.toNat_inj.1 (by omega)
    subst hall
    rw [UInt32.sub_self, payloadSizes_zero] at hrest
    obtain rfl : rest = [] := (Prod.mk.inj hrest).1.symm
    rw [UInt32.sub_self] at hexact
    rw [hsingle (fun _ => hexact (Or.inl rfl)) hsizes]
    exact ⟨Or.inl, fun _ => hdone⟩
  have hnext : payloadLength - pay ≠ 0 := fun h0 => by
    rw [h0] at hsub
    have : (0 : UInt32).toNat = 0 := rfl
    omega
  subst hsizes
  by_cases hmid : midFragSz ≤ maxFragSz
  · obtain ⟨-, hposRest, hsum, hloop, hfits, -⟩ :=
      payloadSizes_tail hmid hlast hnext (by omega) hrest
    have hmid' := UInt32.le_iff_toNat_le.1 hmid
    rw [hsub, hpay, Nat.min_eq_right (by omega)] at hfits
    constructor
    · intro hsound
      have hfirstPos := hsound.positive pay List.mem_cons_self
      exact Or.inr ⟨hlarge', hrem, by omega, hmid',
        hfits.1 ((fits_cons_iff _ _).1 hsound.fits).2⟩
    · rintro (hno | ⟨-, -, hwide, -, hmod⟩)
      · exact absurd hno hdone
      · refine ⟨hcount, fun x hx => ?_, ?_, ?_, fun _ => hexact hloop⟩
        · rcases List.mem_cons.1 hx with rfl | hx
          · omega
          · exact hposRest x hx
        · simp only [List.map_cons, List.sum_cons, hsum]
          omega
        · exact (fits_cons_iff _ _).2 ⟨by omega, hfits.2 hmod⟩
  · constructor
    · intro hsound
      -- the second turn subtracts a header that is larger than the fragment
      obtain hzero | ⟨-, -, hshort | ⟨-, hfit | ⟨-, -, hloop⟩⟩⟩ := hsound.exact hrem
      · exact absurd hzero hpos
      · exact absurd hshort hlong
      · exact absurd hfit hlarge
      · rw [hp] at hloop
        obtain hzero | ⟨hmid', -⟩ := hloop
        · exact absurd hzero hnext
        · exact absurd hmid' hmid
    · rintro (hno | ⟨-, -, -, hmid', -⟩)
      · exact absurd hno hdone
      · exact absurd (UInt32.le_iff_toNat_le.2 hmid') hmid

/-- The routes are as many as the payload sizes, each for its own. -/
theorem payloadSizes_routes {search : RouteSearch} (hsearch : KeepsPayload search)
    (sizes : List UInt32) (index : Nat) (processedSz : UInt32) :
    (fragmentRoutesBy search firstFragSz midFragSz lastFragSz index processedSz sizes).2.map
      (·.payloadSize) = sizes := by
  induction sizes generalizing index processedSz with
  | nil => rfl
  | cons x rest ih =>
      rw [fragmentRoutesBy]
      simp only [List.map_cons, ih, hsearch _ _ _]

theorem sizes_ne_nil {routes : List FragmentRoute} (hn : 0 < routes.length) :
    routes.map (·.payloadSize) ≠ [] := by
  intro hnil
  rw [List.map_eq_nil_iff.1 hnil] at hn
  exact absurd hn (Nat.lt_irrefl 0)

/-- A result with fragments is one of the plan for all of the payload. -/
theorem plan_of_result {search : RouteSearch} (hsearch : KeepsPayload search)
    {payloadLength : UInt32}
    (hn : 0 < (routerGetFirstRouteFragBy rc search payloadLength maxFragSz firstFragSz midFragSz
      lastFragSz).fragmentResults.length) :
    firstFragSz ≤ maxFragSz ∧ lastFragSz ≤ maxFragSz ∧
      payloadSizes rc maxFragSz midFragSz lastFragSz routerMaxFragments firstFragSz payloadLength =
        ((routerGetFirstRouteFragBy rc search payloadLength maxFragSz firstFragSz midFragSz
          lastFragSz).fragmentResults.map (·.payloadSize), 0) := by
  unfold routerGetFirstRouteFragBy at hn ⊢
  split at hn
  · exact absurd hn (Nat.lt_irrefl 0)
  next hheaders =>
  rw [if_neg hheaders]
  rw [Bool.or_eq_true, not_or, decide_eq_true_iff, decide_eq_true_iff] at hheaders
  refine ⟨UInt32.not_lt.1 hheaders.1, UInt32.not_lt.1 hheaders.2, ?_⟩
  cases hplan : payloadSizes rc maxFragSz midFragSz lastFragSz routerMaxFragments firstFragSz
    payloadLength with
  | mk sizes rem =>
      rw [hplan] at hn
      dsimp only at hn ⊢
      by_cases hrem : rem = 0
      · rw [if_neg (not_not.2 hrem)] at hn ⊢
        split at hn
        · next hfound =>
          rw [if_pos hfound, payloadSizes_routes hsearch, hrem]
        · exact absurd hn (Nat.lt_irrefl 0)
      · rw [if_pos hrem] at hn
        exact absurd hn (Nat.lt_irrefl 0)

end

/-- **The plan for fragments**: whenever the search ends with fragments, the plan is sound if and
only if the headers agree. -/
theorem fragment_plan_iff (rc : RouterConfig) {search : RouteSearch} (hsearch : KeepsPayload search)
    (payloadLength maxFragSz firstFragSz midFragSz lastFragSz : UInt32)
    (hn : 0 < (routerGetFirstRouteFragBy rc search payloadLength maxFragSz firstFragSz midFragSz
      lastFragSz).fragmentResults.length) :
    PlanSound rc payloadLength maxFragSz firstFragSz midFragSz lastFragSz
        ((routerGetFirstRouteFragBy rc search payloadLength maxFragSz firstFragSz midFragSz
          lastFragSz).fragmentResults.map (·.payloadSize)) ↔
      HeadersAgree payloadLength.toNat maxFragSz.toNat firstFragSz.toNat midFragSz.toNat
        lastFragSz.toNat := by
  obtain ⟨hfirst, hlast, hplan⟩ := plan_of_result hsearch hn
  exact planSound_iff hfirst hlast (sizes_ne_nil hn) hplan

/-- The same for the search of the router. -/
theorem fragment_plan_of_router (rc : RouterConfig) (now : UInt64) (contacts : Nat → Contact)
    (assoc : List AssociatedContact) (b : Bundle) (expirationTime : UInt64)
    (maxFragSz firstFragSz midFragSz lastFragSz : UInt32)
    (hn : 0 < (routerGetFirstRouteFrag rc now contacts assoc b expirationTime maxFragSz firstFragSz
      midFragSz lastFragSz).fragmentResults.length) :
    PlanSound rc b.payloadLength maxFragSz firstFragSz midFragSz lastFragSz
        ((routerGetFirstRouteFrag rc now contacts assoc b expirationTime maxFragSz firstFragSz
          midFragSz lastFragSz).fragmentResults.map (·.payloadSize)) ↔
      HeadersAgree b.payloadLength.toNat maxFragSz.toNat firstFragSz.toNat midFragSz.toNat
        lastFragSz.toNat := by
  rw [routerGetFirstRouteFrag_eq] at hn ⊢
  obtain ⟨hfirst, hlast, hplan⟩ :=
    plan_of_result (keepsPayload_fragmentSearch rc now contacts assoc b expirationTime) hn
  exact planSound_iff hfirst hlast (sizes_ne_nil hn) hplan

/-- A search that finds the first contact for every fragment, with certainty. -/
def certainSearch : RouteSearch := fun payloadSize _ _ => (true, ⟨payloadSize, 1, [0], 0⟩)

/-- 250 bytes in fragments of at most 200: 100 behind the first header, 120 in the middle, and 30 at
the end. -/
theorem fragment_plan_iff_three :
    PlanSound defaultConfig 250 200 100 80 60
      ((routerGetFirstRouteFragBy defaultConfig certainSearch 250 200 100 80 60).fragmentResults.map
        (·.payloadSize)) :=
  (fragment_plan_iff defaultConfig (fun _ _ _ => rfl) 250 200 100 80 60 (by decide)).2
    (Or.inr (by decide))

/-- 130 bytes are planned as one fragment of at most 200, which has 230 with its header. -/
theorem fragment_plan_oversized :
    (routerGetFirstRouteFragBy defaultConfig certainSearch 130 200 100 80 60).fragmentResults.map
        (·.payloadSize) = [130] ∧
      ¬PlanSound defaultConfig 130 200 100 80 60
        ((routerGetFirstRouteFragBy defaultConfig certainSearch 130 200 100 80
          60).fragmentResults.map (·.payloadSize)) := by
  have hplan : (routerGetFirstRouteFragBy defaultConfig certainSearch 130 200 100 80
      60).fragmentResults.map (·.payloadSize) = [130] := rfl
  refine ⟨hplan, fun h => ?_⟩
  rw [hplan] at h
  exact absurd (h.fits 0 (by decide)) (by decide)

end ContactRouter
