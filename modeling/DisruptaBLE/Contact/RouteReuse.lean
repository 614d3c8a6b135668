import DisruptaBLE.Contact.FragmentPlan
import Mathlib.Algebra.Order.BigOperators.Group.Finset

/-!
# The reuse of a route

`router_try_reuse` (`components/routing/contact/router.c`): a cached route is filled with the
payload of another bundle.

When the payload ends in a fragment before the last one, the number of fragments should be that of
the fragments in use.  The code sets it to one less than the index of the last one, so that it is
255 or too small by two; `route_reuse_iff` says when the result is right nevertheless.
-/

namespace ContactRouter

open BundleProcessor

/-! ## The cached route -/

/-- `struct router_result`, with all entries of `fragment_results`: the first
`ROUTER_MAX_FRAGMENTS` of them belong to the array. -/
structure CachedRoute where
  probability : Float32
  fragmentResults : Nat → FragmentRoute
  fragments : UInt8
  preemptionImproved : UInt8

/-- The payload size of a fragment is written. -/
def CachedRoute.place (route : CachedRoute) (f : Nat) (payloadSize : UInt32) : CachedRoute :=
  { route with
    fragmentResults :=
      Function.update route.fragmentResults f { route.fragmentResults f with payloadSize } }

/-- The route without fragments. -/
def CachedRoute.reject (route : CachedRoute) : CachedRoute :=
  { route with fragments := 0, probability := 0 }

section

variable (rc : RouterConfig) (now : UInt64) (contacts : Nat → Contact)

/-- The capacity of a contact for bundles of low priority. -/
def lowCapacity (k : Nat) : Int32 := contactGetCurRemainingCapacity now (contacts k) .low

/-- A contact has ended, ends too late, or has not enough capacity. -/
def contactUnusable (expirationTime : UInt64) (size : UInt32) (k : Nat) : Bool :=
  (contacts k).toTime ≤ now || expirationTime < (contacts k).toTime ||
    lowCapacity now contacts k < size.toInt32

/-- The contacts of a fragment: the capacity for payload, unless a contact is unusable. -/
def minCapacity (expirationTime : UInt64) (size : UInt32) : UInt32 → List Nat → Option UInt32
  | minCap, [] => some minCap
  | minCap, k :: ks =>
      if contactUnusable now contacts expirationTime (size + rc.fragmentMinPayload.toUInt32) k then
        none
      else
        minCapacity expirationTime size (min minCap ((lowCapacity now contacts k).toUInt32 - size))
          ks

/-- The size of the headers of a fragment, and the bundle after the query. -/
def fragmentHeader (b : Bundle) (f fragments : Nat) : Nat × Bundle :=
  if f = 0 then bundleGetFirstFragmentMinSize b
  else if f + 1 = fragments then bundleGetLastFragmentMinSize b
  else bundleGetMidFragmentMinSize b

/-- How the loop over the fragments ends. -/
inductive Filling where
  /-- a contact cannot be used -/
  | unusable
  /-- the payload ends in this fragment -/
  | placed (f : Nat)
  /-- all fragments are full -/
  | rest (remainingPay : UInt32)

/-- The loop over the fragments, with the number of those that are left. -/
def fillFragments (expirationTime : UInt64) (fragments : Nat) :
    Nat → Nat → UInt32 → Bundle → CachedRoute → Filling × CachedRoute × Bundle
  | 0, _, remainingPay, b, route => (.rest remainingPay, route, b)
  | n + 1, f, remainingPay, b, route =>
      let (size, b) := fragmentHeader b f fragments
      match minCapacity rc now contacts expirationTime (UInt32.ofNat size) 0xFFFFFFFF
          (route.fragmentResults f).contacts with
      | none => (.unusable, route, b)
      | some minCap =>
          let payloadSize := min remainingPay minCap
          let route := route.place f payloadSize
          let remainingPay := remainingPay - payloadSize
          if remainingPay = 0 then (.placed f, route, b)
          else fillFragments expirationTime fragments n (f + 1) remainingPay b route

/-- `router_try_reuse`: the route, and the bundle after the queries of its sizes.  The comparison of
probabilities, `<` on floats in the code, is a parameter. -/
def routerTryReuse (less : Float32 → Float32 → Bool) (route : CachedRoute) (b : Bundle) :
    CachedRoute × Bundle :=
  let expirationTime := bundleGetExpirationTimeS now b
  let remainingPay := b.payloadLength
  if route.fragments = 0 || less route.probability rc.minProbability then (route, b)
  else if bundleMustNotFragment b || route.fragments = 1 then
    let (size, b) := bundleGetSerializedSize b
    let route := route.place 0 remainingPay
    if (route.fragmentResults 0).contacts.any
        (contactUnusable now contacts expirationTime (UInt32.ofNat size)) then (route.reject, b)
    else (route, b)
  else
    let (filling, route, b) := fillFragments rc now contacts expirationTime route.fragments.toNat
      route.fragments.toNat 0 remainingPay b route
    match filling with
    | .unusable => (route.reject, b)
    | .placed f => ({ route with fragments := UInt8.ofNat f - 1 }, b)
    | .rest remainingPay => (if remainingPay ≠ 0 then route.reject else route, b)

/-! ## The right result -/

/-- The bytes that a fragment takes of its contacts, when there are so many. -/
def fragmentBytes (b : Bundle) (route : CachedRoute) (f : Nat) : Nat :=
  if route.fragments = 1 then (bundleGetSerializedSize b).1
  else
    (route.fragmentResults f).payloadSize.toNat + (fragmentHeader b f route.fragments.toNat).1

/-- The payload of the bundle is placed in the fragments of the route. -/
structure RouteFits (b : Bundle) (route : CachedRoute) : Prop where
  count : route.fragments.toNat ≤ routerMaxFragments
  positive : ∀ f < route.fragments.toNat, 0 < (route.fragmentResults f).payloadSize.toNat
  sum : ∑ f ∈ Finset.range route.fragments.toNat, (route.fragmentResults f).payloadSize.toNat =
    b.payloadLength.toNat
  contacts : ∀ f < route.fragments.toNat, ∀ k ∈ (route.fragmentResults f).contacts,
    now < (contacts k).toTime ∧ (contacts k).toTime ≤ bundleGetExpirationTimeS now b ∧
      (fragmentBytes b route f : Int) ≤ (lowCapacity now contacts k).toInt

/-- The bundle after the queries for the fragments before an index: each leaves the length of the
primary block that it found, with which the next one reckons. -/
def queriedBundle (fragments : Nat) (b : Bundle) : Nat → Bundle
  | 0 => b
  | f + 1 => (fragmentHeader (queriedBundle fragments b f) f fragments).2

/-- The room for payload in a fragment of the route, unless a contact is unusable. -/
def room (b : Bundle) (route : CachedRoute) (f : Nat) : Option UInt32 :=
  minCapacity rc now contacts (bundleGetExpirationTimeS now b)
    (UInt32.ofNat (fragmentHeader (queriedBundle route.fragments.toNat b f) f
      route.fragments.toNat).1) 0xFFFFFFFF (route.fragmentResults f).contacts

/-- The room in the fragments before an index. -/
def roomBelow (b : Bundle) (route : CachedRoute) (f : Nat) : Nat :=
  ∑ i ∈ Finset.range f, ((room rc now contacts b route i).getD 0).toNat

/-- The payload ends in this fragment, when each takes as much as it can. -/
structure EndsIn (b : Bundle) (route : CachedRoute) (f : Nat) : Prop where
  lt : f < route.fragments.toNat
  usable : ∀ i ≤ f, (room rc now contacts b route i).isSome = true
  below : f = 0 ∨ roomBelow rc now contacts b route f < b.payloadLength.toNat
  fits : b.payloadLength.toNat ≤ roomBelow rc now contacts b route (f + 1)

/-- The bundle stays in one piece. -/
def InOnePiece (b : Bundle) (route : CachedRoute) : Prop :=
  bundleMustNotFragment b = true ∨ route.fragments = 1

/-- A contact of the first fragment cannot take all of the bundle. -/
def Unplaceable (b : Bundle) (route : CachedRoute) : Prop :=
  ∃ k ∈ (route.fragmentResults 0).contacts,
    contactUnusable now contacts (bundleGetExpirationTimeS now b)
      (UInt32.ofNat (bundleGetSerializedSize b).1) k = true

/-- The payload can be placed on the route. -/
def Placeable (b : Bundle) (route : CachedRoute) : Prop :=
  (InOnePiece b route ∧ ¬Unplaceable now contacts b route) ∨
    (¬InOnePiece b route ∧ ∃ f, EndsIn rc now contacts b route f)

/-- What a reuse should bring: a route for the payload, or none if there is no place for it. -/
structure ReuseRight (less : Float32 → Float32 → Bool) (route : CachedRoute) (b : Bundle) :
    Prop where
  fits : 0 < (routerTryReuse rc now contacts less route b).1.fragments →
    RouteFits now contacts b (routerTryReuse rc now contacts less route b).1
  rejected : ¬Placeable rc now contacts b route →
    (routerTryReuse rc now contacts less route b).1.fragments = 0 ∧
      (routerTryReuse rc now contacts less route b).1.probability = 0

end

/-! ## The loop over the fragments -/

section

variable {rc : RouterConfig} {now : UInt64} {contacts : Nat → Contact} {b : Bundle}
  {route : CachedRoute}

theorem roomBelow_succ (f : Nat) :
    roomBelow rc now contacts b route (f + 1) = roomBelow rc now contacts b route f +
      ((room rc now contacts b route f).getD 0).toNat :=
  Finset.sum_range_succ _ f

theorem roomBelow_mono {f g : Nat} (h : f ≤ g) :
    roomBelow rc now contacts b route f ≤ roomBelow rc now contacts b route g :=
  Finset.sum_le_sum_of_subset_of_nonneg (Finset.range_mono h) fun _ _ _ => Nat.zero_le _

/-- The payload ends in one fragment at most. -/
theorem EndsIn.unique {f g : Nat} (hf : EndsIn rc now contacts b route f)
    (hg : EndsIn rc now contacts b route g) : f = g := by
  have hle : ∀ {f g : Nat}, EndsIn rc now contacts b route f → EndsIn rc now contacts b route g →
      g ≤ f := by
    intro f g hf hg
    by_contra hlt
    have hmono := @roomBelow_mono rc now contacts b route (f + 1) g (by omega)
    have hfits := hf.fits
    obtain hzero | hbelow := hg.below
    · omega
    · omega
  exact Nat.le_antisymm (hle hg hf) (hle hf hg)

/-- Where the loop stands before the fragment `f`: the fragments before it are full. -/
structure Filled (rc : RouterConfig) (now : UInt64) (contacts : Nat → Contact) (b : Bundle)
    (route : CachedRoute) (f : Nat) (rem : UInt32) (b' : Bundle) (route' : CachedRoute) : Prop where
  bundle : b' = queriedBundle route.fragments.toNat b f
  sameContacts : ∀ i, (route'.fragmentResults i).contacts = (route.fragmentResults i).contacts
  usable : ∀ i < f, (room rc now contacts b route i).isSome = true
  below : f = 0 ∨ roomBelow rc now contacts b route f < b.payloadLength.toNat
  rest : rem.toNat = b.payloadLength.toNat - roomBelow rc now contacts b route f
  full : ∀ i < f, (route'.fragmentResults i).payloadSize.toNat =
    ((room rc now contacts b route i).getD 0).toNat

/-- No payload ends where the loop has come to no end. -/
theorem Filled.not_endsIn {f : Nat} {rem : UInt32} {b' : Bundle} {route' : CachedRoute}
    (h : Filled rc now contacts b route f rem b' route')
    (hstop : f = route.fragments.toNat ∨ room rc now contacts b route f = none) (k : Nat) :
    ¬EndsIn rc now contacts b route k := by
  intro hk
  by_cases hkf : k < f
  · have hmono := @roomBelow_mono rc now contacts b route (k + 1) f hkf
    have hfits := hk.fits
    obtain hzero | hbelow := h.below
    · omega
    · omega
  · obtain hend | hnone := hstop
    · have := hk.lt
      omega
    · have husable := hk.usable f (Nat.not_lt.1 hkf)
      rw [hnone] at husable
      cases husable

/-- **The loop over the fragments** finds the fragment in which the payload ends. -/
theorem fillFragments_spec {n f : Nat} {rem : UInt32} {b' : Bundle} {route' : CachedRoute}
    (h : Filled rc now contacts b route f rem b' route') (hn : f + n = route.fragments.toNat) :
    match fillFragments rc now contacts (bundleGetExpirationTimeS now b) route.fragments.toNat n f
      rem b' route' with
    | (.unusable, _, _) => ∀ k, ¬EndsIn rc now contacts b route k
    | (.rest r, _, _) => (∀ k, ¬EndsIn rc now contacts b route k) ∧
        (0 < route.fragments.toNat → r ≠ 0)
    | (.placed k, r, _) => EndsIn rc now contacts b route k ∧
        ∀ i < k, (r.fragmentResults i).payloadSize.toNat =
          ((room rc now contacts b route i).getD 0).toNat := by
  induction n generalizing f rem b' route' with
  | zero =>
      refine ⟨h.not_endsIn (Or.inl hn), fun hpos hzero => ?_⟩
      have hrest := h.rest
      rw [hzero] at hrest
      have h0 : (0 : UInt32).toNat = 0 := rfl
      obtain hf | hbelow := h.below
      · omega
      · omega
  | succ n ih =>
      have hroom : minCapacity rc now contacts (bundleGetExpirationTimeS now b)
          (UInt32.ofNat (fragmentHeader b' f route.fragments.toNat).1) 0xFFFFFFFF
          (route'.fragmentResults f).contacts = room rc now contacts b route f := by
        rw [h.bundle, h.sameContacts]
        rfl
      rw [fillFragments]
      simp only [hroom]
      cases hcap : room rc now contacts b route f with
      | none => exact h.not_endsIn (Or.inr hcap)
      | some cap =>
          have hpay := toNat_min rem cap
          have hle : min rem cap ≤ rem := UInt32.le_iff_toNat_le.2 (by omega)
          have hsub := UInt32.toNat_sub_of_le _ _ hle
          have hrest := h.rest
          have hnext : roomBelow rc now contacts b route (f + 1) =
              roomBelow rc now contacts b route f + cap.toNat := by
            rw [roomBelow_succ, hcap]
            rfl
          have hbefore : roomBelow rc now contacts b route f ≤ b.payloadLength.toNat := by
            obtain hf | hbelow := h.below
            · rw [hf]
              exact Nat.zero_le _
            · omega
          have husable : ∀ i ≤ f, (room rc now contacts b route i).isSome = true := by
            intro i hi
            obtain hlt | rfl := Nat.lt_or_eq_of_le hi
            · exact h.usable i hlt
            · rw [hcap]
              rfl
          have hfull : ∀ i < f, ((route'.place f (min rem cap)).fragmentResults
              i).payloadSize.toNat = ((room rc now contacts b route i).getD 0).toNat := by
            intro i hi
            rw [← h.full i hi]
            exact congrArg (fun r : FragmentRoute => r.payloadSize.toNat)
              (Function.update_of_ne (Nat.ne_of_lt hi) _ _)
          dsimp only
          by_cases hdone : rem - min rem cap = 0
          · rw [if_pos hdone]
            rw [hdone] at hsub
            have h0 : (0 : UInt32).toNat = 0 := rfl
            exact ⟨⟨by omega, husable, h.below, by omega⟩, hfull⟩
          · rw [if_neg hdone]
            have hmore : (rem - min rem cap).toNat ≠ 0 := fun h0 =>
              hdone (UInt32.toNat_inj.1 h0)
            refine ih ⟨?_, fun i => ?_, fun i hi => husable i (Nat.le_of_lt_succ hi),
              Or.inr (by omega), by omega, fun i hi => ?_⟩ (by omega)
            · rw [h.bundle]
              rfl
            · rw [← h.sameContacts]
              by_cases hi : i = f
              · subst hi
                simp [CachedRoute.place]
              · simp [CachedRoute.place, hi]
            · obtain hlt | rfl := Nat.lt_or_eq_of_le (Nat.le_of_lt_succ hi)
              · exact hfull i hlt
              · rw [hcap]
                show (Function.update route'.fragmentResults i _ i).payloadSize.toNat = cap.toNat
                rw [Function.update_self]
                show (min rem cap).toNat = cap.toNat
                omega

end

section

variable (rc : RouterConfig) (now : UInt64) (contacts : Nat → Contact)
  (less : Float32 → Float32 → Bool) (route : CachedRoute) (b : Bundle)

/-- A bundle in one piece takes the first fragment, or none. -/
theorem tryReuse_whole (hsome : route.fragments ≠ 0)
    (hlikely : less route.probability rc.minProbability = false) (hwhole : InOnePiece b route) :
    (Unplaceable now contacts b route → (routerTryReuse rc now contacts less route b).1 =
      (route.place 0 b.payloadLength).reject) ∧
      (¬Unplaceable now contacts b route → (routerTryReuse rc now contacts less route b).1 =
        route.place 0 b.payloadLength) := by
  have hgo : ¬(decide (route.fragments = 0) ||
      less route.probability rc.minProbability) = true := by
    simp [hsome, hlikely]
  have hone : (bundleMustNotFragment b || decide (route.fragments = 1)) = true := by
    obtain h | h := hwhole <;> simp [h]
  have hcontacts : ((route.place 0 b.payloadLength).fragmentResults 0).contacts =
      (route.fragmentResults 0).contacts := by
    simp [CachedRoute.place]
  unfold routerTryReuse Unplaceable
  simp only [if_neg hgo, if_pos hone, hcontacts, List.any_eq_true]
  constructor
  · intro h
    rw [if_pos h]
  · intro h
    rw [if_neg h]

/-- The reuse of a route for a bundle that stays in one piece. -/
theorem reuse_whole_iff (hcount : route.fragments.toNat ≤ routerMaxFragments)
    (hsome : route.fragments ≠ 0) (hlikely : less route.probability rc.minProbability = false)
    (hwhole : InOnePiece b route) :
    ReuseRight rc now contacts less route b ↔
      Unplaceable now contacts b route ∨
        route.fragments = 1 ∧ 0 < b.payloadLength ∧
          ((bundleGetSerializedSize b).1 < 2 ^ 31 ∨ (route.fragmentResults 0).contacts = []) := by
  obtain ⟨hreject, hplace⟩ := tryReuse_whole rc now contacts less route b hsome hlikely hwhole
  by_cases hno : Unplaceable now contacts b route
  · refine iff_of_true ⟨fun hpos => ?_, fun _ => ?_⟩ (Or.inl hno)
    · rw [hreject hno] at hpos
      exact absurd hpos (UInt8.lt_irrefl 0)
    · rw [hreject hno]
      exact ⟨rfl, rfl⟩
  have hresult := hplace hno
  have hplaceable : Placeable rc now contacts b route := Or.inl ⟨hwhole, hno⟩
  have hpos : 0 < route.fragments.toNat :=
    Nat.pos_of_ne_zero fun h0 => hsome (UInt8.toNat_inj.1 h0)
  have hpayload : ((route.place 0 b.payloadLength).fragmentResults 0).payloadSize =
      b.payloadLength := by
    simp [CachedRoute.place]
  have hcontacts : ((route.place 0 b.payloadLength).fragmentResults 0).contacts =
      (route.fragmentResults 0).contacts := by
    simp [CachedRoute.place]
  have hright : ReuseRight rc now contacts less route b ↔
      RouteFits now contacts b (route.place 0 b.payloadLength) := by
    constructor
    · intro h
      rw [← hresult]
      refine h.fits ?_
      rw [hresult]
      exact UInt8.lt_iff_toNat_lt.2 hpos
    · intro h
      exact ⟨fun _ => by rwa [hresult], fun hnot => absurd hplaceable hnot⟩
  rw [hright, or_iff_right hno]
  constructor
  · rintro ⟨-, hpositive, hsum, hcap⟩
    have hfirst := hpositive 0 hpos
    rw [hpayload] at hfirst
    have hsingle : route.fragments.toNat = 1 := by
      by_contra hne
      -- the payload of the first fragment is all of it, and the second one has some, too
      have hmany : 1 < (route.place 0 b.payloadLength).fragments.toNat := by
        show 1 < route.fragments.toNat
        omega
      have hsecond := hpositive 1 hmany
      have hpart := Finset.sum_le_sum_of_subset_of_nonneg
        (f := fun f => ((route.place 0 b.payloadLength).fragmentResults f).payloadSize.toNat)
        (Finset.range_mono hmany) fun _ _ _ => Nat.zero_le _
      rw [hsum, Finset.sum_range_succ, Finset.sum_range_one] at hpart
      rw [hpayload] at hpart
      omega
    have hone : route.fragments = 1 := UInt8.toNat_inj.1 hsingle
    refine ⟨hone, UInt32.lt_iff_toNat_lt.2 hfirst, ?_⟩
    by_contra hlarge
    rw [not_or] at hlarge
    obtain ⟨k, hk⟩ := List.exists_mem_of_ne_nil _ hlarge.2
    obtain ⟨-, -, hbytes⟩ := hcap 0 hpos k (by rw [hcontacts]; exact hk)
    have hmax := (lowCapacity now contacts k).toInt_lt
    have hsize : fragmentBytes b (route.place 0 b.payloadLength) 0 =
        (bundleGetSerializedSize b).1 := if_pos hone
    rw [hsize] at hbytes
    omega
  · rintro ⟨hone, hfirst, hsize⟩
    have hsingle : (route.place 0 b.payloadLength).fragments.toNat = 1 :=
      congrArg UInt8.toNat hone
    refine ⟨hcount, fun f hf => ?_, ?_, fun f hf k hk => ?_⟩
    · obtain rfl : f = 0 := by omega
      rw [hpayload]
      exact UInt32.lt_iff_toNat_lt.1 hfirst
    · rw [hsingle, Finset.sum_range_one, hpayload]
    · obtain rfl : f = 0 := by omega
      rw [hcontacts] at hk
      have husable : contactUnusable now contacts (bundleGetExpirationTimeS now b)
          (UInt32.ofNat (bundleGetSerializedSize b).1) k ≠ true := fun h => hno ⟨k, hk, h⟩
      simp only [contactUnusable, Bool.or_eq_true, decide_eq_true_eq, not_or, ne_eq] at husable
      obtain ⟨⟨hend, hexpires⟩, hcap⟩ := husable
      refine ⟨UInt64.not_le.1 hend, UInt64.not_lt.1 hexpires, ?_⟩
      obtain hsmall | hnil := hsize
      · have hcut : (UInt32.ofNat (bundleGetSerializedSize b).1).toNat =
            (bundleGetSerializedSize b).1 :=
          UInt32.toNat_ofNat_of_lt' (Nat.lt_of_lt_of_le hsmall (by decide))
        rw [Int32.not_lt, Int32.le_iff_toInt_le, toInt_toInt32_of_lt (by omega), hcut] at hcap
        have hbytes : fragmentBytes b (route.place 0 b.payloadLength) 0 =
            (bundleGetSerializedSize b).1 := if_pos hone
        rw [hbytes]
        exact hcap
      · rw [hnil] at hk
        cases hk

/-- The number of fragments that the code counts when the payload ends in one of them. -/
theorem toNat_fragments {f : Nat} (hf : f < routerMaxFragments) :
    (UInt8.ofNat f - 1).toNat = if f = 0 then 255 else f - 1 := by
  have hf : f < 10 := hf
  have hcut : (UInt8.ofNat f).toNat = f :=
    UInt8.toNat_ofNat_of_lt' (Nat.lt_of_lt_of_le hf (by decide))
  rw [UInt8.toNat_sub, hcut]
  show (2 ^ 8 - 1 + f) % 2 ^ 8 = _
  split <;> omega

/-- The reuse of a route for a bundle that is fragmented. -/
theorem reuse_fragmented_iff (hcount : route.fragments.toNat ≤ routerMaxFragments)
    (hsome : route.fragments ≠ 0) (hlikely : less route.probability rc.minProbability = false)
    (hwhole : ¬InOnePiece b route) :
    ReuseRight rc now contacts less route b ↔
      ∀ f, EndsIn rc now contacts b route f → f = 1 := by
  have hgo : ¬(decide (route.fragments = 0) ||
      less route.probability rc.minProbability) = true := by
    simp [hsome, hlikely]
  have hmore : ¬(bundleMustNotFragment b || decide (route.fragments = 1)) = true := by
    intro h
    rw [Bool.or_eq_true, decide_eq_true_iff] at h
    exact hwhole h
  have hpos : 0 < route.fragments.toNat :=
    Nat.pos_of_ne_zero fun h0 => hsome (UInt8.toNat_inj.1 h0)
  have hstart : Filled rc now contacts b route 0 b.payloadLength b route :=
    ⟨rfl, fun _ => rfl, fun i hi => absurd hi (Nat.not_lt_zero i), Or.inl rfl, rfl,
      fun i hi => absurd hi (Nat.not_lt_zero i)⟩
  have hfill := fillFragments_spec hstart (Nat.zero_add _)
  have hnowhere {r : CachedRoute} (hno : ∀ k, ¬EndsIn rc now contacts b route k)
      (hresult : (routerTryReuse rc now contacts less route b).1 = r.reject) :
      ReuseRight rc now contacts less route b ↔
        ∀ f, EndsIn rc now contacts b route f → f = 1 := by
    refine iff_of_true ⟨fun hn => ?_, fun _ => ?_⟩ fun f hf => absurd hf (hno f)
    · rw [hresult] at hn
      exact absurd hn (UInt8.lt_irrefl 0)
    · rw [hresult]
      exact ⟨rfl, rfl⟩
  cases hrun : fillFragments rc now contacts (bundleGetExpirationTimeS now b)
    route.fragments.toNat route.fragments.toNat 0 b.payloadLength b route with
  | mk filling out =>
  obtain ⟨r, b'⟩ := out
  rw [hrun] at hfill
  cases filling with
  | unusable =>
      refine hnowhere (r := r) hfill ?_
      unfold routerTryReuse
      simp only [if_neg hgo, if_neg hmore, hrun]
  | rest rem =>
      refine hnowhere (r := r) hfill.1 ?_
      unfold routerTryReuse
      simp only [if_neg hgo, if_neg hmore, hrun, if_pos (hfill.2 hpos)]
  | placed k =>
      obtain ⟨hends, hfull⟩ := hfill
      have hresult : (routerTryReuse rc now contacts less route b).1 =
          { r with fragments := UInt8.ofNat k - 1 } := by
        unfold routerTryReuse
        simp only [if_neg hgo, if_neg hmore, hrun]
      have hcounted := toNat_fragments (Nat.lt_of_lt_of_le hends.lt hcount)
      have hplaceable : Placeable rc now contacts b route := Or.inr ⟨hwhole, k, hends⟩
      constructor
      · intro h f hf
        obtain rfl := hends.unique hf
        by_contra hne
        have hn : 0 < (UInt8.ofNat k - 1).toNat := by
          rw [hcounted]
          split <;> omega
        have hfits := h.fits
        rw [hresult] at hfits
        obtain ⟨hmax, -, hsum, -⟩ := hfits (UInt8.lt_iff_toNat_lt.2 hn)
        have hmax : (UInt8.ofNat k - 1).toNat ≤ 10 := hmax
        rw [hcounted] at hmax
        have hk : ¬k = 0 := fun h0 => by
          rw [if_pos h0] at hmax
          omega
        -- the fragments that are counted hold less than the payload
        have hsum : ∑ f ∈ Finset.range (UInt8.ofNat k - 1).toNat,
            (r.fragmentResults f).payloadSize.toNat = b.payloadLength.toNat := hsum
        rw [hcounted, if_neg hk] at hsum
        have hless : ∑ f ∈ Finset.range (k - 1), (r.fragmentResults f).payloadSize.toNat =
            roomBelow rc now contacts b route (k - 1) :=
          Finset.sum_congr rfl fun i hi => hfull i (by rw [Finset.mem_range] at hi; omega)
        have hmono := @roomBelow_mono rc now contacts b route (k - 1) k (Nat.sub_le _ _)
        obtain hzero | hbelow := hends.below
        · exact hk hzero
        · omega
      · intro h
        obtain rfl := h k hends
        refine ⟨fun hn => ?_, fun hnot => absurd hplaceable hnot⟩
        rw [hresult] at hn
        exact absurd hn (UInt8.lt_irrefl 0)

/-- **The reuse of a route** is right if and only if there is no place for the payload on it; or the
bundle stays in one piece on a route of one fragment, is not empty, and its size is one of a signed
number; or the payload of a fragmented bundle ends in the second fragment. -/
theorem route_reuse_iff (hcount : route.fragments.toNat ≤ routerMaxFragments)
    (hsome : route.fragments ≠ 0) (hlikely : less route.probability rc.minProbability = false) :
    ReuseRight rc now contacts less route b ↔
      (InOnePiece b route → Unplaceable now contacts b route ∨
        route.fragments = 1 ∧ 0 < b.payloadLength ∧
          ((bundleGetSerializedSize b).1 < 2 ^ 31 ∨ (route.fragmentResults 0).contacts = [])) ∧
      (¬InOnePiece b route → ∀ f, EndsIn rc now contacts b route f → f = 1) := by
  by_cases hwhole : InOnePiece b route
  · rw [reuse_whole_iff rc now contacts less route b hcount hsome hlikely hwhole]
    exact ⟨fun h => ⟨fun _ => h, fun hno => absurd hwhole hno⟩, fun h => h.1 hwhole⟩
  · rw [reuse_fragmented_iff rc now contacts less route b hcount hsome hlikely hwhole]
    exact ⟨fun h => ⟨fun h' => absurd h' hwhole, fun _ => h⟩, fun h => h.2 hwhole⟩

end

/-- A cached route with contacts for its fragments. -/
def cachedRoute (contacts : List (List Nat)) : CachedRoute where
  probability := 1
  fragmentResults f := ⟨0, 1, contacts.getD f [], 0⟩
  fragments := UInt8.ofNat contacts.length
  preemptionImproved := 0

/-- A note on a route with one contact, which ends before the note expires. -/
theorem route_reuse_iff_whole :
    ReuseRight defaultConfig 10 (fun _ => emptyContact 20 1000) (fun _ _ => false)
      (cachedRoute [[0]]) (note "dtn://x/a" []) :=
  (route_reuse_iff defaultConfig 10 (fun _ => emptyContact 20 1000) (fun _ _ => false)
    (cachedRoute [[0]]) (note "dtn://x/a" []) (by decide) (by decide) rfl).2
    ⟨fun _ => Or.inr ⟨rfl, by decide, Or.inl (by decide)⟩, fun h => absurd (Or.inr rfl) h⟩

/-- The payload of a note ends in the first of two fragments, and there are 255 fragments. -/
theorem route_reuse_miscounted :
    (routerTryReuse defaultConfig 10 (fun _ => emptyContact 20 1000) (fun _ _ => false)
        (cachedRoute [[0], [1]]) (note "dtn://x/a" [])).1.fragments = 255 ∧
      ¬ReuseRight defaultConfig 10 (fun _ => emptyContact 20 1000) (fun _ _ => false)
        (cachedRoute [[0], [1]]) (note "dtn://x/a" []) := by
  have hfragments : (routerTryReuse defaultConfig 10 (fun _ => emptyContact 20 1000)
      (fun _ _ => false) (cachedRoute [[0], [1]]) (note "dtn://x/a" [])).1.fragments = 255 := by
    decide
  refine ⟨hfragments, fun h => ?_⟩
  have hcount := (h.fits (by rw [hfragments]; decide)).count
  rw [hfragments] at hcount
  exact absurd hcount (by decide)

end ContactRouter
