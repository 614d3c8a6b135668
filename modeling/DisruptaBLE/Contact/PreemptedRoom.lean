import DisruptaBLE.Contact.Preemption
import Mathlib.Algebra.Order.BigOperators.Group.List

/-!
# The room that preemption makes

With accounts within 32 bits, the bundles that are preempted from a contact leave enough capacity
for the bundle that enters it (`room_for_bundle`).  Of the moves of a decision, only those of the
preempted bundles can be too much (`movesFit_iff`).
-/

namespace ContactRouter

open BundleProcessor Confidence

/-! ## Accounts within 32 bits -/

/-- What remains of a contact and what its bundles take fit into the signed type together. -/
def Bounded (contacts : Nat → Contact) : Prop :=
  ∀ k, (contacts k).remainingCapacityP0.toInt + sizesFrom .low (contacts k).contactBundles < 2 ^ 31

/-- The accounts of a contact are bounded by its total capacity. -/
theorem bounded_of_counted {contacts : Nat → Contact} (h : ∀ k, Counted (contacts k))
    (hfits : ∀ k, Fits (contacts k)) : Bounded contacts := by
  intro k
  have htotal := (h k).total
  have hfit := hfits k
  have hp0 : (contacts k).remainingCapacityP0 = _ := (h k).capacity .low
  unfold Fits at hfit
  rw [hp0, Int32.toInt_ofInt_of_le (by omega) (by omega)]
  omega

theorem sizesFrom_low (l : List RoutedBundle) :
    sizesFrom .low l = (l.map (·.size.toNat)).sum := by
  induction l with
  | nil => rfl
  | cons x l ih =>
      have hlow : RoutingPriority.low.level ≤ x.prio.level := Nat.zero_le _
      rw [sizesFrom, if_pos hlow, ih, List.map_cons, List.sum_cons]

theorem size_le_sizesFrom {x : RoutedBundle} {l : List RoutedBundle} (h : x ∈ l) :
    x.size.toNat ≤ sizesFrom .low l := by
  rw [sizesFrom_low]
  exact List.single_le_sum (fun _ _ => Nat.zero_le _) _ (List.mem_map_of_mem h)

/-- The capacity at a time lies between zero and what remains. -/
theorem lowCapacity_bounds {c : Contact} (h : 0 ≤ c.remainingCapacityP0) (now : UInt64) :
    0 ≤ (contactGetCurRemainingCapacity now c .low).toInt ∧
      (contactGetCurRemainingCapacity now c .low).toInt ≤ c.remainingCapacityP0.toInt := by
  have hp0 : 0 ≤ c.remainingCapacityP0.toInt := Int32.le_iff_toInt_le.1 h
  have hcap : contactCapacity c .low = c.remainingCapacityP0 := rfl
  unfold contactGetCurRemainingCapacity
  rw [hcap]
  split
  · exact ⟨le_refl 0, hp0⟩
  split
  · exact ⟨hp0, le_refl _⟩
  generalize c.totalCapacity.toUInt64 * (c.toTime - now) / (c.toTime - c.fromTime) = capLeft
  have hresult : 0 ≤ (if 0x7FFFFFFF < capLeft then (0x7FFFFFFF : Int32)
      else capLeft.toUInt32.toInt32).toInt := by
    split
    · decide
    · next hle =>
      have hle := UInt64.le_iff_toNat_le.1 (UInt64.not_lt.1 hle)
      have hnat : (0x7FFFFFFF : UInt64).toNat = 0x7FFFFFFF := rfl
      have hcut : capLeft.toUInt32.toNat = capLeft.toNat := by
        rw [UInt64.toNat_toUInt32, Nat.mod_eq_of_lt (by omega)]
      rw [toInt_toInt32_of_lt (by omega)]
      omega
  dsimp only
  generalize (if 0x7FFFFFFF < capLeft then (0x7FFFFFFF : Int32)
    else capLeft.toUInt32.toInt32) = capResult at hresult
  split
  · next hlt => exact ⟨hresult, (Int32.lt_iff_toInt_lt.1 hlt).le⟩
  · exact ⟨hp0, le_refl _⟩

/-- Sums and differences that stay in the signed type are exact. -/
theorem toInt_add_of_bounds {x y : Int32} (hlo : -2 ^ 31 ≤ x.toInt + y.toInt)
    (hhi : x.toInt + y.toInt < 2 ^ 31) : (x + y).toInt = x.toInt + y.toInt := by
  rw [Int32.toInt_add, Int.bmod_eq_of_le (by omega) (by omega)]

theorem toInt_sub_of_bounds {x y : Int32} (hlo : -2 ^ 31 ≤ x.toInt - y.toInt)
    (hhi : x.toInt - y.toInt < 2 ^ 31) : (x - y).toInt = x.toInt - y.toInt := by
  rw [Int32.toInt_sub, Int.bmod_eq_of_le (by omega) (by omega)]

theorem toInt32_sub_capacity (x : UInt32) (y : Int32) :
    (x - y.toUInt32).toInt32 = x.toInt32 - y := rfl

/-! ## Without the bundle -/

section

variable {s : Assignments} {rb : RoutedBundle}

/-- The bundle leaves its size to its contacts. -/
theorem bounded_without (hlisted : Listed s.contacts s.routes)
    (hnonneg : ∀ k, 0 ≤ (s.contacts k).remainingCapacityP0) (hbounded : Bounded s.contacts)
    (hsize : Sized s.contacts rb) :
    (∀ k, 0 ≤ (withoutBundle s rb k).remainingCapacityP0) ∧ Bounded (withoutBundle s rb) := by
  have hboth : ∀ k, 0 ≤ (withoutBundle s rb k).remainingCapacityP0 ∧
      (withoutBundle s rb k).remainingCapacityP0.toInt +
        sizesFrom .low (withoutBundle s rb k).contactBundles < 2 ^ 31 := by
    intro k
    have hk := hbounded k
    rw [withoutBundle, removeFromAll_apply hlisted.once]
    split
    · next hmem =>
      have hp0 := Int32.le_iff_toInt_le.1 (hnonneg k)
      rw [Int32.toInt_zero] at hp0
      cases hfind : (s.contacts k).contactBundles.find? (·.id = rb.id) with
      | none =>
          obtain ⟨x, hx, hid⟩ := List.mem_map.1 ((hlisted.mem_iff k rb.id).2 hmem)
          exact absurd (decide_eq_true hid) (List.find?_eq_none.1 hfind x hx)
      | some x =>
          have hid : x.id = rb.id := by simpa using List.find?_some hfind
          have hx := hsize k x (List.mem_of_find?_eq_some hfind) hid
          have hsum := @sizesFrom_eraseP .low _ _ _ hfind
          rw [if_pos (show RoutingPriority.low.level ≤ x.prio.level from Nat.zero_le _), hx] at hsum
          have hsmall : rb.size.toInt32.toInt = rb.size.toNat := toInt_toInt32_of_lt (by omega)
          rw [p0_removed (hsize k) ((hlisted.mem_iff k rb.id).2 hmem), bundles_removed,
            Int32.le_iff_toInt_le, toInt_add_of_bounds (by omega) (by omega), Int32.toInt_zero]
          omega
    · exact ⟨hnonneg k, hk⟩
  exact ⟨fun k => (hboth k).1, fun k => (hboth k).2⟩

end

/-! ## What is preempted -/

section

variable {F : Type} [Confidence F] {cfg : OptimizerConfig F} {confidence : Nat → F → F}
  {now : UInt64} {contacts : Nat → Contact} {size : UInt32}

/-- The bundles that are taken count against what is still to be found. -/
theorem takeVictims_sum (cfg : OptimizerConfig F) (n taken : Nat) (target : Int32)
    {l : List RoutedBundle}
    (hsizes : ∀ x ∈ l, x.size.toNat < 2 ^ 31) :
    (takeVictims cfg n taken target l).1.toInt =
      target.toInt - ((takeVictims cfg n taken target l).2.map (·.size.toNat)).sum := by
  induction l generalizing taken target with
  | nil => simp [takeVictims]
  | cons x l ih =>
      unfold takeVictims
      split
      · next hcond =>
        have hpos : 0 < target := by
          simp only [Bool.and_eq_true, decide_eq_true_eq] at hcond
          exact hcond.1.1
        have hpos := Int32.lt_iff_toInt_lt.1 hpos
        rw [Int32.toInt_zero] at hpos
        have hx := hsizes x List.mem_cons_self
        have hle := target.toInt_lt
        have hsmall := toInt_toInt32_of_lt hx
        have hrest := ih (taken + 1) (target - x.size.toInt32)
          fun y hy => hsizes y (List.mem_cons_of_mem x hy)
        rw [toInt_sub_of_bounds (by omega) (by omega)] at hrest
        dsimp only
        rw [hrest, List.map_cons, List.sum_cons]
        omega
      · simp

/-- The contact has the capacity, or a successful call of `do_preemption` makes room. -/
def RoomAt (contacts : Nat → Contact) (now : UInt64) (size : UInt32) (choices : List Choice)
    (k : Nat) : Prop :=
  size.toNat ≤ (contactGetCurRemainingCapacity now (contacts k) .low).toInt ∨
    ∃ ch ∈ choices, ch.contact = k ∧ ch.success = true ∧
      size.toNat ≤ (contactGetCurRemainingCapacity now (contacts k) .low).toInt +
        (ch.victims.map (·.size.toNat)).sum

theorem RoomAt.mono {choices choices' : List Choice} {k : Nat}
    (h : RoomAt contacts now size choices k) (hsub : choices ⊆ choices') :
    RoomAt contacts now size choices' k :=
  h.imp id fun ⟨ch, hch, hrest⟩ => ⟨ch, hsub hch, hrest⟩

/-- A successful call makes room for the bundle. -/
theorem doPreemption_room (hnonneg : ∀ k, 0 ≤ (contacts k).remainingCapacityP0)
    (hbounded : Bounded contacts) (hsize : size.toNat < 2 ^ 31) {k n : Nat}
    {prio : RoutingPriority}
    (hshort : contactGetCurRemainingCapacity now (contacts k) .low < size.toInt32)
    (hsuccess : (doPreemption cfg now contacts k prio size n).success = true) :
    size.toNat ≤ (contactGetCurRemainingCapacity now (contacts k) .low).toInt +
      ((doPreemption cfg now contacts k prio size n).victims.map (·.size.toNat)).sum := by
  have hcap := lowCapacity_bounds (hnonneg k) now
  have hsmall := toInt_toInt32_of_lt hsize
  have hshort := Int32.lt_iff_toInt_lt.1 hshort
  unfold doPreemption at hsuccess ⊢
  dsimp only at hsuccess ⊢
  rw [toInt32_sub_capacity] at hsuccess ⊢
  have hsizes : ∀ x ∈ preemptible (contacts k) prio, x.size.toNat < 2 ^ 31 := by
    intro x hx
    have hmem : x ∈ (contacts k).contactBundles :=
      (List.mem_filter.1 ((preemptible_perm (contacts k) prio).subset hx)).1
    have hle := size_le_sizesFrom hmem
    have hp0 := Int32.le_iff_toInt_le.1 (hnonneg k)
    have hk := hbounded k
    rw [Int32.toInt_zero] at hp0
    omega
  have hsum := takeVictims_sum cfg n 0
    (size.toInt32 - contactGetCurRemainingCapacity now (contacts k) .low) hsizes
  rw [toInt_sub_of_bounds (by omega) (by omega)] at hsum
  have hdone : ¬0 < (takeVictims cfg n 0
      (size.toInt32 - contactGetCurRemainingCapacity now (contacts k) .low)
      (preemptible (contacts k) prio)).1 := by simpa using hsuccess
  rw [Int32.lt_iff_toInt_lt, Int32.toInt_zero] at hdone
  omega

/-- A contact that can be used has room. -/
theorem makeRoom_room (cfg : OptimizerConfig F) (now : UInt64)
    (hnonneg : ∀ k, 0 ≤ (contacts k).remainingCapacityP0)
    (hbounded : Bounded contacts) (hsize : size.toNat < 2 ^ 31) (d : Decision F)
    (prio : RoutingPriority) (k : Nat)
    (h : (d.makeRoom cfg now contacts prio size k).1 = true) :
    RoomAt contacts now size (d.makeRoom cfg now contacts prio size k).2.choices k := by
  unfold Decision.makeRoom at h ⊢
  dsimp only at h ⊢
  split at h
  · cases h
  next hfull =>
  rw [if_neg hfull]
  split at h
  · next hshort =>
    rw [if_pos hshort]
    refine Or.inr ⟨_, List.mem_append_right _ (List.mem_singleton.2 rfl), rfl, h, ?_⟩
    exact doPreemption_room hnonneg hbounded hsize hshort h
  · next hroomy =>
    rw [if_neg hroomy]
    refine Or.inl ?_
    rw [Int32.lt_iff_toInt_lt, toInt_toInt32_of_lt hsize] at hroomy
    omega

theorem choices_makeRoom (cfg : OptimizerConfig F) (now : UInt64) (contacts : Nat → Contact)
    (d : Decision F) (prio : RoutingPriority) (size : UInt32) (k : Nat) :
    d.choices ⊆ (d.makeRoom cfg now contacts prio size k).2.choices := by
  unfold Decision.makeRoom
  dsimp only
  split
  · exact List.Subset.refl _
  split
  · exact List.subset_append_left _ _
  · exact List.Subset.refl _

/-- **All contacts of the new decision have room**, or get it by preemption. -/
theorem decisionLoop_room (hnonneg : ∀ k, 0 ≤ (contacts k).remainingCapacityP0)
    (hbounded : Bounded contacts) (hsize : size.toNat < 2 ^ 31) (prio : RoutingPriority)
    {d : Decision F} {xs : List (Associated F)}
    (h : ∀ k ∈ d.newc, RoomAt contacts now size d.choices k) :
    let d' := decisionLoop cfg confidence now contacts prio size d xs
    ∀ k ∈ d'.newc, RoomAt contacts now size d'.choices k := by
  induction xs generalizing d with
  | nil => exact h
  | cons x xs ih =>
      unfold decisionLoop
      split
      · exact h
      have hnewc := newc_makeRoom cfg now contacts d prio size x.data
      have hsub := choices_makeRoom cfg now contacts d prio size x.data
      have hroom := makeRoom_room cfg now hnonneg hbounded hsize d prio x.data
      generalize d.makeRoom cfg now contacts prio size x.data = r at hnewc hsub hroom
      obtain ⟨room, d₁⟩ := r
      dsimp only at hnewc hsub hroom ⊢
      have h₁ : ∀ k ∈ d₁.newc, RoomAt contacts now size d₁.choices k := by
        rw [hnewc]
        exact fun k hk => (h k hk).mono hsub
      split
      · exact ih h₁
      next hyes =>
      have hx : RoomAt contacts now size d₁.choices x.data := hroom (by simpa using hyes)
      have hchoices := (enter_kept cfg confidence d₁ x).2
      have hcases := newc_enter cfg confidence d₁ x
      generalize d₁.enter cfg confidence x = r at hchoices hcases
      obtain ⟨done, d₂⟩ := r
      dsimp only at hchoices hcases ⊢
      have h₂ : ∀ k ∈ d₂.newc, RoomAt contacts now size d₂.choices k := by
        rw [hchoices]
        rcases hcases with hnew | hnew | rfl
        · rw [hnew]
          exact fun k hk => List.mem_singleton.1 hk ▸ hx
        · rw [hnew]
          intro k hk
          rcases List.mem_append.1 hk with hk | hk
          · exact h₁ k hk
          · exact List.mem_singleton.1 hk ▸ hx
        · exact h₁
      split
      · exact h₂
      · exact ih h₂

/-- The search takes no excluded contact. -/
theorem collectContactsBy_excluded (prio : RoutingPriority) (expTime : UInt64)
    (excluded : List Nat) (preprocessedSize : UInt32) {res : FoundRoute F}
    {xs : List (Associated F)} (h : ∀ k ∈ res.contacts, k ∉ excluded) :
    ∀ k ∈ (collectContactsBy cfg confidence now contacts size prio expTime excluded
      preprocessedSize res xs).contacts, k ∉ excluded := by
  induction xs generalizing preprocessedSize res with
  | nil => exact h
  | cons x xs ih =>
      unfold collectContactsBy
      dsimp only
      split
      · exact h
      split
      · exact ih _ h
      next hin =>
      have hx : x.data ∉ excluded := by
        intro hmem
        exact hin (by simp [hmem])
      split
      · exact ih _ h
      split
      · exact ih _ h
      split
      · exact fun k hk => List.mem_singleton.1 hk ▸ hx
      split
      · refine ih _ fun k hk => ?_
        rcases List.mem_append.1 hk with hk | hk
        · exact h k hk
        · exact List.mem_singleton.1 hk ▸ hx
      · exact ih _ h

theorem newRoutes_excluded {eidTable : CStr → Option (List (Associated F))} {ignored : List Nat}
    {preempted : List RoutedBundle} {routes : List (FoundRoute F)}
    (h : newRoutes cfg confidence eidTable now contacts ignored preempted = some routes) :
    ∀ r ∈ routes, ∀ k ∈ r.contacts, k ∉ ignored := by
  induction preempted generalizing routes with
  | nil =>
      cases h
      exact fun r hr => absurd hr List.not_mem_nil
  | cons rb rbs ih =>
      unfold newRoutes calculateFragmentRouteBy at h
      dsimp only at h
      split at h
      · cases h
      split at h
      · cases h
      obtain ⟨rest, hrest, rfl⟩ := Option.map_eq_some_iff.1 h
      intro r hr
      rcases List.mem_cons.1 hr with rfl | hr
      · exact collectContactsBy_excluded _ _ _ _ fun k hk => absurd hk List.not_mem_nil
      · exact ih hrest r hr

end

/-! ## The room for the bundle -/

section

variable {F : Type}

/-- What the preempted bundles free at a contact. -/
theorem freed_preemptionMoves (routes : UInt16 → List Nat) {l : List RoutedBundle}
    {found : List (FoundRoute F)} (h : found.length = l.length) (k : Nat) :
    freed k (preemptionMoves routes (l.zip found)) =
      ((l.filter fun v => k ∈ routes v.id).map (·.size.toNat)).sum := by
  have hfst : (l.zip found).map Prod.fst = l := List.map_fst_zip h.ge
  conv_rhs => rw [← hfst]
  generalize l.zip found = z
  unfold freed preemptionMoves
  induction z with
  | nil => rfl
  | cons p z ih =>
      rw [List.map_cons, List.map_cons, List.sum_cons, ih, List.map_cons]
      by_cases hk : k ∈ routes p.1.id
      · rw [List.filter_cons_of_pos (by simpa using hk), List.map_cons, List.sum_cons, if_pos hk]
        push_cast
        rfl
      · rw [List.filter_cons_of_neg (by simpa using hk), if_neg hk, Int.zero_add]

theorem claimed_eq_zero {k : Nat} {ms : List Move} (h : ∀ m ∈ ms, k ∉ m.new) :
    claimed k ms = 0 := by
  unfold claimed
  refine List.sum_eq_zero fun z hz => ?_
  obtain ⟨m, hm, rfl⟩ := List.mem_map.1 hz
  exact if_neg (h m hm)

end

section

variable {F : Type} [Confidence F] {cfg : OptimizerConfig F} {confidence : Nat → F → F}
  {eidTable : CStr → Option (List (Associated F))} {now : UInt64} {s : Assignments}
  {rb : RoutedBundle} {found : List (FoundRoute F)}

/-- The moves of the preempted bundles. -/
abbrev movesOfPreempted (cfg : OptimizerConfig F) (confidence : Nat → F → F)
    (eidTable : CStr → Option (List (Associated F))) (now : UInt64) (s : Assignments)
    (rb : RoutedBundle) (found : List (FoundRoute F)) : List Move :=
  preemptionMoves s.routes ((newDecision cfg confidence eidTable now s rb).preempted.zip found)

/-- The new contacts of the bundle get none of the preempted ones. -/
theorem claimed_newc (hfound : preemptedRoutes cfg confidence eidTable now s rb = some found)
    {k : Nat} (hk : k ∈ (newDecision cfg confidence eidTable now s rb).newc) :
    claimed k (movesOfPreempted cfg confidence eidTable now s rb found) = 0 := by
  refine claimed_eq_zero fun m hm hnew => ?_
  obtain ⟨p, hp, rfl⟩ := List.mem_map.1 hm
  rw [preemptedRoutes] at hfound
  split at hfound
  · exact newRoutes_excluded hfound p.2 (List.of_mem_zip hp).2 k hnew hk
  · cases hfound

/-- The preempted bundles of a contact are listed there. -/
theorem freed_le (hlisted : Listed s.contacts s.routes)
    (hfound : preemptedRoutes cfg confidence eidTable now s rb = some found)
    (hids : ((newDecision cfg confidence eidTable now s rb).preempted.map (·.id)).Nodup) (k : Nat) :
    freed k (movesOfPreempted cfg confidence eidTable now s rb found) ≤
      sizesFrom .low (withoutBundle s rb k).contactBundles := by
  have hwithout := listed_without rb hlisted
  have hmem : ∀ x ∈ (newDecision cfg confidence eidTable now s rb).preempted,
      x.id ≠ rb.id ∧ ∃ k, x ∈ (withoutBundle s rb k).contactBundles :=
    fun x hx => mem_preempted hlisted hx
  rw [freed_preemptionMoves s.routes (preemptedRoutes_usable hfound).1, sizesFrom_low]
  generalize (newDecision cfg confidence eidTable now s rb).preempted = l at hids hmem
  have hnodup : (l.filter fun v => k ∈ s.routes v.id).Nodup :=
    (List.Nodup.of_map _ hids).filter _
  have hsub : (l.filter fun v => k ∈ s.routes v.id) ⊆ (withoutBundle s rb k).contactBundles := by
    intro v hv
    obtain ⟨hv, hk⟩ := List.mem_filter.1 hv
    obtain ⟨hne, j, hj⟩ := hmem v hv
    have hlist := (hwithout.mem_iff k v.id).2 (by
      rw [Function.update_of_ne hne]
      exact of_decide_eq_true hk)
    obtain ⟨y, hy, hid⟩ := List.mem_map.1 hlist
    exact hwithout.same k j y hy v hj hid ▸ hy
  obtain ⟨l', hperm, hsublist⟩ := hnodup.subperm hsub
  rw [← (hperm.map _).sum_eq]
  exact_mod_cast (hsublist.map _).sum_le_sum fun _ _ => Nat.zero_le _

/-- **Preemption makes room**: with accounts within 32 bits, each new contact of the bundle has
capacity for it when the preempted bundles have moved. -/
theorem room_for_bundle (hlisted : Listed s.contacts s.routes)
    (hnonneg : ∀ k, 0 ≤ (s.contacts k).remainingCapacityP0) (hbounded : Bounded s.contacts)
    (hsized : Sized s.contacts rb) (hrouted : s.routes rb.id ≠ [])
    (hfound : preemptedRoutes cfg confidence eidTable now s rb = some found)
    (hapart : Apart (newDecision cfg confidence eidTable now s rb).choices) {k : Nat}
    (hk : k ∈ (newDecision cfg confidence eidTable now s rb).newc) :
    ∃ z : Int, rb.size.toNat ≤ z ∧ z < 2 ^ 31 ∧
      z = (withoutBundle s rb k).remainingCapacityP0.toInt +
        freed k (movesOfPreempted cfg confidence eidTable now s rb found) := by
  obtain ⟨hnonneg', hbounded'⟩ := bounded_without hlisted hnonneg hbounded hsized
  have hok := (newDecision_ok cfg confidence eidTable now rb hlisted).1
  have hids : ((newDecision cfg confidence eidTable now s rb).preempted.map (·.id)).Nodup := by
    rw [hok.preempted]
    exact ((putOnce_iff hok.lists).2 hapart).nodup_live
  have hsmall : rb.size.toNat < 2 ^ 31 := by
    obtain ⟨j, hj⟩ := List.exists_mem_of_ne_nil _ hrouted
    obtain ⟨x, hx, hid⟩ := List.mem_map.1 ((hlisted.mem_iff j rb.id).2 hj)
    have hle := size_le_sizesFrom hx
    have hp0 := Int32.le_iff_toInt_le.1 (hnonneg j)
    have hj := hbounded j
    rw [Int32.toInt_zero] at hp0
    rw [hsized j x hx hid] at hle
    omega
  have hroom : RoomAt (withoutBundle s rb) now rb.size
      (newDecision cfg confidence eidTable now s rb).choices k :=
    decisionLoop_room hnonneg' hbounded' hsmall rb.prio
      (fun k hk => absurd hk List.not_mem_nil) k hk
  have hcap := lowCapacity_bounds (hnonneg' k) now
  have hle := freed_le hlisted hfound hids k
  have htotal := hbounded' k
  have hfreed := freed_preemptionMoves s.routes (preemptedRoutes_usable hfound).1 k
  refine ⟨_, ?_, ?_, rfl⟩
  · rcases hroom with hroom | ⟨ch, hch, rfl, hsuccess, hroom⟩
    · rw [hfreed]
      omega
    · have hvictims : ch.victims.Sublist
          ((newDecision cfg confidence eidTable now s rb).preempted.filter fun v =>
            ch.contact ∈ s.routes v.id) := by
        have hall : ∀ v ∈ ch.victims, decide (ch.contact ∈ s.routes v.id) = true := by
          intro v hv
          have hlive : v ∈ (newDecision cfg confidence eidTable now s rb).preempted := by
            rw [hok.preempted]
            exact mem_live.2 ⟨ch, hch, hsuccess, hv⟩
          have hlist := ((listed_without rb hlisted).mem_iff ch.contact v.id).1
            (List.mem_map_of_mem ((hok.lists ch hch).mem v hv))
          rw [Function.update_of_ne (mem_preempted hlisted hlive).1] at hlist
          exact decide_eq_true hlist
        rw [← List.filter_eq_self.2 hall, hok.preempted]
        refine List.Sublist.filter _ (List.sublist_flatten_of_mem ?_)
        exact List.mem_map_of_mem (List.mem_filter.2 ⟨hch, hsuccess⟩)
      have hsum := (hvictims.map (·.size.toNat)).sum_le_sum fun _ _ => Nat.zero_le _
      rw [hfreed]
      omega
  · omega

/-- **When the moves of a decision fit**: with accounts within 32 bits, only the new routes of the
preempted bundles can be too much, at the contacts that the bundle itself does not enter. -/
theorem movesFit_iff (hlisted : Listed s.contacts s.routes)
    (hnonneg : ∀ k, 0 ≤ (s.contacts k).remainingCapacityP0) (hbounded : Bounded s.contacts)
    (hsized : Sized s.contacts rb) (hrouted : s.routes rb.id ≠ []) (hpos : 0 < rb.size.toNat)
    (hfound : preemptedRoutes cfg confidence eidTable now s rb = some found)
    (hapart : Apart (newDecision cfg confidence eidTable now s rb).choices) :
    let moves := movesOfPreempted cfg confidence eidTable now s rb found
    MovesFit (withoutBundle s rb) (plannedMoves cfg confidence eidTable now s rb found) ↔
      MovesServed (withoutBundle s rb) moves ∧
        ∀ k ∉ (newDecision cfg confidence eidTable now s rb).newc,
          0 ≤ capacityAfter (withoutBundle s rb) k (freed k moves) (claimed k moves) := by
  have hnewc : ∀ k ∈ (newDecision cfg confidence eidTable now s rb).newc,
      0 < capacityAfter (withoutBundle s rb) k
          (freed k (movesOfPreempted cfg confidence eidTable now s rb found)) 0 ∧
        0 ≤ capacityAfter (withoutBundle s rb) k
          (freed k (movesOfPreempted cfg confidence eidTable now s rb found)) rb.size.toNat := by
    intro k hk
    obtain ⟨z, hle, hlt, hz⟩ :=
      room_for_bundle hlisted hnonneg hbounded hsized hrouted hfound hapart hk
    constructor
    · rw [capacityAfter, ← hz, Int32.lt_iff_toInt_lt, Int32.toInt_ofInt_of_le (by omega) (by omega),
        Int32.toInt_zero]
      omega
    · rw [capacityAfter, ← hz, Int32.le_iff_toInt_le, Int32.toInt_ofInt_of_le (by omega) (by omega),
        Int32.toInt_zero]
      omega
  have hclaimed := fun k hk => claimed_newc (k := k) hfound hk
  unfold plannedMoves
  dsimp only
  set d := newDecision cfg confidence eidTable now s rb
  set moves := preemptionMoves s.routes (d.preempted.zip found)
  have hfreed : ∀ k, freed k (moves ++ [⟨rb.optimized, [], d.newc⟩]) = freed k moves := by
    intro k
    rw [freed_append]
    simp [freed]
  have hlast : ∀ k, claimed k (moves ++ [⟨rb.optimized, [], d.newc⟩]) =
      claimed k moves + if k ∈ d.newc then (rb.size.toNat : Int) else 0 := by
    intro k
    rw [claimed_append]
    simp [claimed, RoutedBundle.optimized]
  constructor
  · intro h
    refine ⟨(movesServed_append_singleton.1 h.served).1, fun k hk => ?_⟩
    have hfinal := h.final k
    rwa [hfreed, hlast, if_neg hk, Int.add_zero] at hfinal
  · rintro ⟨hserved, hfinal⟩
    refine ⟨movesServed_append_singleton.2 ⟨hserved, fun k hk => ?_⟩, fun k => ?_⟩
    · rw [hfreed, hclaimed k hk]
      exact (hnewc k hk).1
    · rw [hfreed, hlast]
      by_cases hk : k ∈ d.newc
      · rw [if_pos hk, hclaimed k hk, Int.zero_add]
        exact (hnewc k hk).2
      · rw [if_neg hk, Int.add_zero]
        exact hfinal k hk

end

/-- In the crowd the bundle of low priority leaves room, and its own move is served. -/
theorem movesFit_iff_crowded :
    MovesFit (withoutBundle crowded normalBundle)
      (plannedMoves percentConfig (fun _ p => p) twoNodes 0 crowded normalBundle
        [⟨100, [2], 0⟩]) := by
  refine (movesFit_iff listed_crowded crowded_nonneg ?_ ?_ (by decide) (by decide) rfl ?_).2
    ⟨?_, ?_⟩
  · intro k
    rcases k with _ | _ | _ | k
    iterate 3 decide
    simp [crowded, withBundle, freeContacts, noContact, sizesFrom]
  · intro k x hx hid
    rcases mem_withBundle.1 hx with hx | ⟨-, hx⟩
    · rcases mem_withBundle.1 hx with hx | ⟨-, rfl⟩
      · rw [bundles_freeContacts] at hx
        exact absurd hx List.not_mem_nil
      · exact absurd hid (by decide)
    · rw [hx]
  · exact List.pairwise_singleton _ _
  · show MovesServed _ [⟨lowBundle, [0], [2]⟩]
    unfold MovesServed
    decide
  · intro k _
    show 0 ≤ capacityAfter _ k (freed k [⟨lowBundle, [0], [2]⟩]) (claimed k [⟨lowBundle, [0], [2]⟩])
    rcases k with _ | _ | _ | k
    iterate 3 decide
    have hnone : freed (k + 3) [⟨lowBundle, [0], [2]⟩] = 0 ∧
        claimed (k + 3) [⟨lowBundle, [0], [2]⟩] = 0 := by simp [freed, claimed]
    rw [hnone.1, hnone.2, capacityAfter_zero]
    exact Int32.le_refl 0

end ContactRouter
