import DisruptaBLE.Contact.Capacity
import DisruptaBLE.Contact.RouterRuns
import DisruptaBLE.Processor.Custody

/-!
# The accounts of a contact

The remaining capacities of a contact and `bundle_count`, over sequences of
`router_add_bundle_to_contact`, `router_remove_bundle_from_contact` and
`recalculate_contact_capacity`, and what `router_remove_bundle_from_route` takes back
(`components/routing/contact/router.c`).

The capacities are exact as long as they fit into 32 bits.  `bundle_count` has 8 bits, and nothing
limits the number of bundles of a contact.
-/

namespace ContactRouter

open PtrHeap (Addr bind_eq_ok ok_bind)
open BundleProcessor

/-! ## Sizes -/

/-- The order of the priorities. -/
def RoutingPriority.level : RoutingPriority → Nat
  | .low => 0
  | .normal => 1
  | .high => 2

/-- The sizes of the bundles with at least this priority. -/
def sizesFrom (prio : RoutingPriority) : List RoutedBundle → Nat
  | [] => 0
  | rb :: rbs =>
      (if prio.level ≤ rb.prio.level then rb.size.toNat else 0) + sizesFrom prio rbs

theorem sizesFrom_append (prio : RoutingPriority) (l l' : List RoutedBundle) :
    sizesFrom prio (l ++ l') = sizesFrom prio l + sizesFrom prio l' := by
  induction l with
  | nil => simp [sizesFrom]
  | cons rb l ih => rw [List.cons_append, sizesFrom, sizesFrom, ih, Nat.add_assoc]

/-- An entry that goes takes its size with it. -/
theorem sizesFrom_eraseP {prio : RoutingPriority} {l : List RoutedBundle} {rb : RoutedBundle}
    {p : RoutedBundle → Bool} (h : l.find? p = some rb) :
    sizesFrom prio l = (if prio.level ≤ rb.prio.level then rb.size.toNat else 0) +
      sizesFrom prio (l.eraseP p) := by
  induction l with
  | nil => cases h
  | cons x l ih =>
      by_cases hx : p x = true
      · rw [List.find?_cons_of_pos hx] at h
        cases h
        rw [List.eraseP_cons_of_pos hx, sizesFrom]
      · rw [List.find?_cons_of_neg hx] at h
        rw [List.eraseP_cons_of_neg hx, sizesFrom, sizesFrom, ih h]
        omega

/-- The priorities follow their order: what counts for a priority counts for the lower ones. -/
theorem sizesFrom_le {prio prio' : RoutingPriority} (h : prio.level ≤ prio'.level)
    (l : List RoutedBundle) : sizesFrom prio' l ≤ sizesFrom prio l := by
  induction l with
  | nil => exact Nat.le_refl _
  | cons rb l ih =>
      rw [sizesFrom, sizesFrom]
      apply Nat.add_le_add _ ih
      split
      · rw [if_pos (by omega)]
      · exact Nat.zero_le _

/-! ## Operations and runs -/

/-- The operations that change the accounts of a contact. -/
inductive CapacityOp where
  | add (k : Nat) (rb : RoutedBundle)
  | remove (k : Nat) (id : UInt16)
  | recalculate (k : Nat) (fromTime toTime : UInt64) (bitrate : UInt32)

variable (env : Env)

/-- One operation. -/
def capacityStep (s : Router) : CapacityOp → Except Fault Router
  | .add k rb => do
      let (_, s) ← routerAddBundleToContact env s k rb
      pure s
  | .remove k id => .ok (routerRemoveBundleFromContact s k id)
  | .recalculate k fromTime toTime bitrate =>
      .ok (s.setContact k
        (recalculateContactCapacity bitrate { s.contacts k with fromTime, toTime }))

/-- A property of all states of a run. -/
def Always (P : Router → Prop) : List CapacityOp → Router → Prop
  | [], s => P s
  | op :: ops, s => P s ∧ ∀ s', capacityStep env s op = .ok s' → Always P ops s'

/-- A contact that gets a bundle has fewer than 255 of them. -/
def HasRoom (s : Router) : CapacityOp → Prop
  | .add k _ =>
      0 < (s.contacts k).remainingCapacityP0 → (s.malloc env).1 = true →
        (s.contacts k).contactBundles.length < 255
  | _ => True

/-- All operations of a run find room. -/
def Roomy : List CapacityOp → Router → Prop
  | [], _ => True
  | op :: ops, s => HasRoom env s op ∧ ∀ s', capacityStep env s op = .ok s' → Roomy ops s'

/-- A contact as it is created, with any times. -/
structure Fresh (c : Contact) : Prop where
  total : c.totalCapacity = 0
  p0 : c.remainingCapacityP0 = 0
  p1 : c.remainingCapacityP1 = 0
  p2 : c.remainingCapacityP2 = 0
  bundles : c.contactBundles = []
  count : c.bundleCount = 0

/-- The sum stays within 32 bits. -/
def Fits (c : Contact) : Prop :=
  -2 ^ 31 ≤ (c.totalCapacity.toNat : Int) - sizesFrom .low c.contactBundles

/-- The counters of a contact say what they should. -/
structure Accounted (c : Contact) : Prop where
  p0 : c.remainingCapacityP0.toInt = c.totalCapacity.toNat - sizesFrom .low c.contactBundles
  p1 : c.remainingCapacityP1.toInt = c.totalCapacity.toNat - sizesFrom .normal c.contactBundles
  p2 : c.remainingCapacityP2.toInt = c.totalCapacity.toNat - sizesFrom .high c.contactBundles
  count : c.bundleCount.toNat = c.contactBundles.length

/-! ## One contact -/

/-- A contact with one bundle more. -/
def Contact.added (c : Contact) (rb : RoutedBundle) : Contact :=
  ({ c with
      contactBundles := c.contactBundles ++ [rb]
      bundleCount := c.bundleCount + 1 } : Contact).changeCapacity rb.prio (· - rb.size.toInt32)

/-- A contact without the first bundle with this id. -/
def Contact.removed (c : Contact) (id : UInt16) : Contact :=
  match c.contactBundles.find? (·.id = id) with
  | none => c
  | some rb =>
      ({ c with
        contactBundles := c.contactBundles.eraseP (·.id = id)
        bundleCount := c.bundleCount - 1 } : Contact).changeCapacity rb.prio (· + rb.size.toInt32)

/-- The counters of a contact, within their types. -/
structure Counted (c : Contact) : Prop where
  total : c.totalCapacity.toNat < 2 ^ 31
  capacity : ∀ prio, contactCapacity c prio =
    .ofInt (c.totalCapacity.toNat - sizesFrom prio c.contactBundles)
  count : c.bundleCount = .ofNat c.contactBundles.length

theorem toInt32_eq_ofInt (x : UInt32) : x.toInt32 = .ofInt x.toNat := by
  apply Int32.toInt_inj.1
  rw [toInt_toInt32, Int32.toInt_ofInt]
  rfl

/-- A change of the capacities for a priority reaches this priority and the lower ones. -/
theorem contactCapacity_change (c : Contact) (prio prio' : RoutingPriority) (f : Int32 → Int32) :
    contactCapacity (c.changeCapacity prio f) prio' =
      if prio'.level ≤ prio.level then f (contactCapacity c prio')
      else contactCapacity c prio' := by
  cases prio <;> cases prio' <;> rfl

theorem Fresh.counted {c : Contact} (h : Fresh c) : Counted c := by
  obtain ⟨htotal, h0, h1, h2, hbundles, hcount⟩ := h
  refine ⟨by simp [htotal], fun prio => ?_, by simp [hcount, hbundles]⟩
  cases prio <;> simp [contactCapacity, htotal, h0, h1, h2, hbundles, sizesFrom]

/-- Within 32 bits the capacities are exact, and the count is the length below 256. -/
theorem Counted.accounted_iff {c : Contact} (h : Counted c) (hfits : Fits c) :
    Accounted c ↔ c.contactBundles.length < 256 := by
  have hexact : ∀ prio, (contactCapacity c prio).toInt =
      c.totalCapacity.toNat - sizesFrom prio c.contactBundles := fun prio => by
    have hle := sizesFrom_le (show RoutingPriority.low.level ≤ prio.level from Nat.zero_le _)
      c.contactBundles
    have htotal := h.total
    unfold Fits at hfits
    rw [h.capacity, Int32.toInt_ofInt_of_le (by omega) (by omega)]
  constructor
  · intro hacc
    rw [← hacc.count]
    exact c.bundleCount.toNat_lt
  · intro hlt
    refine ⟨hexact .low, hexact .normal, hexact .high, ?_⟩
    rw [h.count, UInt8.toNat_ofNat_of_lt' hlt]

theorem Counted.add {c : Contact} (h : Counted c) (rb : RoutedBundle) : Counted (c.added rb) := by
  obtain ⟨htotal, hcapacity, hcount⟩ := h
  refine ⟨htotal, fun prio => ?_, ?_⟩
  · have hsizes : sizesFrom prio (c.added rb).contactBundles =
        sizesFrom prio c.contactBundles +
          if prio.level ≤ rb.prio.level then rb.size.toNat else 0 :=
      sizesFrom_append prio c.contactBundles [rb]
    have hkept : (c.added rb).totalCapacity = c.totalCapacity := rfl
    refine (contactCapacity_change _ _ _ _).trans ?_
    rw [hsizes, hkept]
    show (if _ then contactCapacity c prio - rb.size.toInt32 else contactCapacity c prio) = _
    rw [hcapacity, toInt32_eq_ofInt, ← Int32.ofInt_sub]
    split
    · congr 1
      push_cast
      ring
    · rfl
  · show c.bundleCount + 1 = .ofNat (c.contactBundles ++ [rb]).length
    rw [hcount, List.length_append, UInt8.ofNat_add]
    rfl

theorem Counted.remove {c : Contact} (h : Counted c) (id : UInt16) : Counted (c.removed id) := by
  unfold Contact.removed
  split
  · exact h
  next rb hfind =>
  obtain ⟨htotal, hcapacity, hcount⟩ := h
  refine ⟨htotal, fun prio => ?_, ?_⟩
  · have hsizes := @sizesFrom_eraseP prio _ _ _ hfind
    refine (contactCapacity_change _ _ _ _).trans ?_
    show (if _ then contactCapacity c prio + rb.size.toInt32 else contactCapacity c prio) =
      .ofInt (c.totalCapacity.toNat - sizesFrom prio (c.contactBundles.eraseP (·.id = id)))
    rw [hcapacity, toInt32_eq_ofInt, ← Int32.ofInt_add]
    split
    · next hlevel =>
      rw [if_pos hlevel] at hsizes
      congr 1
      omega
    · next hlevel =>
      rw [if_neg hlevel] at hsizes
      congr 1
      omega
  · show c.bundleCount - 1 = .ofNat (c.contactBundles.eraseP (·.id = id)).length
    have hmem := List.mem_of_find?_eq_some hfind
    have hpos := List.length_pos_of_mem hmem
    rw [List.length_eraseP_of_mem hmem (List.find?_some hfind), hcount,
      UInt8.ofNat_sub hpos]
    rfl

theorem Counted.recalculate {c : Contact} (h : Counted c) (bitrate : UInt32) :
    Counted (recalculateContactCapacity bitrate c) := by
  obtain ⟨htotal, hcapacity, hcount⟩ := h
  have hnew := newCapacity_lt c bitrate
  have hcut : (newCapacity c bitrate).toUInt32.toNat = (newCapacity c bitrate).toNat := by
    rw [UInt64.toNat_toUInt32, Nat.mod_eq_of_lt (by omega)]
  refine ⟨by show (newCapacity c bitrate).toUInt32.toNat < _; rwa [hcut], fun prio => ?_, hcount⟩
  have hchange : contactCapacity (recalculateContactCapacity bitrate c) prio =
      contactCapacity c prio + ((newCapacity c bitrate).toUInt32 - c.totalCapacity).toInt32 := by
    cases prio <;> rfl
  rw [hchange, hcapacity, UInt32.toInt32_sub, toInt32_eq_ofInt, toInt32_eq_ofInt,
    ← Int32.ofInt_sub, ← Int32.ofInt_add]
  congr 1
  show _ = (((newCapacity c bitrate).toUInt32.toNat : Int) - sizesFrom prio c.contactBundles)
  ring

/-! ## Runs -/

section

variable {env} {s s' : Router}

/-- What one addition does. -/
theorem addToContact_cases {k : Nat} {rb : RoutedBundle} {added : Bool}
    (h : routerAddBundleToContact env s k rb = .ok (added, s')) :
    0 < (s.contacts k).remainingCapacityP0 ∧ added = (s.malloc env).1 ∧
      s'.contacts = if added then
        Function.update s.contacts k ((s.contacts k).added rb) else s.contacts := by
  unfold routerAddBundleToContact at h
  obtain ⟨_, hassert, h⟩ := bind_eq_ok.1 h
  have hpos := of_decide_eq_true (assertP_eq_ok hassert)
  dsimp only at h
  by_cases hmem : (s.malloc env).1 = true
  · rw [hmem] at h
    cases h
    exact ⟨hpos, hmem.symm, rfl⟩
  · rw [Bool.not_eq_true] at hmem
    rw [hmem] at h
    cases h
    exact ⟨hpos, hmem.symm, rfl⟩

/-- While something remains, no assertion stops an addition. -/
theorem addToContact_of_capacity (env : Env) {k : Nat} (rb : RoutedBundle)
    (hpos : 0 < (s.contacts k).remainingCapacityP0) :
    ∃ r, routerAddBundleToContact env s k rb = .ok r := by
  have hassert : assertP (0 < (s.contacts k).remainingCapacityP0) = .ok () := by
    simp [assertP, outside, hpos]
  unfold routerAddBundleToContact
  rw [hassert, ok_bind]
  dsimp only
  split
  · exact ⟨_, rfl⟩
  · exact ⟨_, rfl⟩

theorem contacts_removeFromContact (s : Router) (k : Nat) (id : UInt16) :
    (routerRemoveBundleFromContact s k id).contacts =
      Function.update s.contacts k ((s.contacts k).removed id) := by
  cases hfind : (s.contacts k).contactBundles.find? (·.id = id) with
  | none =>
      simp only [routerRemoveBundleFromContact, Contact.removed, hfind]
      exact (Function.update_eq_self k s.contacts).symm
  | some rb =>
      simp only [routerRemoveBundleFromContact, Contact.removed, hfind]
      rfl

/-- Every operation keeps the counters within their types. -/
theorem counted_step {op : CapacityOp} (hcounted : ∀ k, Counted (s.contacts k))
    (h : capacityStep env s op = .ok s') (k : Nat) : Counted (s'.contacts k) := by
  have hupdate : ∀ {j : Nat} {c : Contact}, Counted c →
      Counted (Function.update s.contacts j c k) := by
    intro j c hc
    rw [Function.update_apply]
    split
    · exact hc
    · exact hcounted k
  cases op with
  | add j rb =>
      obtain ⟨⟨added, s₁⟩, hadd, hs⟩ := bind_eq_ok.1 h
      cases hs
      rw [(addToContact_cases hadd).2.2]
      split
      · exact hupdate ((hcounted j).add rb)
      · exact hcounted k
  | remove j id =>
      cases h
      rw [contacts_removeFromContact]
      exact hupdate ((hcounted j).remove id)
  | recalculate j fromTime toTime bitrate =>
      cases h
      have htimes : Counted { s.contacts j with fromTime, toTime } :=
        ⟨(hcounted j).total, fun prio => by
          cases prio with
          | low => exact (hcounted j).capacity .low
          | normal => exact (hcounted j).capacity .normal
          | high => exact (hcounted j).capacity .high, (hcounted j).count⟩
      exact hupdate (htimes.recalculate bitrate)

theorem length_removed (c : Contact) (id : UInt16) :
    (c.removed id).contactBundles.length ≤ c.contactBundles.length := by
  unfold Contact.removed
  split
  · exact Nat.le_refl _
  · exact List.length_eraseP_le

/-- After an operation all contacts have fewer than 256 bundles if and only if it found room. -/
theorem length_step {op : CapacityOp} (hlt : ∀ k, (s.contacts k).contactBundles.length < 256)
    (h : capacityStep env s op = .ok s') :
    (∀ k, (s'.contacts k).contactBundles.length < 256) ↔ HasRoom env s op := by
  have hupdate : ∀ {j : Nat} {c : Contact}, c.contactBundles.length < 256 →
      ∀ k, (Function.update s.contacts j c k).contactBundles.length < 256 := by
    intro j c hc k
    rw [Function.update_apply]
    split
    · exact hc
    · exact hlt k
  cases op with
  | add j rb =>
      obtain ⟨⟨added, s₁⟩, hadd, hs⟩ := bind_eq_ok.1 h
      cases hs
      obtain ⟨hpos, hadded, hcontacts⟩ := addToContact_cases hadd
      rw [hcontacts]
      have hlen : ((s.contacts j).added rb).contactBundles.length =
          (s.contacts j).contactBundles.length + 1 := by
        show ((s.contacts j).contactBundles ++ [rb]).length = _
        rw [List.length_append]
        rfl
      constructor
      · intro hall _ hmem
        rw [if_pos (hadded.trans hmem)] at hall
        have := hall j
        rw [Function.update_self, hlen] at this
        omega
      · intro hroom
        split
        · next htrue =>
          have := hroom hpos (hadded.symm.trans htrue)
          exact hupdate (by omega)
        · exact hlt
  | remove j id =>
      cases h
      rw [contacts_removeFromContact]
      exact iff_of_true (hupdate (Nat.lt_of_le_of_lt (length_removed _ _) (hlt j))) trivial
  | recalculate j fromTime toTime bitrate =>
      cases h
      exact iff_of_true (hupdate (hlt j)) trivial

/-- An operation that is stopped by an assertion needs no room. -/
theorem hasRoom_of_stopped {op : CapacityOp} (h : ∀ s', capacityStep env s op ≠ .ok s') :
    HasRoom env s op := by
  cases op with
  | add k rb =>
      intro hpos _
      obtain ⟨⟨added, s'⟩, hadd⟩ := addToContact_of_capacity env rb hpos
      have hstep : capacityStep env s (.add k rb) = .ok s' := bind_eq_ok.2 ⟨_, hadd, rfl⟩
      exact absurd hstep (h s')
  | remove k id => trivial
  | recalculate k fromTime toTime bitrate => trivial

theorem Always.head {P : Router → Prop} {ops : List CapacityOp} (h : Always env P ops s) : P s := by
  cases ops with
  | nil => exact h
  | cons op ops => exact h.1

/-- **The accounts of a run**: while the sums fit into 32 bits, all counters are right in every
state of a run if and only if all its operations find room. -/
theorem always_accounted_iff {ops : List CapacityOp} (hcounted : ∀ k, Counted (s.contacts k))
    (hlt : ∀ k, (s.contacts k).contactBundles.length < 256)
    (hfits : Always env (fun s => ∀ k, Fits (s.contacts k)) ops s) :
    Always env (fun s => ∀ k, Accounted (s.contacts k)) ops s ↔ Roomy env ops s := by
  have hhere : ∀ {s : Router}, (∀ k, Counted (s.contacts k)) → (∀ k, Fits (s.contacts k)) →
      ((∀ k, Accounted (s.contacts k)) ↔ ∀ k, (s.contacts k).contactBundles.length < 256) :=
    fun hc hf => forall_congr' fun k => (hc k).accounted_iff (hf k)
  induction ops generalizing s with
  | nil => exact iff_of_true ((hhere hcounted hfits).2 hlt) trivial
  | cons op ops ih =>
      obtain ⟨hfit, hfits⟩ := hfits
      constructor
      · rintro ⟨-, hrest⟩
        refine ⟨?_, fun s' hs' => ?_⟩
        · by_cases hstop : ∃ s', capacityStep env s op = .ok s'
          · obtain ⟨s', hs'⟩ := hstop
            exact (length_step hlt hs').1
              ((hhere (counted_step hcounted hs') (hfits s' hs').head).1 (hrest s' hs').head)
          · exact hasRoom_of_stopped fun s' hs' => hstop ⟨s', hs'⟩
        · have hlt' := (hhere (counted_step hcounted hs') (hfits s' hs').head).1 (hrest s' hs').head
          exact (ih (counted_step hcounted hs') hlt' (hfits s' hs')).1 (hrest s' hs')
      · rintro ⟨hroom, hrest⟩
        refine ⟨(hhere hcounted hfit).2 hlt, fun s' hs' => ?_⟩
        exact (ih (counted_step hcounted hs') ((length_step hlt hs').2 hroom) (hfits s' hs')).2
          (hrest s' hs')

/-! ## Back from a route -/

/-- A contact with so many entries for one bundle more. -/
def Contact.addedTimes (rb : RoutedBundle) : Nat → Contact → Contact
  | 0, c => c
  | m + 1, c => (c.addedTimes rb m).added rb

theorem bundles_addedTimes (rb : RoutedBundle) (m : Nat) (c : Contact) :
    (c.addedTimes rb m).contactBundles = c.contactBundles ++ List.replicate m rb := by
  induction m with
  | zero => simp [Contact.addedTimes]
  | succ m ih =>
      show (c.addedTimes rb m).contactBundles ++ [rb] = _
      rw [ih, List.replicate_succ', List.append_assoc]

theorem addedTimes_added (rb : RoutedBundle) (m : Nat) (c : Contact) :
    (c.added rb).addedTimes rb m = c.addedTimes rb (m + 1) := by
  induction m with
  | zero => rfl
  | succ m ih => exact congrArg (·.added rb) ih

/-- The counters of an addition, taken back. -/
theorem added_undone (c : Contact) (rb : RoutedBundle) :
    ({ c.added rb with
      contactBundles := c.contactBundles
      bundleCount := (c.added rb).bundleCount - 1 } : Contact).changeCapacity rb.prio
        (· + rb.size.toInt32) = c := by
  obtain ⟨id, prio, size, expTime, destination, improvement⟩ := rb
  cases prio <;>
    simp [Contact.added, Contact.changeCapacity, Int32.sub_add_cancel]

/-- The removal takes back the last addition, when the bundle was not there before. -/
theorem removed_addedTimes {c : Contact} {rb : RoutedBundle}
    (hnew : ∀ x ∈ c.contactBundles, x.id ≠ rb.id) (m : Nat) :
    (c.addedTimes rb (m + 1)).removed rb.id = c.addedTimes rb m := by
  have hbundles : (c.addedTimes rb (m + 1)).contactBundles =
      c.contactBundles ++ rb :: List.replicate m rb := bundles_addedTimes rb (m + 1) c
  have hnone : ∀ x ∈ c.contactBundles, ¬decide (x.id = rb.id) = true := fun x hx h =>
    hnew x hx (of_decide_eq_true h)
  have hself : decide (rb.id = rb.id) = true := decide_eq_true rfl
  have hfind : (c.addedTimes rb (m + 1)).contactBundles.find? (·.id = rb.id) = some rb := by
    rw [hbundles, List.find?_append, List.find?_eq_none.2 hnone, Option.none_or]
    exact List.find?_cons_of_pos hself
  have herase : (c.addedTimes rb (m + 1)).contactBundles.eraseP (·.id = rb.id) =
      (c.addedTimes rb m).contactBundles := by
    rw [hbundles, List.eraseP_append_right _ hnone, bundles_addedTimes]
    exact congrArg (c.contactBundles ++ ·) (List.eraseP_cons_of_pos hself)
  unfold Contact.removed
  rw [hfind]
  dsimp only
  rw [herase]
  exact added_undone (c.addedTimes rb m) rb

/-- A contact without the bundle stays as it is. -/
theorem removed_of_new {c : Contact} {id : UInt16} (hnew : ∀ x ∈ c.contactBundles, x.id ≠ id) :
    c.removed id = c := by
  have hfind : c.contactBundles.find? (·.id = id) = none :=
    List.find?_eq_none.2 fun x hx h => hnew x hx (of_decide_eq_true h)
  unfold Contact.removed
  rw [hfind]

/-- At least as many removals as additions bring the contact back. -/
theorem removed_iterate {c : Contact} {rb : RoutedBundle}
    (hnew : ∀ x ∈ c.contactBundles, x.id ≠ rb.id) {m n : Nat} (hmn : m ≤ n) :
    (fun d : Contact => d.removed rb.id)^[n] (c.addedTimes rb m) = c := by
  induction n generalizing m with
  | zero =>
      rw [Nat.le_zero.1 hmn]
      rfl
  | succ n ih =>
      rw [Function.iterate_succ_apply]
      cases m with
      | zero =>
          show _^[n] (c.removed rb.id) = c
          rw [removed_of_new hnew]
          exact @ih 0 (Nat.zero_le _)
      | succ m =>
          rw [removed_addedTimes hnew]
          exact ih (Nat.le_of_succ_le_succ hmn)

/-- Each contact gets the bundle at most as often as the list has it. -/
theorem contacts_addToContacts {rb : RoutedBundle} {ks : List Nat} {added : Bool}
    (h : addToContacts env rb s ks = .ok (added, s')) (k : Nat) :
    ∃ m ≤ ks.count k, s'.contacts k = (s.contacts k).addedTimes rb m := by
  induction ks generalizing s s' added with
  | nil =>
      cases h
      exact ⟨0, Nat.le_refl _, rfl⟩
  | cons j ks ih =>
      obtain ⟨⟨first, s₁⟩, hfirst, h⟩ := bind_eq_ok.1 h
      obtain ⟨⟨more, s₂⟩, hmore, h⟩ := bind_eq_ok.1 h
      cases h
      obtain ⟨m, hm, hrest⟩ := ih hmore
      rw [hrest, (addToContact_cases hfirst).2.2]
      have hcount := List.count_le_count_cons (a := k) (b := j) (l := ks)
      split
      · by_cases hj : k = j
        · subst hj
          refine ⟨m + 1, ?_, ?_⟩
          · rw [List.count_cons_self]
            exact Nat.succ_le_succ hm
          · rw [Function.update_self, addedTimes_added]
        · exact ⟨m, hm.trans hcount, by rw [Function.update_of_ne hj]⟩
      · exact ⟨m, hm.trans hcount, rfl⟩

/-- Each contact loses the bundle as often as the route has it. -/
theorem contacts_removeFromRoute (s : Router) (r : FragmentRoute) (id : UInt16) (k : Nat) :
    (routerRemoveBundleFromRoute s r id).contacts k =
      (fun d : Contact => d.removed id)^[r.contacts.count k] (s.contacts k) := by
  unfold routerRemoveBundleFromRoute
  induction r.contacts generalizing s with
  | nil => rfl
  | cons j ks ih =>
      rw [List.foldl_cons, ih, contacts_removeFromContact]
      by_cases hj : k = j
      · subst hj
        rw [Function.update_self, List.count_cons_self, Function.iterate_succ_apply]
      · rw [Function.update_of_ne hj, List.count_cons_of_ne (Ne.symm hj)]

/-- An addition to a route is one to its contacts. -/
theorem addToRoute_cases {r : FragmentRoute} {a : Addr} {b : Bundle}
    (hb : s.node.bundle a = .ok b) (h : routerAddBundleToRoute env s r a = .ok (true, s')) :
    ∃ s₁ rb, s₁.contacts = s.contacts ∧ rb.id = b.id ∧
      addToContacts env rb s₁ r.contacts = .ok (true, s') := by
  unfold routerAddBundleToRoute Router.malloc BundleProcessor.malloc at h
  dsimp only at h
  split at h
  · cases h
  obtain ⟨b', hb', h⟩ := bind_eq_ok.1 h
  obtain rfl : b' = b := Except.ok.inj (hb'.symm.trans hb)
  obtain ⟨node, -, h⟩ := bind_eq_ok.1 h
  split at h
  · cases h
  unfold routerUpdateRoutedBundle Router.malloc BundleProcessor.malloc at h
  obtain ⟨_, -, h⟩ := bind_eq_ok.1 h
  dsimp only at h
  split at h
  · cases h
  refine ⟨_, _, ?_, ?_, h⟩
  · rfl
  · rfl

/-- **Back from a route**: after a successful addition, the removal from the route restores all its
contacts, if none of them had the bundle before. -/
theorem contacts_restored {r : FragmentRoute} {a : Addr} {b : Bundle}
    (hb : s.node.bundle a = .ok b)
    (hnew : ∀ k ∈ r.contacts, ∀ rb ∈ (s.contacts k).contactBundles, rb.id ≠ b.id)
    (h : routerAddBundleToRoute env s r a = .ok (true, s')) {k : Nat} (hk : k ∈ r.contacts) :
    (routerRemoveBundleFromRoute s' r b.id).contacts k = s.contacts k := by
  obtain ⟨s₁, rb, hcontacts, hid, hadd⟩ := addToRoute_cases hb h
  obtain ⟨m, hm, hadded⟩ := contacts_addToContacts hadd k
  rw [contacts_removeFromRoute, hadded, hcontacts, ← hid]
  exact removed_iterate (fun x hx => hid ▸ hnew k hk x hx) hm

end

/-- **The accounts of all contacts.**  From the creation of the contacts on, while the sums fit into
32 bits, all counters are right in every state of a run if and only if no contact gets a 256th
bundle; and the removal of a bundle from a route always takes back its addition. -/
theorem capacity_accounting_iff (env : Env) (s : Router) (ops : List CapacityOp)
    (hfresh : ∀ k, Fresh (s.contacts k))
    (hfits : Always env (fun s => ∀ k, Fits (s.contacts k)) ops s) :
    (Always env (fun s => ∀ k, Accounted (s.contacts k)) ops s ↔ Roomy env ops s) ∧
    ∀ (t t' : Router) (r : FragmentRoute) (a : Addr) (b : Bundle), t.node.bundle a = .ok b →
      (∀ k ∈ r.contacts, ∀ rb ∈ (t.contacts k).contactBundles, rb.id ≠ b.id) →
      routerAddBundleToRoute env t r a = .ok (true, t') →
      ∀ k ∈ r.contacts, (routerRemoveBundleFromRoute t' r b.id).contacts k = t.contacts k := by
  constructor
  · refine always_accounted_iff (fun k => (hfresh k).counted) (fun k => ?_) hfits
    rw [(hfresh k).bundles]
    decide
  · intro t t' r a b hb hnew h k hk
    exact contacts_restored hb hnew h hk

theorem fits_of_empty {c : Contact} (h : c.contactBundles = []) : Fits c := by
  unfold Fits
  rw [h, sizesFrom]
  omega

/-- A new capacity brings no bundles. -/
theorem bundles_recalculated {s : Router} {j : Nat} {c : Contact} {bitrate : UInt32}
    (h : ∀ k, (s.contacts k).contactBundles = []) (hc : c.contactBundles = []) (k : Nat) :
    ((s.setContact j (recalculateContactCapacity bitrate c)).contacts k).contactBundles = [] := by
  show (Function.update s.contacts j _ k).contactBundles = _
  rw [Function.update_apply]
  split
  · exact hc
  · exact h k

theorem fresh_noContact : Fresh noContact := ⟨rfl, rfl, rfl, rfl, rfl, rfl⟩

/-- The small node with one bundle, and contacts of an hour. -/
def hourly (b : Bundle) : Router := ⟨holding b, fun _ => emptyContact 3600 1000⟩

/-- A contact of an hour is planned, and the only bundle goes to such a contact and back. -/
theorem capacity_accounting_iff_hour :
    Always calm (fun s => ∀ k, Accounted (s.contacts k)) [.recalculate 0 0 3600 1000]
        (stranded wholeNote) ∧
      ∃ s', routerAddBundleToRoute calm (hourly wholeNote) ⟨5, 1, [0], 0⟩ 0 = .ok (true, s') ∧
        (routerRemoveBundleFromRoute s' ⟨5, 1, [0], 0⟩ 1).contacts 0 = emptyContact 3600 1000 := by
  have hfits : Always calm (fun s => ∀ k, Fits (s.contacts k)) [.recalculate 0 0 3600 1000]
      (stranded wholeNote) := by
    refine ⟨fun _ => fits_of_empty rfl, fun s' h k => ?_⟩
    cases h
    exact fits_of_empty (bundles_recalculated (fun _ => rfl) rfl k)
  obtain ⟨haccounts, hback⟩ :=
    capacity_accounting_iff calm (stranded wholeNote) _ (fun _ => fresh_noContact) hfits
  refine ⟨haccounts.2 ⟨trivial, fun _ _ => trivial⟩, ?_⟩
  have hrun : (routerAddBundleToRoute calm (hourly wholeNote) ⟨5, 1, [0], 0⟩ 0).map Prod.fst =
      .ok true := rfl
  cases hadd : routerAddBundleToRoute calm (hourly wholeNote) ⟨5, 1, [0], 0⟩ 0 with
  | error f =>
      rw [hadd] at hrun
      cases hrun
  | ok o =>
      obtain ⟨added, s'⟩ := o
      rw [hadd] at hrun
      obtain rfl : added = true := Except.ok.inj hrun
      refine ⟨s', rfl, ?_⟩
      exact hback (hourly wholeNote) s' ⟨5, 1, [0], 0⟩ 0 { wholeNote with id := 1 } rfl
        (fun _ _ rb h => absurd h List.not_mem_nil) hadd 0 (List.mem_singleton.2 rfl)

/-- So many additions of one bundle to a contact that has room for their sizes. -/
theorem not_always_accounted {env : Env} (hserved : ∀ n, (env.malloc n).isSome = true)
    {rb : RoutedBundle} {n : Nat} {s : Router} (hcounted : Counted (s.contacts 0))
    (hroom : sizesFrom .low (s.contacts 0).contactBundles + n * rb.size.toNat <
      (s.contacts 0).totalCapacity.toNat)
    (hlen : (s.contacts 0).contactBundles.length + n = 256) :
    ¬Always env (fun s => ∀ k, Accounted (s.contacts k)) (List.replicate n (.add 0 rb)) s := by
  induction n generalizing s with
  | zero =>
      intro h
      have hcount := (h 0).count
      have := (s.contacts 0).bundleCount.toNat_lt
      omega
  | succ n ih =>
      rintro ⟨-, hrest⟩
      have hpos : 0 < (s.contacts 0).remainingCapacityP0 := by
        rw [show (s.contacts 0).remainingCapacityP0 = _ from hcounted.capacity .low,
          Int32.lt_iff_toInt_lt, Int32.toInt_ofInt_of_le (by omega)
            (by have := hcounted.total; omega)]
        show (0 : Int) < _
        omega
      obtain ⟨⟨added, s'⟩, hadd⟩ := addToContact_of_capacity env rb hpos
      have hstep : capacityStep env s (.add 0 rb) = .ok s' := bind_eq_ok.2 ⟨_, hadd, rfl⟩
      obtain ⟨-, hadded, hcontacts⟩ := addToContact_cases hadd
      have htrue : added = true := hadded.trans (hserved _)
      have hself : s'.contacts 0 = (s.contacts 0).added rb := by
        rw [hcontacts, if_pos htrue, Function.update_self]
      have hbundles : (s'.contacts 0).contactBundles = (s.contacts 0).contactBundles ++ [rb] := by
        rw [hself]
        rfl
      have htotal : (s'.contacts 0).totalCapacity = (s.contacts 0).totalCapacity := by
        rw [hself]
        rfl
      refine ih ?_ ?_ ?_ (hrest s' hstep)
      · rw [hself]
        exact hcounted.add rb
      · rw [hbundles, htotal, sizesFrom_append]
        have : sizesFrom .low [rb] = rb.size.toNat := by simp [sizesFrom, RoutingPriority.level]
        rw [Nat.succ_mul] at hroom
        omega
      · rw [hbundles, List.length_append]
        simp only [List.length_singleton]
        omega

/-- So many additions of one bundle stay within 32 bits. -/
theorem always_fits {env : Env} {rb : RoutedBundle} {n : Nat} {s : Router}
    (h : ∀ k, sizesFrom .low (s.contacts k).contactBundles + n * rb.size.toNat ≤ 2 ^ 31) :
    Always env (fun s => ∀ k, Fits (s.contacts k)) (List.replicate n (.add 0 rb)) s := by
  have hhere : ∀ k, Fits (s.contacts k) := fun k => by
    have := h k
    unfold Fits
    omega
  induction n generalizing s with
  | zero => exact hhere
  | succ n ih =>
      refine ⟨hhere, fun s' hstep => ?_⟩
      obtain ⟨⟨added, s₁⟩, hadd, hs⟩ := bind_eq_ok.1 hstep
      obtain rfl : s₁ = s' := Except.ok.inj hs
      have hcontacts := (addToContact_cases hadd).2.2
      have hsize : sizesFrom .low [rb] = rb.size.toNat := by simp [sizesFrom, RoutingPriority.level]
      have hroom : ∀ k, sizesFrom .low (s₁.contacts k).contactBundles + n * rb.size.toNat ≤
          2 ^ 31 := by
        intro k
        have hk := h k
        rw [Nat.succ_mul] at hk
        rw [hcontacts]
        split
        · rw [Function.update_apply]
          split
          · next hk0 =>
            subst hk0
            show sizesFrom .low (_ ++ [rb]) + _ ≤ _
            rw [sizesFrom_append, hsize]
            omega
          · omega
        · omega
      refine ih hroom fun k => ?_
      have := hroom k
      unfold Fits
      omega

/-- A bundle of one byte. -/
def byteBundle : RoutedBundle := ⟨1, .normal, 1, 0, [], 0⟩

/-- After 256 bundles of one byte at a contact of an hour, its count is 0 again. -/
theorem bundle_count_wrapped :
    (∀ k, Fresh ((stranded wholeNote).contacts k)) ∧
      Always calm (fun s => ∀ k, Fits (s.contacts k))
        (.recalculate 0 0 3600 1000 :: List.replicate 256 (.add 0 byteBundle))
        (stranded wholeNote) ∧
      ¬Always calm (fun s => ∀ k, Accounted (s.contacts k))
        (.recalculate 0 0 3600 1000 :: List.replicate 256 (.add 0 byteBundle))
        (stranded wholeNote) := by
  refine ⟨fun _ => fresh_noContact, ⟨fun _ => fits_of_empty rfl, fun s' hs' => ?_⟩, ?_⟩
  · cases hs'
    apply always_fits
    intro k
    rw [bundles_recalculated (fun _ => rfl) rfl]
    decide
  · rintro ⟨-, hrest⟩
    refine not_always_accounted (fun _ => rfl) ?_ ?_ ?_ (hrest _ rfl)
    · have hplanned : Fresh { noContact with fromTime := 0, toTime := 3600 } :=
        ⟨rfl, rfl, rfl, rfl, rfl, rfl⟩
      exact hplanned.counted.recalculate 1000
    · decide
    · decide

end ContactRouter
