import DisruptaBLE.Contact.Optimizer
import Mathlib.Data.List.Pairwise

/-!
# Bundles that change their contacts

The contacts list the bundles that are routed over them (`Listed`).  When bundles leave their
contacts and enter others, one after the other, the listing holds again, and the capacities are
what is freed and claimed (`moveAll_spec`).
-/

namespace ContactRouter

open PtrHeap (bind_eq_ok ok_bind)
open BundleProcessor

/-! ## What the contacts list -/

/-- Each contact lists, once each, exactly the routed bundles that have it among their contacts.
Entries with one id are one routed bundle. -/
structure Listed (contacts : Nat → Contact) (routes : UInt16 → List Nat) : Prop where
  once : ∀ k, ((contacts k).contactBundles.map (·.id)).Nodup
  mem_iff : ∀ k id, id ∈ (contacts k).contactBundles.map (·.id) ↔ k ∈ routes id
  same : ∀ j k, ∀ x ∈ (contacts j).contactBundles, ∀ y ∈ (contacts k).contactBundles,
    x.id = y.id → x = y

/-- The entries for a bundle have its size. -/
def Sized (contacts : Nat → Contact) (rb : RoutedBundle) : Prop :=
  ∀ k, ∀ x ∈ (contacts k).contactBundles, x.id = rb.id → x.size = rb.size

/-- The capacity of a contact for low priority when sizes are freed and claimed, in 32 bits. -/
def capacityAfter (contacts : Nat → Contact) (k : Nat) (freed claimed : Int) : Int32 :=
  .ofInt ((contacts k).remainingCapacityP0.toInt + freed - claimed)

theorem capacityAfter_zero (contacts : Nat → Contact) (k : Nat) :
    capacityAfter contacts k 0 0 = (contacts k).remainingCapacityP0 := by
  rw [capacityAfter, Int.add_zero, Int.sub_zero, Int32.ofInt_toInt]

/-- What is freed and claimed later adds up. -/
theorem capacityAfter_add {cs cs' : Nat → Contact} {k : Nat} {f c : Int}
    (h : (cs' k).remainingCapacityP0 = capacityAfter cs k f c) (f' c' : Int) :
    capacityAfter cs' k f' c' = capacityAfter cs k (f + f') (c + c') := by
  unfold capacityAfter
  rw [h, capacityAfter, Int32.ofInt_sub, Int32.ofInt_add, Int32.ofInt_toInt, ← Int32.ofInt_add,
    ← Int32.ofInt_sub]
  congr 1
  ring

/-! ### A bundle leaves its contacts -/

theorem bundles_removed (c : Contact) (id : UInt16) :
    (c.removed id).contactBundles = c.contactBundles.eraseP (·.id = id) := by
  unfold Contact.removed
  split
  · next hnone =>
    exact (List.eraseP_of_forall_not fun x hx h => List.find?_eq_none.1 hnone x hx h).symm
  · rfl

theorem eraseP_id {l : List RoutedBundle} (h : (l.map (·.id)).Nodup) (id : UInt16) :
    l.eraseP (·.id = id) = l.filter (·.id ≠ id) := by
  induction l with
  | nil => rfl
  | cons x l ih =>
      obtain ⟨hx, hl⟩ := List.nodup_cons.1 h
      by_cases hid : x.id = id
      · have hothers : ∀ y ∈ l, y.id ≠ id := fun y hy heq =>
          hx (List.mem_map.2 ⟨y, hy, heq.trans hid.symm⟩)
        rw [List.eraseP_cons_of_pos (by simpa using hid),
          List.filter_cons_of_neg (by simpa using hid),
          List.filter_eq_self.2 (by simpa using hothers)]
      · rw [List.eraseP_cons_of_neg (by simpa using hid),
          List.filter_cons_of_pos (by simpa using hid), ih hl]

/-- The second removal finds nothing. -/
theorem removed_removed {c : Contact} (h : (c.contactBundles.map (·.id)).Nodup) (id : UInt16) :
    (c.removed id).removed id = c.removed id := by
  apply removed_of_new
  intro x hx
  rw [bundles_removed, eraseP_id h, List.mem_filter] at hx
  exact of_decide_eq_true hx.2

theorem removeFromAll_apply {cs : Nat → Contact}
    (h : ∀ k, ((cs k).contactBundles.map (·.id)).Nodup) (id : UInt16) (ks : List Nat) (k : Nat) :
    removeFromAll id cs ks k = if k ∈ ks then (cs k).removed id else cs k := by
  induction ks generalizing cs with
  | nil => rfl
  | cons j ks ih =>
      have hnodup : ∀ i, ((Function.update cs j ((cs j).removed id) i).contactBundles.map
          (·.id)).Nodup := by
        intro i
        rw [Function.update_apply]
        split
        · rw [bundles_removed]
          exact ((List.eraseP_sublist).map _).nodup (h j)
        · exact h i
      rw [removeFromAll, List.foldl_cons, ← removeFromAll, ih hnodup]
      by_cases hk : k = j
      · subst hk
        rw [Function.update_self, if_pos List.mem_cons_self, removed_removed (h k), ite_self]
      · rw [Function.update_of_ne hk]
        simp only [List.mem_cons, hk, false_or]

/-- What one removal does to the contact. -/
theorem p0_removed {c : Contact} {rb : RoutedBundle}
    (hsize : ∀ x ∈ c.contactBundles, x.id = rb.id → x.size = rb.size)
    (hmem : rb.id ∈ c.contactBundles.map (·.id)) :
    (c.removed rb.id).remainingCapacityP0 = c.remainingCapacityP0 + rb.size.toInt32 := by
  cases hfind : c.contactBundles.find? (·.id = rb.id) with
  | none =>
      obtain ⟨x, hx, hid⟩ := List.mem_map.1 hmem
      exact absurd (decide_eq_true hid) (List.find?_eq_none.1 hfind x hx)
  | some x =>
      have hid : x.id = rb.id := by simpa using List.find?_some hfind
      have hx := hsize x (List.mem_of_find?_eq_some hfind) hid
      unfold Contact.removed
      rw [hfind]
      show c.remainingCapacityP0 + x.size.toInt32 = _
      rw [hx]

section

variable {cs : Nat → Contact} {routes : UInt16 → List Nat} {rb : RoutedBundle}

theorem Listed.bundles_remove (h : Listed cs routes) (id : UInt16) (k : Nat) :
    (removeFromAll id cs (routes id) k).contactBundles =
      (cs k).contactBundles.filter (·.id ≠ id) := by
  rw [removeFromAll_apply h.once]
  split
  · rw [bundles_removed, eraseP_id (h.once k)]
  · next hk =>
    have hothers : ∀ x ∈ (cs k).contactBundles, x.id ≠ id := fun x hx hid =>
      hk ((h.mem_iff k id).1 (List.mem_map.2 ⟨x, hx, hid⟩))
    exact (List.filter_eq_self.2 fun x hx => decide_eq_true (hothers x hx)).symm

/-- A bundle that leaves its contacts frees its size at each of them. -/
theorem Listed.p0_remove (h : Listed cs routes) (hsize : Sized cs rb) (k : Nat) :
    (removeFromAll rb.id cs (routes rb.id) k).remainingCapacityP0 =
      capacityAfter cs k (if k ∈ routes rb.id then rb.size.toNat else 0) 0 := by
  rw [removeFromAll_apply h.once]
  split
  · next hk =>
    rw [p0_removed (hsize k) ((h.mem_iff k rb.id).2 hk), capacityAfter, Int.sub_zero,
      Int32.ofInt_add, Int32.ofInt_toInt, toInt32_eq_ofInt]
  · exact (capacityAfter_zero cs k).symm

theorem Listed.remove (h : Listed cs routes) (id : UInt16) :
    Listed (removeFromAll id cs (routes id)) (Function.update routes id []) := by
  have hmem : ∀ {k x}, x ∈ (removeFromAll id cs (routes id) k).contactBundles →
      x ∈ (cs k).contactBundles ∧ x.id ≠ id := by
    intro k x hx
    rw [h.bundles_remove, List.mem_filter] at hx
    exact ⟨hx.1, of_decide_eq_true hx.2⟩
  refine ⟨fun k => ?_, fun k i => ?_, fun j k x hx y hy hid => ?_⟩
  · rw [h.bundles_remove]
    exact (List.filter_sublist.map _).nodup (h.once k)
  · by_cases hi : i = id
    · subst hi
      rw [Function.update_self]
      refine iff_of_false (fun hlist => ?_) List.not_mem_nil
      obtain ⟨x, hx, hxi⟩ := List.mem_map.1 hlist
      exact (hmem hx).2 hxi
    · rw [Function.update_of_ne hi, ← h.mem_iff, h.bundles_remove]
      constructor
      · intro hlist
        obtain ⟨x, hx, hxi⟩ := List.mem_map.1 hlist
        exact List.mem_map.2 ⟨x, (List.mem_filter.1 hx).1, hxi⟩
      · intro hlist
        obtain ⟨x, hx, rfl⟩ := List.mem_map.1 hlist
        exact List.mem_map.2 ⟨x, List.mem_filter.2 ⟨hx, decide_eq_true hi⟩, rfl⟩
  · exact h.same j k x (hmem hx).1 y (hmem hy).1 hid

end

/-! ### A bundle enters contacts -/

/-- The contacts with one bundle more at some of them. -/
def withBundle (rb : RoutedBundle) (cs : Nat → Contact) (ks : List Nat) (k : Nat) : Contact :=
  if k ∈ ks then (cs k).added rb else cs k

theorem addToAll_of_nodup (rb : RoutedBundle) (cs : Nat → Contact) {ks : List Nat}
    (h : ks.Nodup) :
    addToAll rb cs ks =
      if ∀ k ∈ ks, 0 < (cs k).remainingCapacityP0 then .ok (withBundle rb cs ks)
      else .error (.other .assertFailed) := by
  induction ks generalizing cs with
  | nil => rw [if_pos (by simp)]; rfl
  | cons j ks ih =>
      obtain ⟨hj, hks⟩ := List.nodup_cons.1 h
      have hother : ∀ k ∈ ks, Function.update cs j ((cs j).added rb) k = cs k := fun k hk =>
        Function.update_of_ne (ne_of_mem_of_not_mem hk hj) _ _
      unfold addToAll
      by_cases hpos : 0 < (cs j).remainingCapacityP0
      · rw [assertP_of hpos, ok_bind, ih _ hks]
        have hrest :
            (∀ k ∈ ks, 0 < (Function.update cs j ((cs j).added rb) k).remainingCapacityP0) ↔
              ∀ k ∈ j :: ks, 0 < (cs k).remainingCapacityP0 := by
          rw [List.forall_mem_cons]
          refine ⟨fun hall => ⟨hpos, fun k hk => ?_⟩, fun hall k hk => ?_⟩
          · rw [← hother k hk]
            exact hall k hk
          · rw [hother k hk]
            exact hall.2 k hk
        rw [if_congr hrest rfl rfl]
        congr 2
        funext k
        unfold withBundle
        by_cases hk : k = j
        · subst hk
          rw [if_neg hj, Function.update_self, if_pos List.mem_cons_self]
        · rw [Function.update_of_ne hk]
          simp only [List.mem_cons, hk, false_or]
      · rw [assertP_of_not hpos, if_neg fun hall => hpos (hall j List.mem_cons_self)]
        rfl

/-- A list that names a contact twice enters the bundle there twice. -/
theorem bundles_addToAll {rb : RoutedBundle} {cs cs' : Nat → Contact} {ks : List Nat}
    (h : addToAll rb cs ks = .ok cs') (k : Nat) :
    (cs' k).contactBundles = (cs k).contactBundles ++ List.replicate (ks.count k) rb := by
  induction ks generalizing cs with
  | nil =>
      cases h
      rw [List.count_nil, List.replicate_zero, List.append_nil]
  | cons j ks ih =>
      obtain ⟨_, -, hrest⟩ := bind_eq_ok.1 h
      rw [ih hrest]
      by_cases hk : k = j
      · subst hk
        rw [Function.update_self, List.count_cons_self, List.replicate_succ]
        show (cs k).contactBundles ++ [rb] ++ _ = _
        rw [List.append_assoc]
        rfl
      · rw [Function.update_of_ne hk, List.count_cons_of_ne (Ne.symm hk)]

section

variable {cs : Nat → Contact} {routes : UInt16 → List Nat} {rb : RoutedBundle} {ks : List Nat}

theorem mem_withBundle {x : RoutedBundle} {k : Nat} :
    x ∈ (withBundle rb cs ks k).contactBundles ↔
      x ∈ (cs k).contactBundles ∨ k ∈ ks ∧ x = rb := by
  unfold withBundle
  split
  · next hk =>
    show x ∈ (cs k).contactBundles ++ [rb] ↔ _
    rw [List.mem_append, List.mem_singleton]
    simp only [hk, true_and]
  · next hk => simp only [hk, false_and, or_false]

/-- A bundle that enters contacts claims its size at each of them. -/
theorem p0_withBundle (rb : RoutedBundle) (cs : Nat → Contact) (ks : List Nat) (k : Nat) :
    (withBundle rb cs ks k).remainingCapacityP0 =
      capacityAfter cs k 0 (if k ∈ ks then rb.size.toNat else 0) := by
  unfold withBundle
  split
  · rw [capacityAfter, Int.add_zero, Int32.ofInt_sub, Int32.ofInt_toInt, ← toInt32_eq_ofInt]
    rfl
  · exact (capacityAfter_zero cs k).symm

/-- A bundle without contacts enters some. -/
theorem Listed.add (h : Listed cs routes) (ks : List Nat) (hnew : routes rb.id = []) :
    Listed (withBundle rb cs ks) (Function.update routes rb.id ks) := by
  have habsent : ∀ k, ∀ x ∈ (cs k).contactBundles, x.id ≠ rb.id := by
    intro k x hx hid
    have hk := (h.mem_iff k rb.id).1 (List.mem_map.2 ⟨x, hx, hid⟩)
    rw [hnew] at hk
    exact List.not_mem_nil hk
  refine ⟨fun k => ?_, fun k i => ?_, fun j k x hx y hy hid => ?_⟩
  · unfold withBundle
    split
    · show (((cs k).contactBundles ++ [rb]).map (·.id)).Nodup
      rw [List.map_append, List.nodup_append]
      refine ⟨h.once k, List.nodup_singleton _, fun i hi j hj => ?_⟩
      obtain ⟨x, hx, rfl⟩ := List.mem_map.1 hi
      rw [List.map_singleton, List.mem_singleton] at hj
      exact hj ▸ habsent k x hx
    · exact h.once k
  · constructor
    · intro hi
      obtain ⟨x, hx, rfl⟩ := List.mem_map.1 hi
      rcases mem_withBundle.1 hx with hx | ⟨hk, rfl⟩
      · rw [Function.update_of_ne (habsent k x hx), ← h.mem_iff]
        exact List.mem_map_of_mem hx
      · rw [Function.update_self]
        exact hk
    · intro hk
      by_cases hi : i = rb.id
      · subst hi
        rw [Function.update_self] at hk
        exact List.mem_map.2 ⟨rb, mem_withBundle.2 (Or.inr ⟨hk, rfl⟩), rfl⟩
      · rw [Function.update_of_ne hi, ← h.mem_iff] at hk
        obtain ⟨x, hx, rfl⟩ := List.mem_map.1 hk
        exact List.mem_map.2 ⟨x, mem_withBundle.2 (Or.inl hx), rfl⟩
  · rcases mem_withBundle.1 hx with hx | ⟨-, hx⟩
    · rcases mem_withBundle.1 hy with hy | ⟨-, hy⟩
      · exact h.same j k x hx y hy hid
      · exact absurd (hid.trans (congrArg _ hy)) (habsent j x hx)
    · rcases mem_withBundle.1 hy with hy | ⟨-, hy⟩
      · exact absurd (hid.symm.trans (congrArg _ hx)) (habsent k y hy)
      · rw [hx, hy]

end

/-! ## Moves -/

/-- A bundle leaves its contacts and enters others. -/
structure Move where
  bundle : RoutedBundle
  old : List Nat
  new : List Nat

/-- The contacts after the moves, one after the other. -/
def moveAll : (Nat → Contact) → List Move → Except Fault (Nat → Contact)
  | cs, [] => .ok cs
  | cs, m :: ms => do
      let cs ← addToAll m.bundle (removeFromAll m.bundle.id cs m.old) m.new
      moveAll cs ms

/-- The contacts of the bundles after the moves. -/
def routesAfter (routes : UInt16 → List Nat) (ms : List Move) : UInt16 → List Nat :=
  ms.foldl (fun routes m => Function.update routes m.bundle.id m.new) routes

/-- What the moves free at a contact. -/
def freed (k : Nat) (ms : List Move) : Int :=
  (ms.map fun m => if k ∈ m.old then (m.bundle.size.toNat : Int) else 0).sum

/-- What the moves claim at a contact. -/
def claimed (k : Nat) (ms : List Move) : Int :=
  (ms.map fun m => if k ∈ m.new then (m.bundle.size.toNat : Int) else 0).sum

/-- Whenever a bundle enters a contact, there is room left by the moves before. -/
def MovesServed (cs : Nat → Contact) (ms : List Move) : Prop :=
  ∀ (i : Nat) (hi : i < ms.length), ∀ k ∈ ms[i].new,
    0 < capacityAfter cs k (freed k (ms.take (i + 1))) (claimed k (ms.take i))

/-- There is room for every move, and no contact is overcommitted by all of them. -/
structure MovesFit (cs : Nat → Contact) (ms : List Move) : Prop where
  served : MovesServed cs ms
  final : ∀ k, 0 ≤ capacityAfter cs k (freed k ms) (claimed k ms)

theorem freed_append (k : Nat) (ms ms' : List Move) :
    freed k (ms ++ ms') = freed k ms + freed k ms' := by
  simp [freed]

theorem claimed_append (k : Nat) (ms ms' : List Move) :
    claimed k (ms ++ ms') = claimed k ms + claimed k ms' := by
  simp [claimed]

theorem freed_cons (k : Nat) (m : Move) (ms : List Move) :
    freed k (m :: ms) = freed k [m] + freed k ms := by
  simp [freed]

theorem claimed_cons (k : Nat) (m : Move) (ms : List Move) :
    claimed k (m :: ms) = claimed k [m] + claimed k ms := by
  simp [claimed]

theorem moveAll_append (cs : Nat → Contact) (ms ms' : List Move) :
    moveAll cs (ms ++ ms') = moveAll cs ms >>= fun cs => moveAll cs ms' := by
  induction ms generalizing cs with
  | nil => rfl
  | cons m ms ih =>
      rw [List.cons_append, moveAll, moveAll, bind_assoc]
      exact congrArg _ (funext fun cs => ih cs)

/-- A move of a listed bundle: its contacts are those from which it leaves, it enters no contact
twice, and its entries have its size. -/
structure Movable (cs : Nat → Contact) (routes : UInt16 → List Nat) (m : Move) : Prop where
  old : m.old = routes m.bundle.id
  new : m.new.Nodup
  size : Sized cs m.bundle

section

variable {cs : Nat → Contact} {routes : UInt16 → List Nat} {m : Move} {ms : List Move}

/-- The contacts after one move, if it is served. -/
def Move.after (m : Move) (cs : Nat → Contact) : Nat → Contact :=
  withBundle m.bundle (removeFromAll m.bundle.id cs m.old) m.new

theorem Listed.move (h : Listed cs routes) (hm : Movable cs routes m) :
    Listed (m.after cs) (Function.update routes m.bundle.id m.new) := by
  have hremoved := h.remove m.bundle.id
  rw [← hm.old] at hremoved
  have hnone : Function.update routes m.bundle.id [] m.bundle.id = [] := Function.update_self _ _ _
  have hadded := hremoved.add m.new hnone
  rwa [Function.update_idem] at hadded

theorem Listed.p0_move (h : Listed cs routes) (hm : Movable cs routes m) (k : Nat) :
    (m.after cs k).remainingCapacityP0 = capacityAfter cs k (freed k [m]) (claimed k [m]) := by
  have hremoved := h.p0_remove hm.size k
  rw [← hm.old] at hremoved
  rw [Move.after, p0_withBundle, capacityAfter_add hremoved]
  simp [freed, claimed]

/-- A move is served if there is room at the contacts that the bundle enters. -/
theorem Listed.moveAll_cons (h : Listed cs routes) (hm : Movable cs routes m) (ms : List Move) :
    moveAll cs (m :: ms) =
      if ∀ k ∈ m.new, 0 < capacityAfter cs k (freed k [m]) 0 then moveAll (m.after cs) ms
      else .error (.other .assertFailed) := by
  have hroom : ∀ k, (removeFromAll m.bundle.id cs m.old k).remainingCapacityP0 =
      capacityAfter cs k (freed k [m]) 0 := by
    intro k
    have hremoved := h.p0_remove hm.size k
    rw [← hm.old] at hremoved
    rw [hremoved]
    simp [freed]
  rw [moveAll, addToAll_of_nodup _ _ hm.new]
  simp only [hroom]
  split
  · rfl
  · rfl

theorem mem_after {x : RoutedBundle} {k : Nat} (h : Listed cs routes) (hm : Movable cs routes m)
    (hx : x ∈ (m.after cs k).contactBundles) : x = m.bundle ∨ x ∈ (cs k).contactBundles := by
  rcases mem_withBundle.1 hx with hx | ⟨-, hx⟩
  · rw [hm.old, h.bundles_remove] at hx
    exact Or.inr (List.mem_filter.1 hx).1
  · exact Or.inl hx

/-- A move leaves those of other bundles. -/
theorem Movable.after {n : Move} (h : Listed cs routes) (hm : Movable cs routes m)
    (hn : Movable cs routes n) (hne : n.bundle.id ≠ m.bundle.id) :
    Movable (m.after cs) (Function.update routes m.bundle.id m.new) n := by
  refine ⟨?_, hn.new, fun k x hx hid => ?_⟩
  · rw [Function.update_of_ne hne]
    exact hn.old
  · rcases mem_after h hm hx with rfl | hx
    · exact absurd hid.symm hne
    · exact hn.size k x hx hid

theorem movesServed_cons {cs' : Nat → Contact}
    (hroom : ∀ k, (cs' k).remainingCapacityP0 = capacityAfter cs k (freed k [m]) (claimed k [m])) :
    MovesServed cs (m :: ms) ↔
      (∀ k ∈ m.new, 0 < capacityAfter cs k (freed k [m]) 0) ∧ MovesServed cs' ms := by
  have hshift : ∀ k i, capacityAfter cs' k (freed k (ms.take (i + 1))) (claimed k (ms.take i)) =
      capacityAfter cs k (freed k ((m :: ms).take (i + 1 + 1)))
        (claimed k ((m :: ms).take (i + 1))) := by
    intro k i
    rw [capacityAfter_add (hroom k), List.take_succ_cons, List.take_succ_cons,
      freed_cons k m (ms.take (i + 1)), claimed_cons k m (ms.take i)]
  constructor
  · intro h
    refine ⟨h 0 (Nat.zero_lt_succ _), fun i hi k hk => ?_⟩
    rw [hshift]
    exact h (i + 1) (Nat.succ_lt_succ hi) k hk
  · rintro ⟨hfirst, hrest⟩ i hi k hk
    cases i with
    | zero => exact hfirst k hk
    | succ i =>
        rw [← hshift]
        exact hrest i (Nat.lt_of_succ_lt_succ hi) k hk

/-- One move more is served if there is room left by all before. -/
theorem movesServed_append_singleton :
    MovesServed cs (ms ++ [m]) ↔ MovesServed cs ms ∧
      ∀ k ∈ m.new, 0 < capacityAfter cs k (freed k (ms ++ [m])) (claimed k ms) := by
  constructor
  · intro h
    refine ⟨fun i hi k hk => ?_, fun k hk => ?_⟩
    · have hserved := h i (by simp; omega) k (by rwa [List.getElem_append_left hi])
      rwa [List.take_append_of_le_length hi, List.take_append_of_le_length hi.le] at hserved
    · have hserved := h ms.length (by simp) k (by simpa using hk)
      rwa [List.take_of_length_le (by simp), List.take_left'] at hserved
      rfl
  · rintro ⟨hms, hlast⟩ i hi k hk
    rw [List.length_append, List.length_singleton] at hi
    by_cases hlt : i < ms.length
    · rw [List.getElem_append_left hlt] at hk
      rw [List.take_append_of_le_length hlt, List.take_append_of_le_length hlt.le]
      exact hms i hlt k hk
    · obtain rfl : i = ms.length := by omega
      rw [List.take_of_length_le (by simp), List.take_left' rfl]
      exact hlast k (by simpa using hk)

/-- **Moves of different bundles**: they are served exactly if there is room for each of them, the
listing holds again, and the capacities are what is freed and claimed. -/
theorem moveAll_spec (h : Listed cs routes) (hids : (ms.map (·.bundle.id)).Nodup)
    (hms : ∀ m ∈ ms, Movable cs routes m) :
    ((∃ cs', moveAll cs ms = .ok cs') ↔ MovesServed cs ms) ∧
      ∀ cs', moveAll cs ms = .ok cs' → Listed cs' (routesAfter routes ms) ∧
        ∀ k, (cs' k).remainingCapacityP0 = capacityAfter cs k (freed k ms) (claimed k ms) := by
  induction ms generalizing cs routes with
  | nil =>
      refine ⟨iff_of_true ⟨cs, rfl⟩ fun i hi => absurd hi (Nat.not_lt_zero i), ?_⟩
      · intro cs' hcs'
        cases hcs'
        exact ⟨h, fun k => (capacityAfter_zero cs k).symm⟩
  | cons m ms ih =>
      obtain ⟨hfresh, hids⟩ := List.nodup_cons.1 hids
      have hm := hms m List.mem_cons_self
      have hrest : ∀ n ∈ ms, Movable (m.after cs) (Function.update routes m.bundle.id m.new) n :=
        fun n hn => hm.after h (hms n (List.mem_cons_of_mem m hn)) fun heq =>
          hfresh (List.mem_map.2 ⟨n, hn, heq⟩)
      obtain ⟨hserved, hafter⟩ := ih (h.move hm) hids hrest
      have hroom := h.p0_move hm
      rw [movesServed_cons hroom, h.moveAll_cons hm]
      by_cases hfirst : ∀ k ∈ m.new, 0 < capacityAfter cs k (freed k [m]) 0
      · rw [if_pos hfirst]
        refine ⟨hserved.trans ⟨fun hall => ⟨hfirst, hall⟩, fun hboth => hboth.2⟩, ?_⟩
        intro cs' hcs'
        obtain ⟨hlisted, hp0⟩ := hafter cs' hcs'
        refine ⟨hlisted, fun k => ?_⟩
        rw [hp0, capacityAfter_add (hroom k), freed_cons k m ms, claimed_cons k m ms]
      · rw [if_neg hfirst]
        refine ⟨iff_of_false ?_ fun hboth => hfirst hboth.1, fun cs' hcs' => ?_⟩
        · rintro ⟨cs', hcs'⟩
          cases hcs'
        · cases hcs'

end

end ContactRouter
