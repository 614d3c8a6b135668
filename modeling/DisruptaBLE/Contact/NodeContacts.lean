import DisruptaBLE.Contact.Associations

/-!
# Adding and removing the contacts of a node

The loops of `add_node_to_tables` and `remove_node_from_tables`.  The first one associates and
lists the contacts of a node, except those that overlap a listed contact of the same node
(`addContacts_spec`).  The second one undoes all of it (`removeContacts_spec`).
-/

namespace RoutingTable

open PtrHeap Outcome
open EpidemicRouter (CStr Htab)

/-! ## What does not touch the tables -/

/-- The lists, the nodes and the table of EIDs are the same. -/
structure SameTables (s s' : Table) : Prop where
  nodes : s'.nodes = s.nodes
  nodeList : s'.nodeList = s.nodeList
  contactList : s'.contactList = s.contactList
  eidTable : s'.eidTable = s.eidTable

theorem SameTables.refl (s : Table) : SameTables s s := ⟨rfl, rfl, rfl, rfl⟩

theorem SameTables.trans {s s₁ s₂ : Table} (h₁ : SameTables s s₁) (h₂ : SameTables s₁ s₂) :
    SameTables s s₂ :=
  ⟨h₂.nodes.trans h₁.nodes, h₂.nodeList.trans h₁.nodeList, h₂.contactList.trans h₁.contactList,
    h₂.eidTable.trans h₁.eidTable⟩

/-- The tables and the plans of all contacts are the same. -/
structure Unplanned (s s' : Table) : Prop extends SameTables s s' where
  plan : s'.plan = s.plan

theorem Unplanned.refl (s : Table) : Unplanned s s := ⟨.refl s, rfl⟩

theorem Unplanned.trans {s s₁ s₂ : Table} (h₁ : Unplanned s s₁) (h₂ : Unplanned s₁ s₂) :
    Unplanned s s₂ :=
  ⟨h₁.toSameTables.trans h₂.toSameTables, h₂.plan.trans h₁.plan⟩

@[simp] theorem recalculate_toPlan (c : Contact) :
    (recalculateContactCapacity c).toPlan = c.toPlan := rfl

@[simp] theorem removeBundle_toPlan (c : Contact) (id : UInt16) :
    (c.removeBundle id).toPlan = c.toPlan := by
  unfold Contact.removeBundle
  split <;> rfl

theorem removeBundleFromRoute_spec (id : UInt16) (cs : List Addr) (s : Table) :
    Returns (removeBundleFromRoute id s cs) (Unplanned s) := by
  induction cs generalizing s with
  | nil => exact .refl s
  | cons c cs ih =>
      unfold removeBundleFromRoute
      apply (returns_modify s.contacts c _).bind
      rintro _ ⟨d, hd, rfl⟩
      apply (ih _).mono
      intro s' hs'
      have hfirst : Unplanned s { s with contacts := s.contacts.set c (d.removeBundle id) } :=
        ⟨⟨rfl, rfl, rfl, rfl⟩, plan_set hd rfl (removeBundle_toPlan d id)⟩
      exact hfirst.trans hs'

theorem rescheduleLoop_spec (c : Addr) (k : Nat) (s : Table) :
    Returns (rescheduleLoop c k s) (Unplanned s) := by
  induction k generalizing s with
  | zero => trivial
  | succ k ih =>
      unfold rescheduleLoop
      apply (returns_load s.contacts c).bind
      intro d _
      cases d.contactBundles with
      | nil => exact .refl s
      | cons rb rbs =>
          apply (returns_assertC _).bind
          intro _ _
          apply (removeBundleFromRoute_spec rb.id rb.contacts s).bind
          intro s₁ hs₁
          apply (ih _).mono
          intro s₂ hs₂
          have hlog : Unplanned s₁ { s₁ with informed := s₁.informed ++ [rb.id] } :=
            ⟨⟨rfl, rfl, rfl, rfl⟩, rfl⟩
          exact (hs₁.trans hlog).trans hs₂

/-- Rescheduling changes the bundles and capacities of contacts only. -/
theorem rescheduleBundles_spec (s : Table) (c : Addr) :
    Returns (rescheduleBundles s c) (Unplanned s) := by
  unfold rescheduleBundles
  apply (returns_load s.contacts c).bind
  intro d _
  exact rescheduleLoop_spec c _ s

theorem rescheduleAll_spec (cs : List Addr) (s : Table) :
    Returns (rescheduleAll s cs) (Unplanned s) := by
  induction cs generalizing s with
  | nil => exact .refl s
  | cons c cs ih =>
      unfold rescheduleAll
      apply (rescheduleBundles_spec s c).bind
      intro s₁ hs₁
      exact (ih s₁).mono fun _ hs₂ => hs₁.trans hs₂

theorem rescheduleExceeded_spec (cs : List Addr) (s : Table) :
    Returns (rescheduleExceeded s cs) (Unplanned s) := by
  induction cs generalizing s with
  | nil => exact .refl s
  | cons c cs ih =>
      unfold rescheduleExceeded
      apply (returns_load s.contacts c).bind
      intro d _
      dsimp only
      split
      · apply (rescheduleBundles_spec s c).bind
        intro s₁ hs₁
        exact (ih s₁).mono fun _ hs₂ => hs₁.trans hs₂
      · exact ih s

/-! ## EIDs and overlaps -/

/-- The EIDs of a node. -/
def nodeEids (node : Node) : List CStr := node.eid.toList ++ node.endpoints.map (·.str)

/-- The EIDs that are reachable over a contact by its own list. -/
def contactEids (plan : Addr → Option Plan) (c : Addr) : List CStr :=
  ((plan c).map fun p => p.contactEndpoints.map (·.str)).getD []

/-- The EIDs that are reachable over a contact of a node. -/
def eidsBy (plan : Addr → Option Plan) (node : Node) (c : Addr) : List CStr :=
  nodeEids node ++ contactEids plan c

theorem contactEids_of_cell {s : Table} {c : Addr} {d : Contact}
    (h : s.contacts.cells c = some d) :
    contactEids s.plan c = d.contactEndpoints.map (·.str) := by
  simp [contactEids, plan_of_cell h]

/-- A contact overlaps one of the same node in a list. -/
def Overlapped (plan : Addr → Option Plan) (l : List Addr) (c : Addr) : Prop :=
  ∃ p, plan c = some p ∧ ∃ x ∈ l, ∃ q, plan x = some q ∧ q.node = p.node ∧
    p.fromTime < q.toTime ∧ q.fromTime < p.toTime

theorem Overlapped.mono {plan : Addr → Option Plan} {l l' : List Addr} {c : Addr}
    (h : Overlapped plan l c) (hl : l ⊆ l') : Overlapped plan l' c := by
  obtain ⟨p, hp, x, hx, hq⟩ := h
  exact ⟨p, hp, x, hl hx, hq⟩

theorem skipEarlier_spec (s : Table) (d : Contact) (l : List Addr) :
    Returns (skipEarlier s d l) fun l' => l' ⊆ l := by
  induction l with
  | nil => exact List.Subset.refl _
  | cons x l ih =>
      unfold skipEarlier
      apply (returns_load s.contacts x).bind
      intro e _
      split
      · exact ih.mono fun _ hl' => List.subset_cons_of_subset x hl'
      · exact List.Subset.refl _

/-- The 8-bit count never reaches the limit: only a contact of the same node is an obstacle. -/
theorem countOverlaps_spec (s : Table) (d : Contact) (l : List Addr) (overlaps : UInt8) :
    Returns (countOverlaps s d overlaps l) fun b => b = true →
      ∃ x ∈ l, ∃ q, s.plan x = some q ∧ q.node = d.node ∧
        d.fromTime < q.toTime ∧ q.fromTime < d.toTime := by
  have hlimit : ∀ n : UInt8, decide (maxConcurrentContacts ≤ n.toNat) = false := by
    intro n
    have hn : n.toNat < 256 := n.toNat_lt
    apply decide_eq_false
    unfold maxConcurrentContacts
    omega
  induction l generalizing overlaps with
  | nil => simp [countOverlaps, hlimit]
  | cons x l ih =>
      have hmore : ∀ n, Returns (countOverlaps s d n l) fun b => b = true →
          ∃ y ∈ x :: l, ∃ q, s.plan y = some q ∧ q.node = d.node ∧
            d.fromTime < q.toTime ∧ q.fromTime < d.toTime := by
        intro n
        apply (ih n).mono
        intro b hb htrue
        obtain ⟨y, hy, hq⟩ := hb htrue
        exact ⟨y, List.mem_cons_of_mem x hy, hq⟩
      unfold countOverlaps
      apply (returns_load s.contacts x).bind
      intro e he
      split
      · simp [hlimit]
      · rename_i hfrom
        split
        · rename_i hto
          split
          · rename_i hnode
            intro _
            exact ⟨x, List.mem_cons_self, e.toPlan, plan_of_cell he, hnode, hto,
              UInt64.not_le.mp hfrom⟩
          · exact hmore _
        · exact hmore _

/-- A contact that is refused overlaps a listed one of its node. -/
theorem checkForInvalidOverlaps_spec (s : Table) (c : Addr) :
    Returns (checkForInvalidOverlaps s c) fun b => b = true →
      Overlapped s.plan s.contactList c := by
  unfold checkForInvalidOverlaps
  apply (returns_load s.contacts c).bind
  intro d hd
  apply (skipEarlier_spec s d s.contactList).bind
  intro l hl
  apply (countOverlaps_spec s d l 0).mono
  intro b hb htrue
  obtain ⟨x, hx, hq⟩ := hb htrue
  exact ⟨d.toPlan, plan_of_cell hd, x, hl hx, hq⟩

/-! ## The loop of `add_node_to_tables` -/

/-- `contact_list` has no contact twice, and is ordered by from-time. -/
structure Ordered (s : Table) : Prop where
  once : s.contactList.Nodup
  sorted : s.contactList.Pairwise fun a b =>
    timeIn s.plan (·.fromTime) a ≤ timeIn s.plan (·.fromTime) b

/-- What the loop leaves: the contacts `added` are associated with all their EIDs and listed, and
the others of `cs` overlap a listed contact. -/
structure Added (hash : CStr → UInt32) (s : Table) (node : Node) (cs added : List Addr)
    (s' : Table) : Prop where
  nodes : s'.nodes = s.nodes
  nodeList : s'.nodeList = s.nodeList
  plan : s'.plan = s.plan
  ordered : Ordered s'
  entries : Entries hash s.toTimes s'.eidTable
  assoc_iff : ∀ e x, x ∈ associated hash s'.eidTable e ↔
    x ∈ associated hash s.eidTable e ∨ (x ∈ added ∧ e ∈ eidsBy s.plan node x)
  listed_iff : ∀ x, x ∈ s'.contactList ↔ x ∈ s.contactList ∨ x ∈ added
  subset : added ⊆ cs
  skipped : ∀ x ∈ cs, x ∉ added → Overlapped s.plan s'.contactList x

variable {mem : Nat → Bool} {hash : CStr → UInt32}

theorem nodeEids_of_eid {node : Node} {eid : CStr} (h : node.eid = some eid) :
    nodeEids node = eid :: node.endpoints.map (·.str) := by
  simp [nodeEids, h]

/-- One contact that is not refused. -/
theorem enterContact_spec (hmem : ∀ k, mem k = true) {s : Table} {node : Node} {c : Addr}
    (ht : Entries hash s.toTimes s.eidTable) (hl : Ordered s) :
    Returns (enterContact mem hash node s c) (Added hash s node [c] [c]) := by
  unfold enterContact
  cases heid : node.eid with
  | none => trivial
  | some eid =>
      change Returns (addToAll mem hash c s (eid :: node.endpoints.map (·.str)) >>= _) _
      rw [← nodeEids_of_eid heid]
      apply (addToAll_spec hmem (nodeEids node) ht).bind
      rintro s₁ ⟨⟨t₁, k₁, rfl⟩, ht₁, hiff₁⟩
      apply (returns_load s.contacts c).bind
      intro d hd
      rw [← contactEids_of_cell hd]
      apply (addToAll_spec hmem _ ht₁).bind
      rintro s₂ ⟨⟨t₂, k₂, rfl⟩, ht₂, hiff₂⟩
      have hinsert := addContactToOrdered_spec (s := { s with eidTable := t₂, requests := k₂ })
        (c := c) (fun p => p.fromTime) hmem hl.sorted
      apply hinsert.bind
      rintro ⟨l, s₃⟩ ⟨⟨k₃, rfl⟩, hl'⟩
      apply (returns_modify s.contacts c _).bind
      rintro _ ⟨d', hd', rfl⟩
      obtain rfl := Option.some.inj (hd.symm.trans hd')
      have hplan : ∀ L : List Addr, Table.plan { s with
          contacts := s.contacts.set c (recalculateContactCapacity d), eidTable := t₂,
          requests := k₃, contactList := L } = s.plan :=
        fun L => plan_set hd rfl (recalculate_toPlan d)
      have hassoc : ∀ e x, x ∈ associated hash t₂ e ↔ x ∈ associated hash s.eidTable e ∨
          (x ∈ [c] ∧ e ∈ eidsBy s.plan node x) := by
        intro e x
        rw [hiff₂, hiff₁, List.mem_singleton, eidsBy, List.mem_append]
        constructor
        · rintro ((h | ⟨h, rfl⟩) | ⟨h, rfl⟩)
          · exact .inl h
          · exact .inr ⟨rfl, .inl h⟩
          · exact .inr ⟨rfl, .inr h⟩
        · rintro (h | ⟨rfl, h | h⟩)
          · exact .inl (.inl h)
          · exact .inl (.inr ⟨h, rfl⟩)
          · exact .inr ⟨h, rfl⟩
      have hmeet : ∀ x ∈ [c], x ∉ [c] → Overlapped s.plan (l.getD s.contactList) x :=
        fun x hx hnot => absurd hx hnot
      cases l with
      | none =>
          refine ⟨rfl, rfl, hplan _, ⟨hl.once, ?_⟩, ht₂, hassoc, fun x => ?_,
            List.Subset.refl _, hmeet⟩
          · rw [hplan]
            exact hl.sorted
          · refine ⟨Or.inl, ?_⟩
            rintro (hx | hx)
            · exact hx
            · rw [List.mem_singleton.mp hx]
              exact hl'
      | some l =>
          obtain ⟨hnot, hperm, hsorted⟩ := hl'
          refine ⟨rfl, rfl, hplan _, ⟨?_, ?_⟩, ht₂, hassoc, fun x => ?_,
            List.Subset.refl _, hmeet⟩
          · exact hperm.nodup_iff.mpr (List.nodup_cons.mpr ⟨hnot, hl.once⟩)
          · rw [hplan]
            exact hsorted
          · change x ∈ l ↔ _
            rw [hperm.mem_iff, List.mem_cons, List.mem_singleton]
            exact or_comm

/-- **The contacts of a node enter the tables.** -/
theorem addContacts_spec (hmem : ∀ k, mem k = true) (node : Node) (cs : List Addr) {s : Table}
    (ht : Entries hash s.toTimes s.eidTable) (hl : Ordered s) :
    Returns (addContacts mem hash node s cs) fun s' => ∃ added, Added hash s node cs added s' := by
  induction cs generalizing s with
  | nil =>
      exact ⟨[], rfl, rfl, rfl, hl, ht, by simp, by simp, List.Subset.refl _, by simp⟩
  | cons c cs ih =>
      unfold addContacts
      apply (checkForInvalidOverlaps_spec s c).bind
      intro refused hrefused
      split
      · rename_i htrue
        apply (ih ht hl).mono
        rintro s' ⟨added, h⟩
        refine ⟨added, { h with
          subset := List.subset_cons_of_subset c h.subset
          skipped := fun x hx hnot => ?_ }⟩
        rcases List.mem_cons.mp hx with rfl | hx
        · exact (hrefused htrue).mono fun y hy => (h.listed_iff y).mpr (.inl hy)
        · exact h.skipped x hx hnot
      · apply (enterContact_spec hmem ht hl).bind
        intro s₁ h₁
        have htimes : s₁.toTimes = s.toTimes := by
          unfold Table.toTimes
          rw [h₁.plan]
        apply (ih (htimes ▸ h₁.entries) h₁.ordered).mono
        rintro s₂ ⟨added, h₂⟩
        refine ⟨c :: added, h₂.nodes.trans h₁.nodes, h₂.nodeList.trans h₁.nodeList,
          h₂.plan.trans h₁.plan, h₂.ordered, htimes ▸ h₂.entries, fun e x => ?_, fun x => ?_,
          List.cons_subset_cons c h₂.subset, fun x hx hnot => ?_⟩
        · rw [h₂.assoc_iff, h₁.assoc_iff, h₁.plan, List.mem_singleton, List.mem_cons]
          tauto
        · rw [h₂.listed_iff, h₁.listed_iff, List.mem_singleton, List.mem_cons]
          tauto
        · rw [List.mem_cons, not_or] at hnot
          rw [← h₁.plan]
          exact h₂.skipped x ((List.mem_cons.mp hx).resolve_left hnot.1) hnot.2

/-! ## The loop of `remove_node_from_tables` -/

/-- What the loop leaves: no contact of `cs` is associated by the EIDs of its node or by its own,
and none is listed.  Those that the node does not keep have lost their node. -/
structure Removed (hash : CStr → UInt32) (s : Table) (node : Node) (cs kept : List Addr)
    (s' : Table) : Prop where
  nodes : s'.nodes = s.nodes
  nodeList : s'.nodeList = s.nodeList
  times : ∀ x, (s'.plan x).map (fun p => (p.fromTime, p.toTime, p.contactEndpoints)) =
    (s.plan x).map fun p => (p.fromTime, p.toTime, p.contactEndpoints)
  plan_other : ∀ x, x ∉ cs → s'.plan x = s.plan x
  plan_kept : ∀ x ∈ kept, s'.plan x = s.plan x
  kept : kept.Sublist cs
  entries : Entries hash s.toTimes s'.eidTable
  assoc_iff : ∀ e x, x ∈ associated hash s'.eidTable e ↔
    x ∈ associated hash s.eidTable e ∧ ¬ (x ∈ cs ∧ e ∈ eidsBy s.plan node x)
  shorter : ∀ e, (associated hash s'.eidTable e).length ≤ (associated hash s.eidTable e).length
  sublist : s'.contactList.Sublist s.contactList
  listed_iff : ∀ x, x ∈ s'.contactList ↔ x ∈ s.contactList ∧ x ∉ cs

section

variable {s s' : Table} {node : Node} {c : Addr} {cs kept : List Addr}

theorem timeIn_congr {plan plan' : Addr → Option Plan} {time : Plan → UInt64}
    (h : ∀ x, (plan' x).map time = (plan x).map time) : timeIn plan' time = timeIn plan time := by
  funext x
  simp [timeIn, h]

theorem Removed.toTimes_eq (h : Removed hash s node cs kept s') : s'.toTimes = s.toTimes := by
  apply timeIn_congr
  intro x
  have hx := congrArg (Option.map fun p : UInt64 × UInt64 × List Eid => p.2.1) (h.times x)
  simpa [Option.map_map, Function.comp_def] using hx

theorem Removed.fromTimes_eq (h : Removed hash s node cs kept s') :
    timeIn s'.plan (·.fromTime) = timeIn s.plan (·.fromTime) := by
  apply timeIn_congr
  intro x
  have hx := congrArg (Option.map fun p : UInt64 × UInt64 × List Eid => p.1) (h.times x)
  simpa [Option.map_map, Function.comp_def] using hx

theorem Removed.eidsBy_eq (h : Removed hash s node cs kept s') (x : Addr) :
    eidsBy s'.plan node x = eidsBy s.plan node x := by
  have hx := congrArg (Option.map fun p : UInt64 × UInt64 × List Eid => p.2.2.map (·.str))
    (h.times x)
  simp only [Option.map_map, Function.comp_def] at hx
  simp [eidsBy, contactEids, hx]

theorem Removed.ordered (h : Removed hash s node cs kept s') (hl : Ordered s) : Ordered s' := by
  refine ⟨hl.once.sublist h.sublist, ?_⟩
  rw [h.fromTimes_eq]
  exact hl.sorted.sublist h.sublist

/-- One contact is taken from the tables; the plans stay. -/
theorem leaveContact_spec (ht : Entries hash s.toTimes s.eidTable) (hl : Ordered s)
    (hfew : ∀ e, (associated hash s.eidTable e).length < 2 ^ 16) :
    Returns (leaveContact hash node s c) fun s' =>
      Removed hash s node [c] [c] s' ∧ s'.contacts = s.contacts := by
  unfold leaveContact
  cases heid : node.eid with
  | none => trivial
  | some eid =>
      change Returns (removeFromAll hash c s (eid :: node.endpoints.map (·.str)) >>= _) _
      rw [← nodeEids_of_eid heid]
      apply (removeFromAll_spec (nodeEids node) ht hfew).bind
      rintro s₁ ⟨⟨⟨t₁, k₁, rfl⟩, ht₁, hiff₁⟩, hshort₁⟩
      apply (returns_load s.contacts c).bind
      intro d hd
      rw [← contactEids_of_cell hd]
      apply (removeFromAll_spec _ ht₁ fun e => lt_of_le_of_lt (hshort₁ e) (hfew e)).bind
      rintro s₂ ⟨⟨⟨t₂, k₂, rfl⟩, ht₂, hiff₂⟩, hshort₂⟩
      refine ⟨⟨rfl, rfl, fun _ => rfl, fun _ _ => rfl, fun _ _ => rfl, List.Sublist.refl _, ht₂,
        fun e x => ?_, fun e => (hshort₂ e).trans (hshort₁ e), ?_, fun x => ?_⟩, rfl⟩
      · rw [hiff₂, hiff₁, List.mem_singleton, eidsBy, List.mem_append]
        constructor
        · rintro ⟨⟨h, h₁⟩, h₂⟩
          refine ⟨h, ?_⟩
          rintro ⟨rfl, he | he⟩
          · exact h₁ ⟨he, rfl⟩
          · exact h₂ ⟨he, rfl⟩
        · rintro ⟨h, hnot⟩
          refine ⟨⟨h, ?_⟩, ?_⟩
          · rintro ⟨he, rfl⟩
            exact hnot ⟨rfl, .inl he⟩
          · rintro ⟨he, rfl⟩
            exact hnot ⟨rfl, .inr he⟩
      · rw [removeContactFromList_getD]
        exact List.erase_sublist
      · rw [removeContactFromList_getD, hl.once.mem_erase_iff, List.mem_singleton]
        exact and_comm

/-- Rescheduling after a contact was taken from the tables. -/
theorem Removed.unplanned {s₁ s₂ : Table} (h : Removed hash s node cs kept s₁)
    (hs : Unplanned s₁ s₂) : Removed hash s node cs kept s₂ := by
  refine ⟨hs.nodes.trans h.nodes, hs.nodeList.trans h.nodeList, ?_, ?_, ?_, h.kept, ?_, ?_, ?_,
    ?_, ?_⟩
  · rw [hs.plan]
    exact h.times
  · rw [hs.plan]
    exact h.plan_other
  · rw [hs.plan]
    exact h.plan_kept
  · rw [hs.eidTable]
    exact h.entries
  · rw [hs.eidTable]
    exact h.assoc_iff
  · rw [hs.eidTable]
    exact h.shorter
  · rw [hs.contactList]
    exact h.sublist
  · rw [hs.contactList]
    exact h.listed_iff

/-- One contact is taken from the tables, and then others. -/
theorem Removed.cons {s₁ s₂ : Table} {first : List Addr} (hc : c ∉ cs)
    (h₁ : Removed hash s node [c] first s₁) (h₂ : Removed hash s₁ node cs kept s₂) :
    Removed hash s node (c :: cs) (first ++ kept) s₂ := by
  have hkept : ∀ x ∈ kept, x ≠ c := fun x hx hxc => hc (hxc ▸ h₂.kept.subset hx)
  refine ⟨h₂.nodes.trans h₁.nodes, h₂.nodeList.trans h₁.nodeList,
    fun x => (h₂.times x).trans (h₁.times x), fun x hx => ?_, fun x hx => ?_, ?_, ?_,
    fun e x => ?_, fun e => (h₂.shorter e).trans (h₁.shorter e), h₂.sublist.trans h₁.sublist,
    fun x => ?_⟩
  · rw [List.mem_cons, not_or] at hx
    exact (h₂.plan_other x hx.2).trans (h₁.plan_other x (by simpa using hx.1))
  · rcases List.mem_append.mp hx with hx | hx
    · have hxc := List.mem_singleton.mp (h₁.kept.subset hx)
      exact (h₂.plan_other x (hxc ▸ hc)).trans (h₁.plan_kept x hx)
    · exact (h₂.plan_kept x hx).trans (h₁.plan_other x (by simpa using hkept x hx))
  · exact h₁.kept.append h₂.kept
  · rw [← h₁.toTimes_eq]
    exact h₂.entries
  · rw [h₂.assoc_iff, h₁.assoc_iff, h₁.eidsBy_eq, List.mem_singleton, List.mem_cons]
    tauto
  · rw [h₂.listed_iff, h₁.listed_iff, List.mem_singleton, List.mem_cons]
    tauto

/-- An active contact loses its node. -/
theorem Removed.orphan {s₁ : Table} {d : Contact} (h : Removed hash s node [c] [c] s₁)
    (hd : s₁.contacts.cells c = some d) : Removed hash s node [c] []
      { s₁ with contacts := s₁.contacts.set c { d with node := none } } := by
  have hplan : ∀ x, x ≠ c → Table.plan
      { s₁ with contacts := s₁.contacts.set c { d with node := none } } x = s₁.plan x := by
    intro x hx
    simp [Table.plan, hx]
  have hself : Table.plan { s₁ with contacts := s₁.contacts.set c { d with node := none } } c =
      some { d.toPlan with node := none } := by
    simp [Table.plan]
  refine { h with
    times := fun x => ?_
    plan_other := fun x hx => ?_
    plan_kept := fun x hx => by simp at hx
    kept := List.nil_sublist _ }
  · rw [← h.times]
    by_cases hx : x = c
    · rw [hx, hself, plan_of_cell hd]
      rfl
    · rw [hplan x hx]
  · rw [hplan x (by simpa using hx)]
    exact h.plan_other x hx

/-- **The contacts of a node leave the tables.** -/
theorem removeContacts_spec (dropContacts : Bool) (hnd : cs.Nodup)
    (ht : Entries hash s.toTimes s.eidTable) (hl : Ordered s)
    (hfew : ∀ e, (associated hash s.eidTable e).length < 2 ^ 16) :
    Returns (removeContacts hash node dropContacts s cs) fun r =>
      Removed hash s node cs r.1 r.2 ∧
        (dropContacts = false → r.1 = cs ∧ r.2.contacts = s.contacts) := by
  induction cs generalizing s with
  | nil =>
      exact ⟨⟨rfl, rfl, fun _ => rfl, fun _ _ => rfl, fun _ _ => rfl, List.Sublist.refl _, ht,
        by simp, fun _ => le_rfl, List.Sublist.refl _, by simp⟩, fun _ => ⟨rfl, rfl⟩⟩
  | cons c cs ih =>
      obtain ⟨hc, hnd⟩ := List.nodup_cons.mp hnd
      -- what the rest of the loop does, from a state in which `c` is gone
      have hnext : ∀ {s₁ : Table} {first : List Addr}, Removed hash s node [c] first s₁ →
          Returns (removeContacts hash node dropContacts s₁ cs) fun r =>
            Removed hash s node (c :: cs) (first ++ r.1) r.2 ∧
            (dropContacts = false → r.1 = cs ∧ r.2.contacts = s₁.contacts) := by
        intro s₁ first h₁
        have hih := ih hnd (h₁.toTimes_eq.symm ▸ h₁.entries) (h₁.ordered hl)
          fun e => lt_of_le_of_lt (h₁.shorter e) (hfew e)
        exact hih.mono fun r hr => ⟨h₁.cons hc hr.1, hr.2⟩
      unfold removeContacts
      apply (leaveContact_spec ht hl hfew).bind
      rintro s₁ ⟨h₁, hcontacts⟩
      dsimp only
      split
      · rename_i hdrop
        have hnot : ∀ {P : Prop}, dropContacts = false → P := by simp [hdrop]
        apply (rescheduleBundles_spec s₁ c).bind
        intro s₂ hs₂
        have h₂ := h₁.unplanned hs₂
        apply (returns_load s₂.contacts c).bind
        intro d hd
        split
        · apply (returns_modify s₂.contacts c _).bind
          rintro _ ⟨d', hd', rfl⟩
          apply (hnext (h₂.orphan hd')).mono
          rintro ⟨kept, s₃⟩ ⟨h₃, -⟩
          exact ⟨h₃, hnot⟩
        · apply (hnext h₂).bind
          rintro ⟨kept, s₃⟩ ⟨h₃, -⟩
          exact ⟨h₃, hnot⟩
      · apply (hnext h₁).bind
        rintro ⟨kept, s₃⟩ ⟨h₃, hall⟩
        refine ⟨h₃, fun hdrop => ?_⟩
        obtain ⟨hkept, hsame⟩ := hall hdrop
        exact ⟨by rw [← hkept], hsame.trans hcontacts⟩

end

end RoutingTable
