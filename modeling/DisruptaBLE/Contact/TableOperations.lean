import DisruptaBLE.Contact.TableInvariant

/-!
# The operations of the routing table keep the invariant

A command is a node outside the table; adding it as a new node, replacing a node by it and
deleting by it go through `Inv.enter` and `Inv.leave`.  Merging it into a node of the table does
not: the contacts that are listed stay, and `check_for_invalid_overlaps` finds each of them in
the list, overlapping itself.  So it only works if the command adds no EID for them (`AddsNothing`,
`Inv.merge`).
-/

namespace RoutingTable

open PtrHeap Outcome
open EpidemicRouter (CStr Htab)

variable {mem : Nat → Bool} {hash : CStr → UInt32} {s s' : Table} {N : List Addr}
  {n m c x new : Addr} {node cur : Node}

/-! ## New and replaced nodes -/

/-- A new node enters the table. -/
theorem Inv.addNew (hmem : ∀ k, mem k = true) (h : Inv hash s.nodeList s)
    (ho : Owns s new node) (hnew : new ∉ s.nodeList) :
    Returns (addNewNode mem hash s new) fun r => Inv hash r.2.nodeList r.2 := by
  unfold addNewNode
  rw [Heap.load_cell ho.cell, ok_bind]
  split
  · apply (h.free ho hnew).bind
    rintro s' ⟨h', hlist, -⟩
    change Inv hash s'.nodeList s'
    rw [hlist]
    exact h'
  · simp only [Table.malloc, hmem]
    have hnext : Inv hash s.nodeList
        { s with requests := s.requests + 1, nodeList := new :: s.nodeList } :=
      h.congr rfl rfl ⟨fun _ _ => rfl, fun _ _ _ _ _ _ => rfl⟩
    apply (hnext.enter hmem (ho.congr rfl fun _ _ => rfl) hnew).bind
    rintro s' ⟨h', hlist, -⟩
    change Inv hash s'.nodeList s'
    rw [hlist]
    exact h'

theorem replace_perm {l : List Addr} (hn : n ∈ l) (new : Addr) :
    (l.replace n new).Perm (new :: l.erase n) := by
  induction l with
  | nil => cases hn
  | cons a l ih =>
      by_cases ha : a = n
      · simp [ha]
      · have hn' : n ∈ l := (List.mem_cons.mp hn).resolve_left fun h => ha h.symm
        have hbeq : (n == a) = false := by simpa using fun h : n = a => ha h.symm
        rw [List.replace_cons, hbeq, List.erase_cons_tail (by simpa using ha)]
        exact ((ih hn').cons a).trans (List.Perm.swap new a _)

/-- **A node is replaced.** -/
theorem Inv.replace (hmem : ∀ k, mem k = true) (h : Inv hash s.nodeList s)
    (hfew : ∀ e, reachCount s e < 2 ^ 16) (ho : Owns s new node) (hnew : new ∉ s.nodeList) :
    Returns (routingTableReplaceNode mem hash s new) fun r => Inv hash r.2.nodeList r.2 := by
  unfold routingTableReplaceNode
  rw [Heap.load_cell ho.cell, ok_bind]
  apply (getNodeEntryByEid_spec s node.eid).bind
  intro found hfound
  cases found with
  | none => exact h
  | some n =>
      have hn := (hfound n rfl).1
      obtain ⟨old, hold⟩ := h.nodes n hn
      have hne : new ≠ n := fun heq => hnew (heq ▸ hn)
      have hnot : n ∉ s.nodeList.erase n := h.nodesOnce.not_mem_erase
      apply (h.leave hn hfew hold true).bind
      rintro s₁ ⟨h₁, hlist₁, hcells₁, hplan₁, kept, hkept, hold₁, -⟩
      have ho₁ : Owns s₁ new node := ho.congr (hcells₁ new hne) fun c hc =>
        hplan₁ c (ho.disjoint hold hne hc)
      apply (h₁.free hold₁ hnot).bind
      rintro s₂ ⟨h₂, hlist₂, hcells₂, hplan₂⟩
      have ho₂ : Owns s₂ new node := ho₁.congr (hcells₂ new hne) fun c hc =>
        hplan₂ c fun hk => ho.disjoint hold hne hc (hkept.subset hk)
      have hlist : s₂.nodeList = s.nodeList := hlist₂.trans hlist₁
      have hnot' : new ∉ s.nodeList.erase n := fun hmem => hnew (List.mem_of_mem_erase hmem)
      apply ((h₂.withList _).enter hmem (ho₂.withList (s₂.nodeList.replace n new)) hnot').bind
      rintro s₃ ⟨h₃, hlist₃, -⟩
      change Inv hash s₃.nodeList s₃
      rw [hlist₃]
      apply h₃.perm
      rw [hlist]
      exact (replace_perm hn new).symm

/-! ## Deletion -/

/-- Parts of a node are deleted. -/
theorem Inv.deleteParts (hmem : ∀ k, mem k = true) (h : Inv hash s.nodeList s)
    (hn : n ∈ s.nodeList) (hfew : ∀ e, reachCount s e < 2 ^ 16) (ho : Owns s new node)
    (hnew : new ∉ s.nodeList) :
    Returns (deleteParts mem hash s n new) fun s' => Inv hash s'.nodeList s' := by
  have hne : new ≠ n := fun heq => hnew (heq ▸ hn)
  have hnew' : new ∉ s.nodeList.erase n := fun hmem => hnew (List.mem_of_mem_erase hmem)
  have herase : ∀ m ∈ s.nodeList.erase n, m ≠ n := fun m hm =>
    ((List.Nodup.mem_erase_iff h.nodesOnce).mp hm).1
  obtain ⟨cur, hcur⟩ := h.nodes n hn
  unfold RoutingTable.deleteParts
  rw [Heap.load_cell ho.cell, ok_bind]
  apply (h.leave hn hfew hcur false).bind
  rintro s₁ ⟨h₁, hlist₁, hcells₁, -, kept, -, hcur₁, hall⟩
  obtain ⟨rfl, hplan₁⟩ := hall rfl
  have ho₁ : Owns s₁ new node := ho.congr (hcells₁ new hne) fun c _ => by rw [hplan₁]
  rw [Heap.load_cell hcur₁.cell, ok_bind]
  have hdisj : cur.contacts.Disjoint node.contacts := fun c hc hc' =>
    hcur₁.disjoint ho₁ hne.symm hc hc'
  apply (contactListDifference_spec hcur.once hdisj).bind
  rintro ⟨contacts, modified, deleted, s₂⟩ hd
  apply (rescheduleAll_spec modified _).bind
  intro s₃ h₃
  apply (dropDeleted_spec deleted s₃).bind
  intro s₄ h₄
  have hplan₄ : ∀ x, x ∉ deleted → s₄.plan x = s₂.plan x := by
    intro x hx
    rw [h₄.other x hx, h₃.plan]
    rfl
  have h₄' : Inv hash (s.nodeList.erase n) s₄ := by
    refine h₁.congr ?_ ?_ ⟨fun m hm => ?_, ?_⟩
    · exact h₄.contactList.trans (h₃.contactList.trans hd.contactList)
    · exact h₄.eidTable.trans (h₃.eidTable.trans hd.eidTable)
    · rw [h₄.nodes, h₃.nodes, ← hd.nodes]
      exact Heap.cells_set_ne _ (herase m hm) _
    · intro m hm node' ho' c hc
      have hmnew : m ≠ new := fun heq => hnew' (heq ▸ hm)
      have hcn : c ∉ cur.contacts := ho'.disjoint hcur₁ (herase m hm) hc
      have hcnew : c ∉ node.contacts := ho'.disjoint ho₁ hmnew hc
      rw [hplan₄ c fun hdel => hcn (hd.deleted_iff c hdel).1]
      exact hd.other c fun hmem => (List.mem_append.mp hmem).elim hcn hcnew
  have hcur₄ : Owns s₄ n { cur with
      endpoints := endpointListDifference cur.endpoints node.endpoints, contacts } := by
    refine ⟨?_, hcur.once.sublist hd.sublist, fun c hc => ?_⟩
    · rw [h₄.nodes, h₃.nodes]
      exact Heap.cells_set_self _ _ _
    · obtain ⟨p, hp, hnode⟩ := hcur₁.contacts c (hd.sublist.subset hc)
      obtain ⟨p', hp', hplace⟩ := hd.places c (hd.sublist.subset hc) p hp
      rw [hplan₄ c fun hdel => (hd.deleted_iff c hdel).2 hc]
      exact ⟨p', hp', hplace.node.trans hnode⟩
  apply (h₄'.enter hmem hcur₄ h.nodesOnce.not_mem_erase).bind
  rintro s₅ ⟨h₅, hlist₅, -⟩
  have hnew₅ : new ∉ n :: s.nodeList.erase n := by
    simpa [hne] using hnew'
  apply (h₅.freeCell hnew₅).mono
  rintro s₆ ⟨h₆, hlist₆⟩
  rw [hlist₆, hlist₅, h₄.nodeList, h₃.nodeList]
  have hlist₂ : s₂.nodeList = s.nodeList := hd.nodeList.trans hlist₁
  exact (h₆.perm (List.perm_cons_erase hn).symm).perm (.of_eq hlist₂.symm)

/-- **A node is deleted, or parts of it.** -/
theorem Inv.delete (hmem : ∀ k, mem k = true) (h : Inv hash s.nodeList s)
    (hfew : ∀ e, reachCount s e < 2 ^ 16) (ho : Owns s new node) (hnew : new ∉ s.nodeList) :
    Returns (routingTableDeleteNode mem hash s new) fun r => Inv hash r.2.nodeList r.2 := by
  unfold routingTableDeleteNode
  rw [Heap.load_cell ho.cell, ok_bind]
  apply (getNodeEntryByEid_spec s node.eid).bind
  intro found hfound
  cases found with
  | none =>
      apply (h.free ho hnew).bind
      rintro s' ⟨h', hlist, -⟩
      change Inv hash s'.nodeList s'
      rw [hlist]
      exact h'
  | some n =>
      have hn := (hfound n rfl).1
      have hne : new ≠ n := fun heq => hnew (heq ▸ hn)
      dsimp only
      split
      · apply (h.deleteWhole hn hfew).bind
        rintro s₁ ⟨h₁, hlist₁, hcells₁, hplan₁⟩
        have ho₁ : Owns s₁ new node := ho.congr (hcells₁ new hne) (hplan₁ new node hne ho)
        have hnew₁ : new ∉ s₁.nodeList := by
          rw [hlist₁]
          exact fun hmem => hnew (List.mem_of_mem_erase hmem)
        apply (h₁.free ho₁ hnew₁).bind
        rintro s₂ ⟨h₂, hlist₂, -⟩
        change Inv hash s₂.nodeList s₂
        rw [hlist₂]
        exact h₂
      · apply (h.deleteParts hmem hn hfew ho hnew).bind
        exact fun s' h' => h'

/-! ## One contact -/

/-- The state without one contact, in which all other contacts are as before. -/
theorem Inv.without (h : Inv hash N s) (hlist : s'.contactList = s.contactList.erase c)
    (hentries : Entries hash s.toTimes s'.eidTable)
    (hassoc : ∀ e x, x ∈ associated hash s'.eidTable e ↔ x ∈ associated hash s.eidTable e ∧ x ≠ c)
    (hplan : ∀ x, x ≠ c → s'.plan x = s.plan x)
    (hnodes : ∀ m ∈ N, ∀ node, Owns s m node →
      s'.nodes.cells m = some { node with contacts := node.contacts.erase c }) :
    Inv hash N s' := by
  have howns : ∀ m ∈ N, ∀ node, Owns s m node →
      Owns s' m { node with contacts := node.contacts.erase c } := by
    intro m hm node ho
    refine ⟨hnodes m hm node ho, ho.once.erase c, fun x hx => ?_⟩
    obtain ⟨hxc, hx⟩ := (List.Nodup.mem_erase_iff ho.once).mp hx
    rw [hplan x hxc]
    exact ho.contacts x hx
  have hmem : ∀ x, x ∈ s'.contactList ↔ x ∈ s.contactList ∧ x ≠ c := by
    intro x
    rw [hlist, h.ordered.once.mem_erase_iff]
    exact and_comm
  have howner : ∀ x ∈ s.contactList, x ≠ c → ∃ m ∈ N, ∃ node, Owns s m node ∧
      x ∈ node.contacts ∧ x ∈ node.contacts.erase c := by
    intro x hx hxc
    obtain ⟨m, hm, node, ho, hx⟩ := h.listed x hx
    exact ⟨m, hm, node, ho, hx, (List.Nodup.mem_erase_iff ho.once).mpr ⟨hxc, hx⟩⟩
  have heids : ∀ x ∈ s.contactList, x ≠ c → eidsOf s' x = eidsOf s x := by
    intro x hx hxc
    obtain ⟨m, hm, node, ho, hxn, hxe⟩ := howner x hx hxc
    rw [ho.eidsOf_eq hxn, (howns m hm node ho).eidsOf_eq hxe]
    simp [eidsBy, contactEids, nodeEids, hplan x hxc]
  have hsub : s'.contactList.Sublist s.contactList := by
    rw [hlist]
    exact List.erase_sublist
  refine ⟨h.nodesOnce, fun m hm => ?_, fun x hx => ?_, ⟨h.ordered.once.sublist hsub, ?_⟩, ?_,
    fun e x => ?_⟩
  · obtain ⟨node, ho⟩ := h.nodes m hm
    exact ⟨_, howns m hm node ho⟩
  · obtain ⟨hx, hxc⟩ := (hmem x).mp hx
    obtain ⟨m, hm, node, ho, -, hxe⟩ := howner x hx hxc
    exact ⟨m, hm, _, howns m hm node ho, hxe⟩
  · apply pairwise_time_congr (h.ordered.sorted.sublist hsub)
    intro x hx
    exact timeIn_of_plan (hplan x ((hmem x).mp hx).2)
  · apply hentries.congr
    intro e x hx
    exact timeIn_of_plan (hplan x ((hassoc e x).mp hx).2)
  · rw [hassoc, hmem, h.exact]
    constructor
    · rintro ⟨⟨hx, he⟩, hxc⟩
      exact ⟨⟨hx, hxc⟩, (heids x hx hxc).symm ▸ he⟩
    · rintro ⟨⟨hx, hxc⟩, he⟩
      exact ⟨⟨hx, heids x hx hxc ▸ he⟩, hxc⟩

/-- What is left of a contact at its node. -/
structure LeftNode (hash : CStr → UInt32) (N : List Addr) (s : Table) (c : Addr) (d : Contact)
    (s' : Table) : Prop where
  contacts : s'.contacts = s.contacts
  nodeList : s'.nodeList = s.nodeList
  contactList : s'.contactList = s.contactList
  entries : Entries hash s.toTimes s'.eidTable
  shorter : ∀ e, (associated hash s'.eidTable e).length ≤ (associated hash s.eidTable e).length
  nodes : ∀ m ∈ N, ∀ node, Owns s m node →
    s'.nodes.cells m = some { node with contacts := node.contacts.erase c }
  assoc_iff : ∃ E, (c ∈ s.contactList → eidsOf s c = E ++ strings d.contactEndpoints) ∧
    ∀ e x, x ∈ associated hash s'.eidTable e ↔
      x ∈ associated hash s.eidTable e ∧ ¬ (e ∈ E ∧ x = c)

theorem leaveNode_spec (h : Inv hash N s) (hfew : ∀ e, reachCount s e < 2 ^ 16) {d : Contact}
    (hd : s.contacts.cells c = some d) :
    Returns (leaveNode hash s c d.node) (LeftNode hash N s c d) := by
  -- a contact is among the contacts of the node it names only
  have hnode : ∀ {m : Addr} {node : Node}, Owns s m node → c ∈ node.contacts →
      d.node = some m := by
    intro m node ho hc
    obtain ⟨p, hp, hnode⟩ := ho.contacts c hc
    rw [plan_of_cell hd] at hp
    rw [← hnode, ← Option.some.inj hp]
  have hsame : ∀ {m : Addr} {node : Node}, Owns s m node → d.node ≠ some m →
      s.nodes.cells m = some { node with contacts := node.contacts.erase c } := by
    intro m node ho hne
    rw [List.erase_of_not_mem fun hc => hne (hnode ho hc)]
    exact ho.cell
  cases hn : d.node with
  | none =>
      refine ⟨rfl, rfl, rfl, h.entries, fun _ => le_rfl, fun m _ node ho => ?_, [], fun hc => ?_,
        by simp⟩
      · exact hsame ho (by simp [hn])
      · obtain ⟨m, _, node, ho, hc⟩ := h.listed c hc
        simp [hnode ho hc] at hn
  | some n =>
      unfold leaveNode
      apply (returns_load s.nodes n).bind
      intro node hcell
      cases heid : node.eid with
      | none => trivial
      | some eid =>
          change Returns (removeFromAll hash c s (eid :: node.endpoints.map (·.str)) >>= _) _
          rw [← nodeEids_of_eid heid]
          apply (removeFromAll_spec (nodeEids node) h.entries fun e =>
            lt_of_le_of_lt (h.associated_length_le e) (hfew e)).bind
          rintro s₁ ⟨⟨⟨t, k, rfl⟩, hentries, hiff⟩, hshort⟩
          refine ⟨rfl, rfl, rfl, hentries, hshort, fun m _ node' ho => ?_, nodeEids node,
            fun hc => ?_, hiff⟩
          · rw [removeContactFromList_getD]
            by_cases hm : m = n
            · subst hm
              obtain rfl := Option.some.inj (hcell.symm.trans ho.cell)
              rw [← heid]
              exact Heap.cells_set_self _ _ _
            · refine (Heap.cells_set_ne _ hm _).trans (hsame ho ?_)
              rw [hn]
              exact fun heq => hm (Option.some.inj heq).symm
          · obtain ⟨m, _, node', ho, hc⟩ := h.listed c hc
            obtain rfl : n = m := Option.some.inj (hn.symm.trans (hnode ho hc))
            obtain rfl := Option.some.inj (hcell.symm.trans ho.cell)
            rw [ho.eidsOf_eq hc, eidsBy, contactEids_of_cell hd]
            rfl

/-- **A contact is deleted.** -/
theorem Inv.deleteContact (h : Inv hash s.nodeList s) (hfew : ∀ e, reachCount s e < 2 ^ 16) :
    Returns (routingTableDeleteContact hash s c) fun s' => Inv hash s'.nodeList s' := by
  unfold routingTableDeleteContact
  apply (returns_load s.contacts c).bind
  intro d hd
  apply (returns_assertC _).bind
  intro _ _
  apply (leaveNode_spec h hfew hd).bind
  intro s₁ h₁
  obtain ⟨E, hE, hiff₁⟩ := h₁.assoc_iff
  have htimes : s₁.toTimes = s.toTimes := by
    unfold Table.toTimes Table.plan
    rw [h₁.contacts]
  apply (removeFromAll_spec _ (htimes.symm ▸ h₁.entries) fun e => lt_of_le_of_lt
    ((h₁.shorter e).trans (h.associated_length_le e)) (hfew e)).bind
  rintro s₂ ⟨⟨⟨t, k, rfl⟩, hentries, hiff₂⟩, -⟩
  apply (freeContact_spec _ c).mono
  intro s' hw
  rw [hw.nodeList]
  change Inv hash s₁.nodeList s'
  rw [h₁.nodeList]
  apply h.without
  · rw [hw.contactList, removeContactFromList_getD]
    change s₁.contactList.erase c = _
    rw [h₁.contactList]
  · rw [hw.eidTable, ← htimes]
    exact hentries
  · intro e x
    rw [hw.eidTable]
    refine (hiff₂ e x).trans ?_
    rw [hiff₁]
    constructor
    · rintro ⟨⟨hx, hnot⟩, hnot'⟩
      refine ⟨hx, ?_⟩
      rintro rfl
      obtain ⟨hlisted, he⟩ := (h.exact e x).mp hx
      rw [hE hlisted] at he
      rcases List.mem_append.mp he with he | he
      · exact hnot ⟨he, rfl⟩
      · exact hnot' ⟨he, rfl⟩
    · rintro ⟨hx, hxc⟩
      exact ⟨⟨hx, fun hnot => hxc hnot.2⟩, fun hnot => hxc hnot.2⟩
  · intro x hx
    rw [hw.other x (by simpa using hx)]
    change (s₁.contacts.cells x).map _ = (s.contacts.cells x).map _
    rw [h₁.contacts]
  · intro m hm node ho
    rw [hw.nodes]
    exact h₁.nodes m hm node ho

/-! ## Merging into a node of the table -/

/-- The contacts of a node of the table are pairwise disjoint in time. -/
def DisjointAt (s : Table) (n : Addr) : Prop :=
  ∀ node, s.nodes.cells n = some node → ∀ x ∈ node.contacts, ∀ y ∈ node.contacts, x ≠ y →
    ∀ p q, s.plan x = some p → s.plan y = some q → p.toTime ≤ q.fromTime ∨ q.toTime ≤ p.fromTime

/-- Merging `node` into `cur` adds no EID for a contact of `cur` that is listed: neither an
endpoint of the node, nor one of a contact with the same times. -/
def AddsNothing (s : Table) (cur node : Node) : Prop :=
  ∀ c ∈ cur.contacts, c ∈ s.contactList → ∀ p, s.plan c = some p → p.fromTime < p.toTime →
    ∀ e, e ∈ strings node.endpoints ∨ ExtraOf s.plan node.contacts p e → e ∈ eidsOf s c

/-- What the merged node and its contacts are before it enters the tables again. -/
structure Merged (s : Table) (n : Addr) (cur node cur' : Node) (s' : Table) : Prop where
  eid : cur'.eid = cur.eid
  keeps : strings cur.endpoints ⊆ strings cur'.endpoints
  gets : ∀ e ∈ strings cur'.endpoints, e ∈ strings cur.endpoints ∨ e ∈ strings node.endpoints
  owns : Owns s' n cur'
  subset : cur.contacts ⊆ cur'.contacts
  enriched : ∀ x ∈ cur.contacts, ∀ p, s.plan x = some p → ∃ p', s'.plan x = some p' ∧
    Enriched (ExtraOf s.plan node.contacts p) p p'
  other : ∀ x, x ∉ cur.contacts → x ∉ node.contacts → s'.plan x = s.plan x
  cells : ∀ m, m ≠ n → s'.nodes.cells m = s.nodes.cells m
  nodeList : s'.nodeList = s.nodeList
  contactList : s'.contactList = s.contactList
  eidTable : s'.eidTable = s.eidTable

/-- The first part of `mergeNode`. -/
theorem merged_of_union {s₁ s₂ s₃ : Table} {contacts : List Addr} {claAddr : Option CStr}
    {k : Nat} (hcur : Owns s n cur) (ho : Owns s new node) (hne : n ≠ new)
    (hu : United { s with requests := k } cur.contacts node.contacts contacts s₁)
    (hw : Within contacts { s₁ with nodes := s₁.nodes.set n { cur with
      claAddr, contacts
      endpoints := (endpointListUnion mem s.requests cur.endpoints node.endpoints).1 } } s₂)
    (hassign : ∀ x ∈ contacts, s₂.plan x = (s₁.plan x).map fun p => { p with node := some n })
    (hr : Unplanned s₂ s₃) :
    Merged s n cur node { cur with
      claAddr, contacts
      endpoints := (endpointListUnion mem s.requests cur.endpoints node.endpoints).1 } s₃ := by
  obtain ⟨taken, htaken, hperm, hplan⟩ := hu.split
  obtain ⟨hkeeps, hgets⟩ := strings_endpointListUnion mem node.endpoints s.requests cur.endpoints
  have hdisj : cur.contacts.Disjoint node.contacts := fun c hc hc' => hcur.disjoint ho hne hc hc'
  have hmem : ∀ x, x ∈ contacts ↔ x ∈ cur.contacts ∨ x ∈ taken := fun x => by
    rw [hperm.mem_iff, List.mem_append]
  have hsub : cur.contacts ⊆ contacts := fun x hx => (hmem x).mpr (.inl hx)
  have hassign₃ : ∀ x ∈ contacts, s₃.plan x = (s₁.plan x).map fun p => { p with node := some n } :=
    fun x hx => by rw [hr.plan, hassign x hx]
  refine ⟨rfl, hkeeps, hgets, ⟨?_, ?_, fun x hx => ?_⟩, hsub, fun x hx p hp => ?_,
    fun x hx hx' => ?_,
    fun m hm => ?_, ?_, ?_, ?_⟩
  · rw [hr.nodes, hw.nodes]
    exact Heap.cells_set_self _ _ _
  · apply hperm.nodup_iff.mpr
    apply List.Nodup.append hcur.once (ho.once.sublist htaken)
    exact fun c hc hc' => hdisj hc (htaken.subset hc')
  · rw [hassign₃ x hx]
    rcases (hmem x).mp hx with hx | hx
    · obtain ⟨p, hp, -⟩ := hcur.contacts x hx
      obtain ⟨p', hp', -⟩ := hu.enriched x hx p hp
      rw [hp']
      exact ⟨_, rfl, rfl⟩
    · obtain ⟨p, hp, -⟩ := ho.contacts x (htaken.subset hx)
      rw [hplan x hx]
      change ∃ q, (s.plan x).map _ = some q ∧ _
      rw [hp]
      exact ⟨_, rfl, rfl⟩
  · obtain ⟨p₀, hp₀, hnode⟩ := hcur.contacts x hx
    obtain rfl := Option.some.inj (hp₀.symm.trans hp)
    obtain ⟨p', hp', henr⟩ := hu.enriched x hx p₀ hp
    rw [hassign₃ x (hsub hx), hp']
    refine ⟨_, rfl, ⟨hnode.symm, henr.fromTime, henr.toTime⟩, henr.keeps, henr.gets⟩
  · have hnot : x ∉ contacts := fun h => ((hmem x).mp h).elim hx fun h => hx' (htaken.subset h)
    rw [hr.plan, hw.other x hnot]
    exact hu.other x fun h => (List.mem_append.mp h).elim hx hx'
  · rw [hr.nodes, hw.nodes]
    refine (Heap.cells_set_ne _ hm _).trans ?_
    rw [hu.nodes]
  · exact hr.nodeList.trans (hw.nodeList.trans hu.nodeList)
  · exact hr.contactList.trans (hw.contactList.trans hu.contactList)
  · exact hr.eidTable.trans (hw.eidTable.trans hu.eidTable)

section

variable {cur' : Node} {s₁ s₂ : Table} {added : List Addr}

/-- A listed contact is one of the merged node, or of another node, and not touched. -/
theorem Merged.listed_cases (hm : Merged s n cur node cur' s₁) (h : Inv hash N s)
    (hcur : Owns s n cur) (ho : Owns s new node) (hnew : new ∉ N) (hx : x ∈ s.contactList) :
    x ∈ cur.contacts ∨ (s₁.plan x = s.plan x ∧ ∃ m ∈ N, m ≠ n ∧ ∃ node', Owns s m node' ∧
      Owns s₁ m node' ∧ x ∈ node'.contacts) := by
  obtain ⟨m, hmN, node', ho', hx'⟩ := h.listed x hx
  by_cases hmn : m = n
  · subst hmn
    obtain rfl := Option.some.inj (ho'.cell.symm.trans hcur.cell)
    exact .inl hx'
  · have hmnew : m ≠ new := fun heq => hnew (heq ▸ hmN)
    have hother : ∀ c ∈ node'.contacts, s₁.plan c = s.plan c := fun c hc =>
      hm.other c (ho'.disjoint hcur hmn hc) (ho'.disjoint ho hmnew hc)
    exact .inr ⟨hother x hx', m, hmN, hmn, node', ho', ho'.congr (hm.cells m hmn) hother, hx'⟩

theorem Merged.times (hm : Merged s n cur node cur' s₁) (h : Inv hash N s) (hcur : Owns s n cur)
    (ho : Owns s new node) (hnew : new ∉ N) {time : Plan → UInt64}
    (htime : ∀ p p', SamePlace p p' → time p' = time p) (hx : x ∈ s.contactList) :
    timeIn s₁.plan time x = timeIn s.plan time x := by
  rcases hm.listed_cases h hcur ho hnew hx with hx | ⟨hplan, -⟩
  · obtain ⟨p, hp, -⟩ := hcur.contacts x hx
    obtain ⟨p', hp', henr⟩ := hm.enriched x hx p hp
    simp [timeIn, hp, hp', htime p p' henr.toSamePlace]
  · exact timeIn_of_plan hplan

/-- A contact of the merged node that was refused ends after it starts: the contacts of the node
are disjoint, so it is its own obstacle. -/
theorem Merged.lt_of_refused (hm : Merged s n cur node cur' s₁) (h : Inv hash N s)
    (hcur : Owns s n cur) (ho : Owns s new node) (hnew : new ∉ N)
    (ha : Added hash s₁ cur' cur'.contacts added s₂) (hdisj : DisjointAt s₂ n)
    (hx : x ∈ cur'.contacts) (hnot : x ∉ added) {p : Plan} (hp : s₁.plan x = some p) :
    p.fromTime < p.toTime := by
  obtain ⟨p', hp', y, hy, q, hq, hnode, hlt, hlt'⟩ := ha.skipped x hx hnot
  obtain rfl := Option.some.inj (hp.symm.trans hp')
  obtain ⟨p₀, hp₀, hpn⟩ := hm.owns.contacts x hx
  obtain rfl := Option.some.inj (hp.symm.trans hp₀)
  have hyc : y ∈ cur'.contacts := by
    rcases (ha.listed_iff y).mp hy with hy | hy
    · rw [hm.contactList] at hy
      rcases hm.listed_cases h hcur ho hnew hy with hy | ⟨-, m, -, hmn, node', -, ho', hy'⟩
      · exact hm.subset hy
      · obtain ⟨q', hq', hqn⟩ := ho'.contacts y hy'
        obtain rfl := Option.some.inj (hq.symm.trans hq')
        rw [hqn, hpn] at hnode
        exact absurd (Option.some.inj hnode) hmn
    · exact ha.subset hy
  by_cases hxy : x = y
  · subst hxy
    obtain rfl := Option.some.inj (hp.symm.trans hq)
    exact hlt
  · have hcell : s₂.nodes.cells n = some cur' := by
      rw [ha.nodes]
      exact hm.owns.cell
    rw [← ha.plan] at hp hq
    rcases hdisj cur' hcell x hx y hyc hxy p q hp hq with hle | hle
    · exact absurd hlt' (UInt64.not_lt.mpr hle)
    · exact absurd hlt (UInt64.not_lt.mpr hle)

/-- The EIDs of a contact of the merged node. -/
theorem Merged.eids_iff (hm : Merged s n cur node cur' s₁) (hcur : Owns s n cur)
    (hx : x ∈ cur.contacts) {p : Plan} (hp : s.plan x = some p) {e : CStr} :
    (e ∈ eidsOf s x → e ∈ eidsOf s₁ x) ∧ (e ∈ eidsOf s₁ x → e ∈ eidsOf s x ∨
      e ∈ strings node.endpoints ∨ ExtraOf s.plan node.contacts p e) := by
  obtain ⟨p', hp', henr⟩ := hm.enriched x hx p hp
  have hold : eidsOf s x = (cur.eid.toList ++ strings cur.endpoints) ++
      strings p.contactEndpoints := by
    rw [hcur.eidsOf_eq hx]
    simp [eidsBy, contactEids, nodeEids, strings, hp]
  have hnew : eidsOf s₁ x = (cur.eid.toList ++ strings cur'.endpoints) ++
      strings p'.contactEndpoints := by
    rw [hm.owns.eidsOf_eq (hm.subset hx)]
    simp [eidsBy, contactEids, nodeEids, strings, hp', hm.eid]
  rw [hold, hnew]
  simp only [List.mem_append]
  constructor
  · rintro ((he | he) | he)
    · exact .inl (.inl he)
    · exact .inl (.inr (hm.keeps he))
    · exact .inr (henr.keeps he)
  · rintro ((he | he) | he)
    · exact .inl (.inl (.inl he))
    · rcases hm.gets e he with he | he
      · exact .inl (.inl (.inr he))
      · exact .inr (.inl he)
    · rcases henr.gets e he with he | he
      · exact .inl (.inr he)
      · exact .inr (.inr he)

/-- The merged node enters the tables again. -/
theorem Merged.reenter (hm : Merged s n cur node cur' s₁) (h : Inv hash N s) (hn : n ∈ N)
    (hcur : Owns s n cur) (ho : Owns s new node) (hnew : new ∉ N)
    (hadds : AddsNothing s cur node) (ha : Added hash s₁ cur' cur'.contacts added s₂)
    (hdisj : DisjointAt s₂ n) : Inv hash N s₂ := by
  have hcases : ∀ {x : Addr}, x ∈ s.contactList → _ := fun {x} => hm.listed_cases h hcur ho hnew
  have hmoved : ∀ {m node'}, Owns s₁ m node' → Owns s₂ m node' := fun ho' =>
    ho'.congr (by rw [ha.nodes]) fun c _ => by rw [ha.plan]
  have heids : ∀ c, eidsOf s₂ c = eidsOf s₁ c := by
    intro c
    simp only [eidsOf, ha.plan, ha.nodes]
  have hnodes : ∀ m ∈ N, m ≠ n → ∀ node', Owns s m node' → Owns s₂ m node' := by
    intro m hmN hmn node' ho'
    have hmnew : m ≠ new := fun heq => hnew (heq ▸ hmN)
    apply hmoved
    apply ho'.congr (hm.cells m hmn)
    exact fun c hc => hm.other c (ho'.disjoint hcur hmn hc) (ho'.disjoint ho hmnew hc)
  refine ⟨h.nodesOnce, fun m hmN => ?_, fun x hx => ?_, ha.ordered, ?_, fun e x => ?_⟩
  · by_cases hmn : m = n
    · exact ⟨cur', hmn ▸ hmoved hm.owns⟩
    · obtain ⟨node', ho'⟩ := h.nodes m hmN
      exact ⟨node', hnodes m hmN hmn node' ho'⟩
  · rcases (ha.listed_iff x).mp hx with hx | hx
    · rw [hm.contactList] at hx
      rcases hcases hx with hx | ⟨-, m, hmN, -, node', -, ho', hx'⟩
      · exact ⟨n, hn, cur', hmoved hm.owns, hm.subset hx⟩
      · exact ⟨m, hmN, node', hmoved ho', hx'⟩
    · exact ⟨n, hn, cur', hmoved hm.owns, ha.subset hx⟩
  · unfold Table.toTimes
    rw [ha.plan]
    exact ha.entries
  · rw [ha.assoc_iff, ha.listed_iff, heids, hm.eidTable, hm.contactList, h.exact]
    constructor
    · rintro (⟨hx, he⟩ | ⟨hx, he⟩)
      · refine ⟨.inl hx, ?_⟩
        rcases hcases hx with hx | ⟨hplan, m, -, -, node', ho', ho₁, hx'⟩
        · obtain ⟨p, hp, -⟩ := hcur.contacts x hx
          exact (hm.eids_iff hcur hx hp).1 he
        · rw [ho'.eidsOf_congr ho₁ hx' hplan]
          exact he
      · exact ⟨.inr hx, hm.owns.eidsOf_eq (ha.subset hx) ▸ he⟩
    · rintro ⟨hx, he⟩
      by_cases hxa : x ∈ added
      · exact .inr ⟨hxa, hm.owns.eidsOf_eq (ha.subset hxa) ▸ he⟩
      · have hx := hx.resolve_right hxa
        refine .inl ⟨hx, ?_⟩
        rcases hcases hx with hxc | ⟨hplan, m, -, -, node', ho', ho₁, hx'⟩
        · -- a listed contact of the node itself: it was refused, so nothing may be new
          obtain ⟨p, hp, -⟩ := hcur.contacts x hxc
          obtain ⟨p', hp', henr⟩ := hm.enriched x hxc p hp
          rcases (hm.eids_iff hcur hxc hp).2 he with he | he
          · exact he
          · refine hadds x hxc hx p hp ?_ e he
            have hlt := hm.lt_of_refused h hcur ho hnew ha hdisj (hm.subset hxc) hxa hp'
            rw [henr.fromTime, henr.toTime] at hlt
            exact hlt
        · rw [← ho'.eidsOf_congr ho₁ hx' hplan]
          exact he

end

/-- **A node is merged into one of the table.** -/
theorem Inv.merge (hmem : ∀ k, mem k = true) (h : Inv hash s.nodeList s) (hn : n ∈ s.nodeList)
    (hcur : Owns s n cur) (ho : Owns s new node) (hnew : new ∉ s.nodeList)
    (hadds : AddsNothing s cur node) :
    Returns (mergeNode mem hash s n new) fun s' => s'.nodeList = s.nodeList ∧
      (DisjointAt s' n → Inv hash s'.nodeList s') := by
  have hne : n ≠ new := fun heq => hnew (heq ▸ hn)
  have hnd : (cur.contacts ++ node.contacts).Nodup := by
    apply List.Nodup.append hcur.once ho.once
    exact fun c hc hc' => hcur.disjoint ho hne hc hc'
  unfold mergeNode
  rw [Heap.load_cell ho.cell, ok_bind, Heap.load_cell hcur.cell, ok_bind]
  apply (contactListUnion_spec hnd).bind
  rintro ⟨contacts, modified, s₁⟩ hu
  apply (assignNode_spec n contacts _).bind
  rintro s₂ ⟨hw, hassign⟩
  apply (rescheduleExceeded_spec modified s₂).bind
  intro s₃ hr
  have hm := merged_of_union hcur ho hne hu hw hassign hr
  have hentries : Entries hash s₃.toTimes s₃.eidTable := by
    rw [hm.eidTable]
    apply h.entries_of_times
    exact fun x hx => hm.times h hcur ho hnew (fun _ _ hp => hp.toTime) hx
  have hordered : Ordered s₃ := by
    refine ⟨hm.contactList.symm ▸ h.ordered.once, ?_⟩
    rw [hm.contactList]
    apply pairwise_time_congr h.ordered.sorted
    exact fun x hx => hm.times h hcur ho hnew (fun _ _ hp => hp.fromTime) hx
  unfold addNodeToTables
  rw [Heap.load_cell hm.owns.cell, ok_bind]
  apply (addContacts_spec hmem _ _ hentries hordered).bind
  rintro s₄ ⟨added, ha⟩
  unfold freeNodeCell
  apply (returns_release s₄.nodes new).bind
  rintro _ ⟨-, rfl⟩
  have hlist : s₄.nodeList = s.nodeList := ha.nodeList.trans hm.nodeList
  refine ⟨hlist, fun hdisj => ?_⟩
  have hdisj' : DisjointAt s₄ n := by
    intro node' hnode'
    exact hdisj node' ((Heap.cells_erase_ne _ hne).trans hnode')
  change Inv hash s₄.nodeList _
  rw [hlist]
  refine Inv.congr (hm.reenter h hn hcur ho hnew hadds ha hdisj') rfl rfl ⟨?_, ?_⟩
  · exact fun m hmN => Heap.cells_erase_ne _ fun heq => hnew (heq ▸ hmN)
  · exact fun _ _ _ _ _ _ => rfl

end RoutingTable
