import DisruptaBLE.Contact.ContactLists

/-!
# The invariant of the routing table

`Inv` says that the table of EIDs is exact: a contact is associated with an EID if and only if it
is listed and the EID is one of its node, or one of its own.  Around it stands what the operations
need: each node of the list owns its contacts, and each listed contact belongs to a node.

A node with all its contacts can leave the tables (`Inv.leave`) and a node can enter them
(`Inv.enter`); most operations are made of these two.  Between them the list of nodes is not the
one of the state, so the invariant names its nodes.
-/

namespace RoutingTable

open PtrHeap Outcome
open EpidemicRouter (CStr Htab)

/-! ## Definitions -/

/-- The EIDs reachable over a contact: the one of its node, its endpoints, and the endpoints of
the contact. -/
def eidsOf (s : Table) (c : Addr) : List CStr :=
  match s.plan c with
  | none => []
  | some p =>
      (match p.node.bind s.nodes.cells with
        | none => []
        | some node => nodeEids node) ++ strings p.contactEndpoints

/-- A node on the heap, with its contacts. -/
structure Owns (s : Table) (n : Addr) (node : Node) : Prop where
  cell : s.nodes.cells n = some node
  once : node.contacts.Nodup
  contacts : ∀ c ∈ node.contacts, ∃ p, s.plan c = some p ∧ p.node = some n

/-- The invariant, with the nodes `N` in the table. -/
structure Inv (hash : CStr → UInt32) (N : List Addr) (s : Table) : Prop where
  nodesOnce : N.Nodup
  nodes : ∀ n ∈ N, ∃ node, Owns s n node
  listed : ∀ c ∈ s.contactList, ∃ n ∈ N, ∃ node, Owns s n node ∧ c ∈ node.contacts
  ordered : Ordered s
  entries : Entries hash s.toTimes s.eidTable
  exact : ∀ e c, c ∈ associated hash s.eidTable e ↔ c ∈ s.contactList ∧ e ∈ eidsOf s c

variable {mem : Nat → Bool} {hash : CStr → UInt32} {s s' : Table} {N : List Addr}
  {n m c x : Addr} {node : Node}

theorem Owns.unique {node' : Node} (h : Owns s n node) (h' : Owns s m node')
    (hc : c ∈ node.contacts) (hc' : c ∈ node'.contacts) : n = m := by
  obtain ⟨p, hp, hnode⟩ := h.contacts c hc
  obtain ⟨p', hp', hnode'⟩ := h'.contacts c hc'
  obtain rfl := Option.some.inj (hp.symm.trans hp')
  exact Option.some.inj (hnode.symm.trans hnode')

theorem Owns.eidsOf_eq (h : Owns s n node) (hc : c ∈ node.contacts) :
    eidsOf s c = eidsBy s.plan node c := by
  obtain ⟨p, hp, hnode⟩ := h.contacts c hc
  simp [eidsOf, eidsBy, contactEids, strings, hp, hnode, h.cell]

theorem Owns.eidsOf_congr (h : Owns s n node) (h' : Owns s' n node) (hc : c ∈ node.contacts)
    (hplan : s'.plan c = s.plan c) : eidsOf s' c = eidsOf s c := by
  rw [h.eidsOf_eq hc, h'.eidsOf_eq hc]
  simp [eidsBy, contactEids, hplan]

/-- What a node owns, it owns in any state with the same cells. -/
theorem Owns.congr (h : Owns s n node) (hcell : s'.nodes.cells n = s.nodes.cells n)
    (hplan : ∀ c ∈ node.contacts, s'.plan c = s.plan c) : Owns s' n node := by
  refine ⟨hcell.trans h.cell, h.once, fun c hc => ?_⟩
  rw [hplan c hc]
  exact h.contacts c hc

/-! ## The frame of the invariant -/

theorem pairwise_time_congr {time time' : Addr → UInt64} {l : List Addr}
    (h : l.Pairwise fun a b => time a ≤ time b) (heq : ∀ x ∈ l, time' x = time x) :
    l.Pairwise fun a b => time' a ≤ time' b := by
  apply List.Pairwise.imp_of_mem _ h
  intro a b ha hb hab
  rw [heq a ha, heq b hb]
  exact hab

theorem Entries.congr {time time' : Addr → UInt64} {t : Htab NodeTableEntry}
    (h : Entries hash time t) (heq : ∀ e, ∀ x ∈ associated hash t e, time' x = time x) :
    Entries hash time' t := by
  refine ⟨h.slots, fun {e entry} hentry => ?_, h.nonempty⟩
  have hlist := h.lists hentry
  refine ⟨hlist.once, pairwise_time_congr hlist.sorted fun x hx => ?_, hlist.counted⟩
  apply heq e
  rw [associated_of_lookup hentry]
  exact hx

/-- Times of listed contacts that stay make the order and the entries stay. -/
theorem Inv.entries_of_times (h : Inv hash N s) {time : Addr → UInt64}
    (heq : ∀ x ∈ s.contactList, time x = s.toTimes x) : Entries hash time s.eidTable :=
  h.entries.congr fun e x hx => heq x ((h.exact e x).mp hx).1

theorem timeIn_of_plan {plan plan' : Addr → Option Plan} {time : Plan → UInt64}
    (h : plan' x = plan x) : timeIn plan' time x = timeIn plan time x := by
  simp [timeIn, h]

/-- The nodes of the table and their contacts are the same. -/
structure SameNodes (N : List Addr) (s s' : Table) : Prop where
  cells : ∀ n ∈ N, s'.nodes.cells n = s.nodes.cells n
  plan : ∀ n ∈ N, ∀ node, Owns s n node → ∀ c ∈ node.contacts, s'.plan c = s.plan c

theorem SameNodes.owns (h : SameNodes N s s') (hn : n ∈ N) (ho : Owns s n node) :
    Owns s' n node :=
  ho.congr (h.cells n hn) (h.plan n hn node ho)

theorem Inv.plan_of_listed (h : Inv hash N s) (hs : SameNodes N s s') (hx : x ∈ s.contactList) :
    s'.plan x = s.plan x := by
  obtain ⟨n, hn, node, ho, hc⟩ := h.listed x hx
  exact hs.plan n hn node ho x hc

theorem Inv.eidsOf_of_listed (h : Inv hash N s) (hs : SameNodes N s s')
    (hx : x ∈ s.contactList) : eidsOf s' x = eidsOf s x := by
  obtain ⟨n, hn, node, ho, hc⟩ := h.listed x hx
  exact ho.eidsOf_congr (hs.owns hn ho) hc (hs.plan n hn node ho x hc)

/-- **The invariant depends on the nodes of the table and their contacts only.** -/
theorem Inv.congr (h : Inv hash N s) (hlist : s'.contactList = s.contactList)
    (htable : s'.eidTable = s.eidTable) (hs : SameNodes N s s') : Inv hash N s' := by
  refine ⟨h.nodesOnce, fun n hn => ?_, fun c hc => ?_, ⟨?_, ?_⟩, ?_, fun e c => ?_⟩
  · obtain ⟨node, ho⟩ := h.nodes n hn
    exact ⟨node, hs.owns hn ho⟩
  · rw [hlist] at hc
    obtain ⟨n, hn, node, ho, hc⟩ := h.listed c hc
    exact ⟨n, hn, node, hs.owns hn ho, hc⟩
  · rw [hlist]
    exact h.ordered.once
  · rw [hlist]
    apply pairwise_time_congr h.ordered.sorted
    exact fun x hx => timeIn_of_plan (h.plan_of_listed hs hx)
  · rw [htable]
    apply h.entries_of_times
    exact fun x hx => timeIn_of_plan (h.plan_of_listed hs hx)
  · rw [hlist, htable, h.exact]
    refine and_congr_right fun hc => ?_
    rw [h.eidsOf_of_listed hs hc]

theorem Inv.perm {N' : List Addr} (h : Inv hash N s) (hN : N.Perm N') : Inv hash N' s := by
  refine ⟨hN.nodup_iff.mp h.nodesOnce, fun n hn => h.nodes n (hN.symm.subset hn), fun c hc => ?_,
    h.ordered, h.entries, h.exact⟩
  obtain ⟨n, hn, hrest⟩ := h.listed c hc
  exact ⟨n, hN.subset hn, hrest⟩

/-- A node that is not in the table has no contact in common with one that is. -/
theorem Owns.disjoint {node' : Node} (h : Owns s n node) (h' : Owns s m node') (hne : n ≠ m)
    (hc : c ∈ node.contacts) : c ∉ node'.contacts :=
  fun hc' => hne (h.unique h' hc hc')

/-! ## A node enters -/

/-- **A node enters the tables.** -/
theorem Inv.enter (hmem : ∀ k, mem k = true) (h : Inv hash N s) (ho : Owns s n node)
    (hn : n ∉ N) : Returns (addNodeToTables mem hash s n) fun s' =>
      Inv hash (n :: N) s' ∧ s'.nodeList = s.nodeList ∧ s'.nodes = s.nodes ∧
        s'.plan = s.plan := by
  unfold addNodeToTables
  rw [Heap.load_cell ho.cell, ok_bind]
  apply (addContacts_spec hmem node node.contacts h.entries h.ordered).mono
  rintro s' ⟨added, ha⟩
  have howns : ∀ {m node}, Owns s m node → Owns s' m node := fun hm =>
    hm.congr (by rw [ha.nodes]) fun c _ => by rw [ha.plan]
  have heids : ∀ c, eidsOf s' c = eidsOf s c := by
    intro c
    simp only [eidsOf, ha.plan, ha.nodes]
  have hadded : ∀ c ∈ added, eidsOf s c = eidsBy s.plan node c := fun c hc =>
    ho.eidsOf_eq (ha.subset hc)
  refine ⟨⟨List.nodup_cons.mpr ⟨hn, h.nodesOnce⟩, fun m hm => ?_, fun c hc => ?_, ha.ordered, ?_,
    fun e c => ?_⟩, ha.nodeList, ha.nodes, ha.plan⟩
  · rcases List.mem_cons.mp hm with rfl | hm
    · exact ⟨node, howns ho⟩
    · obtain ⟨node', ho'⟩ := h.nodes m hm
      exact ⟨node', howns ho'⟩
  · rcases (ha.listed_iff c).mp hc with hc | hc
    · obtain ⟨m, hm, node', ho', hc'⟩ := h.listed c hc
      exact ⟨m, List.mem_cons_of_mem n hm, node', howns ho', hc'⟩
    · exact ⟨n, List.mem_cons_self, node, howns ho, ha.subset hc⟩
  · unfold Table.toTimes
    rw [ha.plan]
    exact ha.entries
  · rw [ha.assoc_iff, ha.listed_iff, heids, h.exact]
    constructor
    · rintro (⟨hc, he⟩ | ⟨hc, he⟩)
      · exact ⟨.inl hc, he⟩
      · exact ⟨.inr hc, hadded c hc ▸ he⟩
    · rintro ⟨hc | hc, he⟩
      · exact .inl ⟨hc, he⟩
      · exact .inr ⟨hc, hadded c hc ▸ he⟩

/-! ## A node leaves -/

/-- EIDs are compared by their letters. -/
local instance lawfulBEqCStr : LawfulBEq CStr := inferInstance

/-- The number of listed contacts over which an EID is reachable. -/
def reachCount (s : Table) (e : CStr) : Nat :=
  (s.contactList.filter fun c => e ∈ eidsOf s c).length

theorem Inv.associated_length_le (h : Inv hash N s) (e : CStr) :
    (associated hash s.eidTable e).length ≤ reachCount s e := by
  apply List.Subperm.length_le
  apply (h.entries.nodup e).subperm
  intro c hc
  obtain ⟨hlisted, he⟩ := (h.exact e c).mp hc
  exact List.mem_filter.mpr ⟨hlisted, by simpa using he⟩

/-- **A node leaves the tables.**  It keeps those of its contacts that are not active, or all. -/
theorem Inv.leave (h : Inv hash N s) (hn : n ∈ N) (hfew : ∀ e, reachCount s e < 2 ^ 16)
    (ho : Owns s n node) (dropContacts : Bool) :
    Returns (removeNodeFromTables hash s n dropContacts) fun s' =>
      Inv hash (N.erase n) s' ∧ s'.nodeList = s.nodeList ∧
      (∀ m, m ≠ n → s'.nodes.cells m = s.nodes.cells m) ∧
      (∀ x, x ∉ node.contacts → s'.plan x = s.plan x) ∧
      ∃ kept, kept.Sublist node.contacts ∧ Owns s' n { node with contacts := kept } ∧
        (dropContacts = false → kept = node.contacts ∧ s'.plan = s.plan) := by
  unfold removeNodeFromTables
  rw [Heap.load_cell ho.cell, ok_bind]
  apply (removeContacts_spec dropContacts ho.once h.entries h.ordered fun e =>
    lt_of_le_of_lt (h.associated_length_le e) (hfew e)).bind
  rintro ⟨kept, s₁⟩ ⟨hr, hall⟩
  apply (returns_modify s₁.nodes n _).bind
  rintro _ ⟨node₁, hnode₁, rfl⟩
  have hsame : node₁ = node := by
    rw [hr.nodes, ho.cell] at hnode₁
    exact (Option.some.inj hnode₁).symm
  subst hsame
  -- the other nodes of the table keep their contacts
  have hothers : ∀ m ∈ N.erase n, ∀ node', Owns s m node' → Owns
      { s₁ with nodes := s₁.nodes.set n { node₁ with contacts := kept } } m node' := by
    intro m hm node' ho'
    have hne : m ≠ n := ((List.Nodup.mem_erase_iff h.nodesOnce).mp hm).1
    apply ho'.congr
    · rw [Heap.cells_set_ne _ hne, hr.nodes]
    · intro c hc
      exact hr.plan_other c (ho'.disjoint ho hne hc)
  have howner : ∀ c ∈ s₁.contactList, ∃ m ∈ N.erase n, ∃ node', Owns s m node' ∧
      c ∈ node'.contacts := by
    intro c hc
    obtain ⟨hlisted, hnot⟩ := (hr.listed_iff c).mp hc
    obtain ⟨m, hm, node', ho', hc'⟩ := h.listed c hlisted
    have hne : m ≠ n := by
      rintro rfl
      obtain rfl := Option.some.inj (ho'.cell.symm.trans ho.cell)
      exact hnot hc'
    exact ⟨m, (List.Nodup.mem_erase_iff h.nodesOnce).mpr ⟨hne, hm⟩, node', ho', hc'⟩
  have heids : ∀ c ∈ s₁.contactList, eidsOf
      { s₁ with nodes := s₁.nodes.set n { node₁ with contacts := kept } } c = eidsOf s c := by
    intro c hc
    obtain ⟨m, hm, node', ho', hmem⟩ := howner c hc
    exact ho'.eidsOf_congr (hothers m hm node' ho') hmem
      (hr.plan_other c ((hr.listed_iff c).mp hc).2)
  refine ⟨⟨h.nodesOnce.erase n, fun m hm => ?_, fun c hc => ?_,
    ⟨(hr.ordered h.ordered).once, (hr.ordered h.ordered).sorted⟩, ?_, fun e c => ?_⟩, hr.nodeList,
    fun m hm => ?_, hr.plan_other, kept, hr.kept, ?_, fun hdrop => ?_⟩
  · obtain ⟨node', ho'⟩ := h.nodes m (List.mem_of_mem_erase hm)
    exact ⟨node', hothers m hm node' ho'⟩
  · obtain ⟨m, hm, node', ho', hc'⟩ := howner c hc
    exact ⟨m, hm, node', hothers m hm node' ho', hc'⟩
  · change Entries hash s₁.toTimes s₁.eidTable
    rw [hr.toTimes_eq]
    exact hr.entries
  · rw [hr.assoc_iff, h.exact]
    constructor
    · rintro ⟨⟨hc, he⟩, hnot⟩
      have hc' : c ∉ node₁.contacts := fun hmem => hnot ⟨hmem, ho.eidsOf_eq hmem ▸ he⟩
      have hlisted : c ∈ s₁.contactList := (hr.listed_iff c).mpr ⟨hc, hc'⟩
      exact ⟨hlisted, (heids c hlisted).symm ▸ he⟩
    · rintro ⟨hlisted, he⟩
      obtain ⟨hc, hc'⟩ := (hr.listed_iff c).mp hlisted
      exact ⟨⟨hc, heids c hlisted ▸ he⟩, fun hnot => hc' hnot.1⟩
  · exact (Heap.cells_set_ne _ hm _).trans (by rw [hr.nodes])
  · refine ⟨Heap.cells_set_self _ _ _, ho.once.sublist hr.kept, fun c hc => ?_⟩
    obtain ⟨p, hp, hnode⟩ := ho.contacts c (hr.kept.subset hc)
    exact ⟨p, (hr.plan_kept c hc).trans hp, hnode⟩
  · obtain ⟨hkept, hcontacts⟩ := hall hdrop
    refine ⟨hkept, ?_⟩
    funext x
    change Table.plan s₁ x = s.plan x
    unfold Table.plan
    rw [hcontacts]

/-! ## Nodes outside the table -/

/-- A node outside the table is released. -/
theorem Inv.free (h : Inv hash N s) (ho : Owns s n node) (hn : n ∉ N) :
    Returns (freeNode s n) fun s' => Inv hash N s' ∧ s'.nodeList = s.nodeList ∧
      (∀ m, m ≠ n → s'.nodes.cells m = s.nodes.cells m) ∧
      ∀ x, x ∉ node.contacts → s'.plan x = s.plan x := by
  apply (freeNode_spec s n).mono
  rintro s' ⟨node', hcell, hnodes, hlist, hcontacts, htable, hplan⟩
  obtain rfl := Option.some.inj (hcell.symm.trans ho.cell)
  have hcells : ∀ m, m ≠ n → s'.nodes.cells m = s.nodes.cells m := by
    intro m hm
    rw [hnodes]
    exact Heap.cells_erase_ne _ hm
  have hne : ∀ m ∈ N, m ≠ n := fun m hm heq => hn (heq ▸ hm)
  refine ⟨h.congr hcontacts htable ⟨fun m hm => hcells m (hne m hm), ?_⟩, hlist, hcells, hplan⟩
  intro m hm node₁ ho₁ c hc
  exact hplan c (ho₁.disjoint ho (hne m hm) hc)

/-- The cell of a node outside the table is released. -/
theorem Inv.freeCell (h : Inv hash N s) (hn : n ∉ N) :
    Returns (freeNodeCell s n) fun s' => Inv hash N s' ∧ s'.nodeList = s.nodeList := by
  unfold freeNodeCell
  apply (returns_release s.nodes n).bind
  rintro _ ⟨-, rfl⟩
  refine ⟨h.congr rfl rfl ⟨fun m hm => ?_, fun _ _ _ _ _ _ => rfl⟩, rfl⟩
  exact Heap.cells_erase_ne _ fun heq => hn (heq ▸ hm)

/-- A node outside the table is prepared. -/
theorem Inv.prepare (h : Inv hash N s) (ho : Owns s n node) (hn : n ∉ N) :
    Returns (nodePrepareAndVerify s n) fun r => ∃ node', Inv hash N r.2 ∧ SameNodes N s r.2 ∧
      Owns r.2 n node' ∧ Prepared s n node node' r.2 := by
  apply (nodePrepareAndVerify_spec ho.cell ho.once).mono
  rintro ⟨b, s'⟩ ⟨node', hp⟩
  have hne : ∀ m ∈ N, m ≠ n := fun m hm heq => hn (heq ▸ hm)
  have hsame : SameNodes N s s' := by
    refine ⟨fun m hm => hp.others m (hne m hm), ?_⟩
    intro m hm node₁ ho₁ c hc
    exact hp.plan_other c (ho₁.disjoint ho (hne m hm) hc)
  refine ⟨node', h.congr hp.contactList hp.eidTable hsame, hsame, ?_, hp⟩
  refine ⟨hp.self, hp.contacts.nodup_iff.mpr ho.once, fun c hc => ?_⟩
  have hc' := hp.contacts.subset hc
  obtain ⟨p, hplan, hnode⟩ := ho.contacts c hc'
  obtain ⟨p', hplan', htrim⟩ := hp.trimmed c hc' p hplan
  exact ⟨p', hplan', htrim.node.trans hnode⟩

theorem findNode_spec (s : Table) (eid : CStr) (l : List Addr) :
    Returns (findNode s eid l) fun r => ∀ n, r = some n → n ∈ l ∧
      ∃ node, s.nodes.cells n = some node ∧ node.eid = some eid := by
  induction l with
  | nil => simp [findNode]
  | cons m l ih =>
      unfold findNode
      apply (returns_load s.nodes m).bind
      intro node hnode
      cases heid : node.eid with
      | none => trivial
      | some x =>
          dsimp only
          split
          · rename_i hx
            intro n hn
            obtain rfl := Option.some.inj hn
            exact ⟨List.mem_cons_self, node, hnode, hx ▸ heid⟩
          · apply ih.mono
            intro r hr n hn
            obtain ⟨hmem, hrest⟩ := hr n hn
            exact ⟨List.mem_cons_of_mem m hmem, hrest⟩

/-- The node that is found is in the list, and has the EID. -/
theorem getNodeEntryByEid_spec (s : Table) (eid : Option CStr) :
    Returns (getNodeEntryByEid s eid) fun r => ∀ n, r = some n → n ∈ s.nodeList ∧
      ∃ node, s.nodes.cells n = some node ∧ node.eid = eid := by
  cases eid with
  | none => simp [getNodeEntryByEid]
  | some eid => exact findNode_spec s eid s.nodeList

/-- The state with another list of nodes. -/
theorem Inv.withList (h : Inv hash N s) (L : List Addr) : Inv hash N { s with nodeList := L } :=
  h.congr rfl rfl ⟨fun _ _ => rfl, fun _ _ _ _ _ _ => rfl⟩

theorem Owns.withList (h : Owns s n node) (L : List Addr) : Owns { s with nodeList := L } n node :=
  h.congr rfl fun _ _ => rfl

/-- **A node is deleted as a whole.** -/
theorem Inv.deleteWhole (h : Inv hash s.nodeList s) (hn : n ∈ s.nodeList)
    (hfew : ∀ e, reachCount s e < 2 ^ 16) :
    Returns (deleteWholeNode hash s n) fun s' => Inv hash s'.nodeList s' ∧
      s'.nodeList = s.nodeList.erase n ∧
      (∀ m, m ≠ n → s'.nodes.cells m = s.nodes.cells m) ∧
      ∀ m node, m ≠ n → Owns s m node → ∀ c ∈ node.contacts, s'.plan c = s.plan c := by
  obtain ⟨node, ho⟩ := h.nodes n hn
  have hnot : n ∉ s.nodeList.erase n := h.nodesOnce.not_mem_erase
  unfold deleteWholeNode
  apply ((h.withList (s.nodeList.erase n)).leave hn hfew (ho.withList _) true).bind
  rintro s₁ ⟨h₁, hlist₁, hcells₁, hplan₁, kept, hkept, ho₁, -⟩
  apply (h₁.free ho₁ hnot).mono
  rintro s₂ ⟨h₂, hlist₂, hcells₂, hplan₂⟩
  have hlist : s₂.nodeList = s.nodeList.erase n := hlist₂.trans hlist₁
  refine ⟨hlist.symm ▸ h₂, hlist, fun m hm => (hcells₂ m hm).trans (hcells₁ m hm), ?_⟩
  intro m node' hm ho' c hc
  have hc' := ho'.disjoint ho hm hc
  exact (hplan₂ c fun hk => hc' (hkept.subset hk)).trans (hplan₁ c hc')

end RoutingTable
