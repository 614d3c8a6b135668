import DisruptaBLE.Contact.TableOperations

/-!
# Runs of the routing table

Commands, withdrawn nodes and passed contacts, in any order, with anything between them that the
parser, the router and the contact manager do outside the tables.

A lookup finds exactly the listed contacts over which an EID is reachable, in every run in which
no command adds an EID for a contact of a known node that is already listed, and no EID has
`2 ^ 16` contacts (`lookup_exact`).  A command that does is lost: `endpoint_forgotten`.
-/

namespace RoutingTable

open PtrHeap Outcome
open EpidemicRouter (CStr Htab)

/-! ## Definitions -/

/-- `NODE_HTAB_SLOT_COUNT`. -/
def nodeHtabSlotCount : Nat := 128

/-- `routing_table_init`. -/
def routingTableInit : Table where
  contacts := .empty
  nodes := .empty
  nodeList := []
  contactList := []
  eidTable := .init nodeHtabSlotCount
  informed := []
  requests := 0

/-- An operation on the table: a command with its node, the EID of a withdrawn node, or a contact
that is over. -/
inductive Op where
  | command (type : CommandType) (data : Addr)
  | deleteNodeByEid (eid : CStr)
  | deleteContact (c : Addr)

/-- The table after an operation. -/
def step (mem : Nat → Bool) (hash : CStr → UInt32) (s : Table) : Op → Except Fault Table
  | .command type data => Prod.snd <$> processRouterCommand mem hash s type data
  | .deleteNodeByEid eid => Prod.snd <$> routingTableDeleteNodeByEid hash s eid
  | .deleteContact c => routingTableDeleteContact hash s c

/-- The node of a command lies outside the table, with its contacts. -/
def Arrives (s : Table) : Op → Prop
  | .command _ data => data ∉ s.nodeList ∧ ∃ node, Owns s data node
  | _ => True

/-- What happens between the operations: nodes for commands are built, contacts get bundles,
become active and are released, but the tables and the contacts of their nodes are not planned
anew. -/
structure Elsewhere (s s' : Table) : Prop where
  nodeList : s'.nodeList = s.nodeList
  contactList : s'.contactList = s.contactList
  eidTable : s'.eidTable = s.eidTable
  cells : ∀ n ∈ s.nodeList, s'.nodes.cells n = s.nodes.cells n
  plan : ∀ n ∈ s.nodeList, ∀ node, s.nodes.cells n = some node → ∀ c ∈ node.contacts,
    s'.plan c = s.plan c

/-- The contacts of each node of the table are pairwise disjoint in time. -/
def DisjointContacts (s : Table) : Prop := ∀ n ∈ s.nodeList, DisjointAt s n

/-- The tables that are reached by operations with `cond`. -/
inductive Run (mem : Nat → Bool) (hash : CStr → UInt32) (cond : Table → Op → Prop) : Table → Prop
  | init : Run mem hash cond routingTableInit
  | elsewhere {s s' : Table} (h : Run mem hash cond s) (hs : Elsewhere s s') :
      Run mem hash cond s'
  | step {s s' : Table} {op : Op} (h : Run mem hash cond s) (ha : Arrives s op) (hc : cond s op)
      (hs : step mem hash s op = .ok s') (hd : DisjointContacts s') : Run mem hash cond s'

/-- No EID has `2 ^ 16` contacts, and if the operation adds to a known node, it adds no EID for
the contacts that are listed. -/
def Harmless (s : Table) (op : Op) : Prop :=
  (∀ e, reachCount s e < 2 ^ 16) ∧
  match op with
  | .command .add data => ∀ node, s.nodes.cells data = some node → ∀ n ∈ s.nodeList, ∀ cur,
      s.nodes.cells n = some cur → cur.eid = node.eid → AddsNothing s cur node
  | _ => True

/-- A lookup of `e` yields exactly the listed contacts over which `e` is reachable, each once, in
the order of their to-times and with their number, or nothing if there are none. -/
def LookupExact (hash : CStr → UInt32) (s : Table) (e : CStr) : Prop :=
  match routingTableLookupEid hash s e with
  | .error _ => False
  | .ok none => ∀ c ∈ s.contactList, e ∉ eidsOf s c
  | .ok (some entry) =>
      entry.contacts ≠ [] ∧ entry.contacts.Nodup ∧
      (∀ c, c ∈ entry.contacts ↔ c ∈ s.contactList ∧ e ∈ eidsOf s c) ∧
      entry.contacts.Pairwise (fun a b => s.toTimes a ≤ s.toTimes b) ∧
      entry.refCount.toNat = entry.contacts.length

variable {mem : Nat → Bool} {hash : CStr → UInt32} {s s' : Table} {N : List Addr}
  {n data : Addr} {node cur node' : Node}

/-! ## Steps -/

theorem Inv.reachCount_eq (h : Inv hash N s) (hlist : s'.contactList = s.contactList)
    (hs : SameNodes N s s') (e : CStr) : reachCount s' e = reachCount s e := by
  unfold reachCount
  rw [hlist]
  congr 1
  apply List.filter_congr
  intro c hc
  rw [h.eidsOf_of_listed hs hc]

/-- A command still adds nothing when it is prepared. -/
theorem AddsNothing.prepared (h : Inv hash N s) (hs : SameNodes N s s') (ho : Owns s data node)
    (hp : Prepared s data node node' s') (hadds : AddsNothing s cur node) :
    AddsNothing s' cur node' := by
  intro c hc hlisted p hplan hlt e he
  rw [hp.contactList] at hlisted
  rw [h.plan_of_listed hs hlisted] at hplan
  rw [h.eidsOf_of_listed hs hlisted]
  apply hadds c hc hlisted p hplan hlt e
  rcases he with he | ⟨y, hy, q', hq', hfrom, hto, he⟩
  · exact .inl (hp.endpoints he)
  · have hy' := hp.contacts.subset hy
    obtain ⟨q, hq, -⟩ := ho.contacts y hy'
    obtain ⟨q₁, hq₁, htrim⟩ := hp.trimmed y hy' q hq
    obtain rfl := Option.some.inj (hq'.symm.trans hq₁)
    exact .inr ⟨y, hy', q, hq, htrim.fromTime.symm.trans hfrom, htrim.toTime.symm.trans hto,
      htrim.subset he⟩

/-- What a command leaves has the invariant, if the contacts of each node are disjoint. -/
theorem Inv.command (hmem : ∀ k, mem k = true) (h : Inv hash s.nodeList s) {type : CommandType}
    (ha : Arrives s (.command type data)) (hc : Harmless s (.command type data)) :
    Returns (processRouterCommand mem hash s type data) fun r =>
      DisjointContacts r.2 → Inv hash r.2.nodeList r.2 := by
  obtain ⟨hnew, node, ho⟩ := ha
  obtain ⟨hfew, hadd⟩ := hc
  unfold processRouterCommand
  apply (h.prepare ho hnew).bind
  rintro ⟨verified, s₁⟩ ⟨node', h₁, hsame, ho₁, hp⟩
  have hlist₁ : s₁.nodeList = s.nodeList := hp.nodeList
  have hinv : Inv hash s₁.nodeList s₁ := hlist₁.symm ▸ h₁
  have hnew₁ : data ∉ s₁.nodeList := hlist₁.symm ▸ hnew
  have hfew₁ : ∀ e, reachCount s₁ e < 2 ^ 16 := fun e => by
    rw [h.reachCount_eq hp.contactList hsame]
    exact hfew e
  have hdrop : Returns (freeNode s₁ data >>= fun s => pure (false, s)) fun r =>
      DisjointContacts r.2 → Inv hash r.2.nodeList r.2 := by
    apply (hinv.free ho₁ hnew₁).bind
    rintro s' ⟨h', hlist, -⟩ _
    rw [hlist]
    exact h'
  cases verified with
  | false => exact hdrop
  | true =>
      cases type with
      | undefined => exact hdrop
      | query => exact hdrop
      | update => exact (hinv.replace hmem hfew₁ ho₁ hnew₁).mono fun _ h' _ => h'
      | delete => exact (hinv.delete hmem hfew₁ ho₁ hnew₁).mono fun _ h' _ => h'
      | add =>
          change Returns (routingTableAddNode mem hash s₁ data) _
          unfold routingTableAddNode
          rw [Heap.load_cell ho₁.cell, ok_bind]
          apply (getNodeEntryByEid_spec s₁ node'.eid).bind
          intro found hfound
          cases found with
          | none => exact (hinv.addNew hmem ho₁ hnew₁).mono fun _ h' _ => h'
          | some n =>
              obtain ⟨hn, cur, hcell, heid⟩ := hfound n rfl
              have hn' : n ∈ s.nodeList := hlist₁ ▸ hn
              obtain ⟨cur', hcur⟩ := h.nodes n hn'
              obtain rfl : cur = cur' := by
                rw [hsame.cells n hn', hcur.cell] at hcell
                exact (Option.some.inj hcell).symm
              have hadds : AddsNothing s cur node :=
                hadd node ho.cell n hn' cur hcur.cell (heid.trans hp.eid)
              apply (hinv.merge hmem hn (hsame.owns hn' hcur) ho₁ hnew₁
                (hadds.prepared h hsame ho hp)).bind
              rintro s₂ ⟨hlist₂, h₂⟩ hdisj
              apply h₂
              exact hdisj n (hlist₂.symm ▸ hn)

theorem returns_map {α β : Type} {x : Except Fault α} {f : α → β} {Q : β → Prop}
    (h : Returns x fun a => Q (f a)) : Returns (f <$> x) Q := by
  cases x with
  | error e => trivial
  | ok a => exact h

/-- **One operation keeps the invariant.** -/
theorem step_inv (hmem : ∀ k, mem k = true) (h : Inv hash s.nodeList s) {op : Op}
    (ha : Arrives s op) (hc : Harmless s op) (hs : step mem hash s op = .ok s')
    (hd : DisjointContacts s') : Inv hash s'.nodeList s' := by
  cases op with
  | command type data =>
      have hmap := returns_map (Q := fun s' => DisjointContacts s' → Inv hash s'.nodeList s')
        (h.command hmem ha hc)
      exact hmap.of_ok hs hd
  | deleteNodeByEid eid =>
      have hdelete : Returns (routingTableDeleteNodeByEid hash s eid) fun r =>
          Inv hash r.2.nodeList r.2 := by
        unfold routingTableDeleteNodeByEid
        apply (getNodeEntryByEid_spec s (some eid)).bind
        intro found hfound
        cases found with
        | none => exact h
        | some n =>
            apply (h.deleteWhole (hfound n rfl).1 hc.1).bind
            exact fun s₁ h₁ => h₁.1
      exact (returns_map (Q := fun s' => Inv hash s'.nodeList s') hdelete).of_ok hs
  | deleteContact c => exact (h.deleteContact hc.1).of_ok hs

/-- The invariant holds in every run. -/
theorem Run.inv (hmem : ∀ k, mem k = true) (h : Run mem hash Harmless s) :
    Inv hash s.nodeList s := by
  induction h with
  | init =>
      refine ⟨List.nodup_nil, by simp [routingTableInit], by simp [routingTableInit],
        ⟨List.nodup_nil, List.Pairwise.nil⟩, ⟨by decide, ?_, ?_⟩, fun e c => ?_⟩
      · intro e entry he
        simp [routingTableInit] at he
      · intro e entry he
        simp [routingTableInit] at he
      · simp [routingTableInit, associated]
  | elsewhere h hs ih =>
      rw [hs.nodeList]
      refine ih.congr hs.contactList hs.eidTable ⟨hs.cells, ?_⟩
      exact fun n hn node ho => hs.plan n hn node ho.cell
  | step h ha hc hs hd ih => exact step_inv hmem ih ha hc hs hd

/-! ## Lookups -/

/-- **The table of EIDs is exact** in every run without the harmful additions. -/
theorem lookup_exact (hmem : ∀ k, mem k = true) (hrun : Run mem hash Harmless s) (e : CStr)
    (hfew : reachCount s e < 2 ^ 16) : LookupExact hash s e := by
  have h := hrun.inv hmem
  have hget : routingTableLookupEid hash s e = .ok (s.eidTable.lookup hash e) := by
    simp [routingTableLookupEid, EpidemicRouter.htabGet, assertC, h.entries.slots]
  unfold LookupExact
  rw [hget]
  cases hentry : s.eidTable.lookup hash e with
  | none =>
      intro c hc he
      have hmem := (h.exact e c).mpr ⟨hc, he⟩
      simp [associated_of_none hentry] at hmem
  | some entry =>
      have hassoc := associated_of_lookup hentry
      have hlist := h.entries.lists hentry
      refine ⟨h.entries.nonempty hentry, hlist.once, fun c => ?_, hlist.sorted, ?_⟩
      · rw [← hassoc]
        exact h.exact e c
      · have hlen : entry.contacts.length < UInt16.size := by
          rw [← hassoc]
          exact lt_of_le_of_lt (h.associated_length_le e) hfew
        rw [hlist.counted, UInt16.toNat_ofNat_of_lt' hlen]

/-! ## An endpoint that is forgotten -/

/-- The parser has built a node with one contact. -/
def nodeBuilt : Table :=
  { routingTableInit with
    nodes := Heap.empty.set 0 ⟨some "dtn:a".toList, some "mtcp:a".toList, [], [0]⟩
    contacts := Heap.empty.set 0 { contactCreate (some 0) with fromTime := 1, toTime := 2 } }

/-- The state after an operation that returns. -/
def afterOp (s : Table) (op : Op) : Table :=
  (step (fun _ => true) (fun _ => 0) s op).toOption.getD s

/-- The node has been added. -/
def nodeAdded : Table := afterOp nodeBuilt (.command .add 0)

/-- The parser has built the same node with an endpoint, and without contacts. -/
def endpointBuilt : Table :=
  { nodeAdded with
    nodes := nodeAdded.nodes.set 1 ⟨some "dtn:a".toList, none, [⟨0, "dtn:e".toList⟩], []⟩ }

/-- The endpoint has been added. -/
def endpointAdded : Table := afterOp endpointBuilt (.command .add 1)

theorem afterOp_ok {s : Table} {op : Op}
    (h : (step (fun _ => true) (fun _ => 0) s op).isOk = true) :
    step (fun _ => true) (fun _ => 0) s op = .ok (afterOp s op) := by
  unfold afterOp
  cases hs : step (fun _ => true) (fun _ => 0) s op with
  | error f => simp [hs, Except.isOk, Except.toBool] at h
  | ok s' => rfl

theorem disjointAt_of_one {s : Table} {n c : Addr} {node : Node}
    (hcell : s.nodes.cells n = some node) (hone : node.contacts = [c]) : DisjointAt s n := by
  intro node' hcell' x hx y hy hne
  obtain rfl := Option.some.inj (hcell.symm.trans hcell')
  rw [hone, List.mem_singleton] at hx hy
  exact absurd (hx.trans hy.symm) hne

theorem elsewhere_nodeBuilt : Elsewhere routingTableInit nodeBuilt :=
  ⟨rfl, rfl, rfl, by simp [routingTableInit], by simp [routingTableInit]⟩

theorem arrives_nodeBuilt : Arrives nodeBuilt (.command .add 0) := by
  refine ⟨by simp [nodeBuilt, routingTableInit], _, rfl, by simp, fun c hc => ?_⟩
  obtain rfl := List.mem_singleton.mp hc
  exact ⟨_, rfl, rfl⟩

theorem disjoint_nodeAdded : DisjointContacts nodeAdded := by
  have hlist : nodeAdded.nodeList = [0] := by decide +kernel
  intro n hn
  rw [hlist, List.mem_singleton] at hn
  subst hn
  have hcell : (nodeAdded.nodes.cells 0).map (·.contacts) = some [0] := by decide +kernel
  obtain ⟨node, hnode, hone⟩ := Option.map_eq_some_iff.mp hcell
  exact disjointAt_of_one hnode hone

theorem run_nodeAdded {cond : Table → Op → Prop} (hc : cond nodeBuilt (.command .add 0)) :
    Run (fun _ => true) (fun _ => 0) cond nodeAdded :=
  .step (.elsewhere .init elsewhere_nodeBuilt) arrives_nodeBuilt hc
    (afterOp_ok (by decide +kernel)) disjoint_nodeAdded

theorem reachCount_nodeBuilt (e : CStr) : reachCount nodeBuilt e = 0 := rfl

/-- After the first command, the EID of the node leads to its contact. -/
theorem lookup_exact_nodeAdded :
    associated (fun _ => 0) nodeAdded.eidTable "dtn:a".toList = [0] ∧
      LookupExact (fun _ => 0) nodeAdded "dtn:a".toList := by
  have hharmless : Harmless nodeBuilt (.command .add 0) := by
    refine ⟨fun e => by simp [reachCount_nodeBuilt], fun node _ n hn => ?_⟩
    simp [nodeBuilt, routingTableInit] at hn
  refine ⟨by decide +kernel, ?_⟩
  exact lookup_exact (fun _ => rfl) (run_nodeAdded hharmless) _ (by decide +kernel)

theorem elsewhere_endpointBuilt : Elsewhere nodeAdded endpointBuilt := by
  have hlist : nodeAdded.nodeList = [0] := by decide +kernel
  refine ⟨rfl, rfl, rfl, fun n hn => ?_, fun _ _ _ _ _ _ => rfl⟩
  rw [hlist, List.mem_singleton] at hn
  subst hn
  rfl

/-- **An endpoint added to a known node is not found** for the contact that is listed. -/
theorem endpoint_forgotten : ∃ s, Run (fun _ => true) (fun _ => 0) (fun _ _ => True) s ∧
    (∀ e, reachCount s e < 2 ^ 16) ∧ ¬ LookupExact (fun _ => 0) s "dtn:e".toList := by
  have hstep : step (fun _ => true) (fun _ => 0) endpointBuilt (.command .add 1) =
      .ok endpointAdded := afterOp_ok (by decide +kernel)
  refine ⟨endpointAdded, ?_, fun e => ?_, ?_⟩
  · refine .step (.elsewhere (run_nodeAdded trivial) elsewhere_endpointBuilt) ?_ trivial hstep ?_
    · exact ⟨by decide +kernel, _, rfl, by simp, by simp⟩
    · have hlist : endpointAdded.nodeList = [0] := by decide +kernel
      intro n hn
      rw [hlist, List.mem_singleton] at hn
      subst hn
      have hcell : (endpointAdded.nodes.cells 0).map (·.contacts) = some [0] := by decide +kernel
      obtain ⟨node, hnode, hone⟩ := Option.map_eq_some_iff.mp hcell
      exact disjointAt_of_one hnode hone
  · have hlen : endpointAdded.contactList.length = 1 := by decide +kernel
    have hle : reachCount endpointAdded e ≤ 1 := hlen ▸ List.length_filter_le _ _
    exact lt_of_le_of_lt hle (by decide)
  · have hlookup : routingTableLookupEid (fun _ => 0) endpointAdded "dtn:e".toList = .ok none := by
      rfl
    unfold LookupExact
    rw [hlookup]
    intro hnone
    exact hnone 0 (by decide +kernel) (by decide +kernel)

end RoutingTable
