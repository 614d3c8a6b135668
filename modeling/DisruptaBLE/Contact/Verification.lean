import DisruptaBLE.Contact.ContactLists

/-!
# The verification of a node

`node_prepare_and_verify` (`components/ud3tn/node.c`): the contacts of a node are ordered by their
begin, and no two of them may overlap.

`contacts_overlap` asks whether the first contact begins or ends within the second one.  A contact
that lasts longer than another one at both ends does neither, and both are accepted
(`verification_iff`).
-/

namespace RoutingTable

open PtrHeap
open EpidemicRouter (CStr)

/-! ## Intervals -/

/-- The contacts have no time in common. -/
def Apart (a b : Contact) : Prop := a.toTime < b.fromTime ∨ b.toTime < a.fromTime

/-- The second contact begins later and ends earlier than the first one. -/
def Encloses (a b : Contact) : Prop := a.fromTime < b.fromTime ∧ b.toTime < a.toTime

/-- The contacts are apart, or one encloses the other. -/
def ApartOrNested (a b : Contact) : Prop := Apart a b ∨ Encloses a b ∨ Encloses b a

/-- The contact begins before it ends. -/
def Lasting (a : Contact) : Prop := a.fromTime < a.toTime

section

variable {a b : Contact}

instance : Decidable (Apart a b) := by
  unfold Apart
  infer_instance

instance : Decidable (Encloses a b) := by
  unfold Encloses
  infer_instance

instance : Decidable (ApartOrNested a b) := by
  unfold ApartOrNested
  infer_instance

instance : Decidable (Lasting a) := by
  unfold Lasting
  infer_instance

theorem Apart.symm (h : Apart a b) : Apart b a := Or.symm h

theorem ApartOrNested.symm (h : ApartOrNested a b) : ApartOrNested b a :=
  h.imp Apart.symm Or.symm

/-- A contact that encloses another one is not apart from it. -/
theorem not_apart_of_encloses (hb : Lasting b) (h : Encloses a b) : ¬Apart a b := by
  unfold Lasting at hb
  unfold Encloses at h
  unfold Apart
  simp only [UInt64.lt_iff_toNat_lt] at *
  omega

/-- **What the test for an overlap says** of contacts in the order of their begin. -/
theorem not_overlap_iff (ha : Lasting a) (hb : Lasting b) (hle : a.fromTime ≤ b.fromTime) :
    contactsOverlap a b = false ↔ ApartOrNested a b := by
  unfold Lasting at ha hb
  unfold contactsOverlap ApartOrNested Apart Encloses
  rw [← Bool.not_eq_true]
  simp only [Bool.or_eq_true, Bool.and_eq_true, decide_eq_true_eq, UInt64.le_iff_toNat_le,
    UInt64.lt_iff_toNat_lt] at *
  omega

end

/-! ## Lists of EIDs -/

theorem nodup_strings_stripEids (l : List Eid) : (strings (stripEids l)).Nodup := by
  induction l with
  | nil => exact List.nodup_nil
  | cons e l ih =>
      refine List.nodup_cons.2 ⟨fun hmem => ?_, ih.sublist (List.filter_sublist.map _)⟩
      obtain ⟨x, hx, hstr⟩ := List.mem_map.1 hmem
      have hne := (List.mem_filter.1 hx).2
      exact absurd hstr (by simpa using hne)

theorem mem_strings_stripEids (l : List Eid) (t : CStr) :
    t ∈ strings (stripEids l) ↔ t ∈ strings l := by
  induction l with
  | nil => exact Iff.rfl
  | cons e l ih =>
      show t ∈ e.str :: strings ((stripEids l).filter _) ↔ t ∈ e.str :: strings l
      rw [List.mem_cons, List.mem_cons, ← ih]
      by_cases ht : t = e.str
      · simp [ht]
      · simp only [ht, false_or, strings, List.mem_map, List.mem_filter]
        constructor
        · rintro ⟨x, ⟨hx, -⟩, rfl⟩
          exact ⟨x, hx, rfl⟩
        · rintro ⟨x, hx, rfl⟩
          exact ⟨x, ⟨hx, by simpa using ht⟩, rfl⟩

/-- A list of EIDs after the preparation: the same EIDs, each once. -/
structure Stripped (l l' : List Eid) : Prop where
  once : (strings l').Nodup
  same : ∀ t, t ∈ strings l' ↔ t ∈ strings l

theorem stripped_stripAndSort (l : List Eid) : Stripped l (endpointListStripAndSort l) := by
  have hperm : (endpointListStripAndSort l).Perm (stripEids l) := List.perm_insertionSort _ _
  refine ⟨(hperm.map _).nodup_iff.2 (nodup_strings_stripEids l), fun t => ?_⟩
  exact (hperm.map _).mem_iff.trans (mem_strings_stripEids l t)

/-! ## The contacts of the node -/

/-- A contact during the preparation: its list of EIDs may have been stripped. -/
structure Tidied (d d' : Contact) : Prop where
  fromTime : d'.fromTime = d.fromTime
  toTime : d'.toTime = d.toTime
  same : ∀ t, t ∈ strings d'.contactEndpoints ↔ t ∈ strings d.contactEndpoints
  once : (strings d.contactEndpoints).Nodup → (strings d'.contactEndpoints).Nodup

theorem Tidied.refl (d : Contact) : Tidied d d := ⟨rfl, rfl, fun _ => Iff.rfl, id⟩

theorem Tidied.trans {d d₁ d₂ : Contact} (h₁ : Tidied d d₁) (h₂ : Tidied d₁ d₂) : Tidied d d₂ :=
  ⟨h₂.fromTime.trans h₁.fromTime, h₂.toTime.trans h₁.toTime,
    fun t => (h₂.same t).trans (h₁.same t), fun h => h₂.once (h₁.once h)⟩

/-- The heap during the preparation. -/
def TidiedHeap (s s' : Table) : Prop :=
  ∀ x d, s.contacts.cells x = some d → ∃ d', s'.contacts.cells x = some d' ∧ Tidied d d'

theorem loadAll_eq_ok {s : Table} {l : List Addr} {ds : List Contact} :
    loadAll s l = .ok ds ↔ List.Forall₂ (fun x d => s.contacts.cells x = some d) l ds := by
  induction l generalizing ds with
  | nil =>
      rw [List.forall₂_nil_left_iff]
      exact ⟨fun h => (Except.ok.inj h).symm, fun h => by rw [h]; rfl⟩
  | cons x l ih =>
      unfold loadAll
      rw [bind_eq_ok]
      constructor
      · rintro ⟨d, hd, h⟩
        obtain ⟨ds', hds', h⟩ := bind_eq_ok.1 h
        cases h
        exact List.Forall₂.cons (Heap.load_eq_ok.1 hd) (ih.1 hds')
      · rintro (_ | ⟨hd, hds⟩)
        exact ⟨_, Heap.load_eq_ok.2 hd, bind_eq_ok.2 ⟨_, ih.2 hds, rfl⟩⟩

/-- The contacts of a list, found again after a change of EIDs. -/
theorem TidiedHeap.load {s s' : Table} (h : TidiedHeap s s') {l : List Addr} {ds : List Contact}
    (hds : List.Forall₂ (fun x d => s.contacts.cells x = some d) l ds) :
    ∃ ds', List.Forall₂ (fun x d => s'.contacts.cells x = some d) l ds' ∧
      List.Forall₂ Tidied ds ds' := by
  induction hds with
  | nil => exact ⟨[], .nil, .nil⟩
  | cons hd _ ih =>
      obtain ⟨d', hd', htidied⟩ := h _ _ hd
      obtain ⟨ds', hds', hall⟩ := ih
      exact ⟨d' :: ds', .cons hd' hds', .cons htidied hall⟩

/-- One contact of the node is tidied. -/
theorem tidied_set {s : Table} {c : Addr} {d : Contact} (hd : s.contacts.cells c = some d) :
    TidiedHeap s { s with
      contacts := s.contacts.set c
        { d with contactEndpoints := endpointListStripAndSort d.contactEndpoints } } := by
  have hstripped := stripped_stripAndSort d.contactEndpoints
  intro x e he
  by_cases hx : x = c
  · subst hx
    obtain rfl := Option.some.inj (hd.symm.trans he)
    exact ⟨_, Heap.cells_set_self _ _ _, rfl, rfl, hstripped.same, fun _ => hstripped.once⟩
  · exact ⟨e, (Heap.cells_set_ne _ hx _).trans he, .refl e⟩

theorem TidiedHeap.trans {s s₁ s₂ : Table} (h₁ : TidiedHeap s s₁) (h₂ : TidiedHeap s₁ s₂) :
    TidiedHeap s s₂ := by
  intro x d hd
  obtain ⟨d₁, hd₁, ht₁⟩ := h₁ x d hd
  obtain ⟨d₂, hd₂, ht₂⟩ := h₂ x d₁ hd₁
  exact ⟨d₂, hd₂, ht₁.trans ht₂⟩

/-- The test depends on the times only. -/
theorem contactsOverlap_of_tidied {a a' b b' : Contact} (ha : Tidied a a') (hb : Tidied b b') :
    contactsOverlap a' b' = contactsOverlap a b := by
  unfold contactsOverlap
  rw [ha.fromTime, ha.toTime, hb.fromTime, hb.toTime]

theorem any_tidied {a a' : Contact} (ha : Tidied a a') {ds ds' : List Contact}
    (h : List.Forall₂ Tidied ds ds') :
    ds'.any (contactsOverlap a') = ds.any (contactsOverlap a) := by
  induction h with
  | nil => rfl
  | cons hb _ ih => rw [List.any_cons, List.any_cons, contactsOverlap_of_tidied ha hb, ih]

/-- No two of the contacts overlap by the test. -/
abbrev NoOverlap (ds : List Contact) : Prop := ds.Pairwise fun a b => contactsOverlap a b = false

theorem noOverlap_cons (d : Contact) (ds : List Contact) :
    NoOverlap (d :: ds) ↔ ds.any (contactsOverlap d) = false ∧ NoOverlap ds := by
  rw [NoOverlap, List.pairwise_cons, List.any_eq_false]
  simp only [Bool.not_eq_true]

/-- What depends on the times only stays true of the contacts of a list. -/
theorem pairwise_tidied {P : Contact → Contact → Prop}
    (hP : ∀ {a a' b b'}, Tidied a a' → Tidied b b' → (P a' b' ↔ P a b)) {ds ds' : List Contact}
    (h : List.Forall₂ Tidied ds ds') : ds'.Pairwise P ↔ ds.Pairwise P := by
  induction h with
  | nil => exact Iff.rfl
  | @cons a a' ds ds' ha hrest ih =>
      have hhead : (∀ b' ∈ ds', P a' b') ↔ ∀ b ∈ ds, P a b := by
        clear ih
        induction hrest with
        | nil => exact iff_of_true (List.forall_mem_nil _) (List.forall_mem_nil _)
        | cons hb _ ih => rw [List.forall_mem_cons, List.forall_mem_cons, hP ha hb, ih]
      rw [List.pairwise_cons, List.pairwise_cons, hhead, ih]

theorem noOverlap_tidied {ds ds' : List Contact} (h : List.Forall₂ Tidied ds ds') :
    NoOverlap ds' ↔ NoOverlap ds :=
  pairwise_tidied (fun ha hb => by rw [contactsOverlap_of_tidied ha hb]) h

/-- **The loop over the contacts** succeeds when no two of them overlap by the test, and leaves
each EID once in their lists then. -/
theorem verifyContacts_eq {s : Table} {cs : List Addr} {ds : List Contact}
    (hds : List.Forall₂ (fun x d => s.contacts.cells x = some d) cs ds) :
    ∃ s', verifyContacts s cs = .ok (decide (NoOverlap ds), s') ∧
      TidiedHeap s s' ∧ s'.nodes = s.nodes ∧
      (NoOverlap ds → ∀ x ∈ cs, ∀ d, s'.contacts.cells x = some d →
        (strings d.contactEndpoints).Nodup) := by
  induction cs generalizing s ds with
  | nil =>
      cases hds
      exact ⟨s, by simp [verifyContacts], fun x d hd => ⟨d, hd, .refl d⟩, rfl, by simp⟩
  | cons c cs ih =>
      cases hds with
      | @cons _ d _ ds hd hds =>
      have hset := tidied_set hd
      obtain ⟨ds₁, hds₁, htidied⟩ := hset.load hds
      obtain ⟨d', hd₁, hself⟩ := hset c d hd
      have honce : (strings d'.contactEndpoints).Nodup := by
        obtain rfl := Option.some.inj ((Heap.cells_set_self _ _ _).symm.trans hd₁)
        exact (stripped_stripAndSort d.contactEndpoints).once
      generalize hs₁ : ({ s with
        contacts := s.contacts.set c
          { d with contactEndpoints := endpointListStripAndSort d.contactEndpoints } } : Table) =
            s₁ at hset hds₁ hd₁
      have hstep : verifyContacts s (c :: cs) =
          if ds.any (contactsOverlap d) then .ok (false, s₁) else verifyContacts s₁ cs := by
        rw [verifyContacts, Heap.modify_cell hd, ok_bind, hs₁]
        dsimp only
        rw [Heap.load_cell hd₁, ok_bind, loadAll_eq_ok.2 hds₁, ok_bind, any_tidied hself htidied]
        rfl
      have hnodes₁ : s₁.nodes = s.nodes := by rw [← hs₁]
      rw [hstep]
      by_cases hover : ds.any (contactsOverlap d) = true
      · have hno : ¬NoOverlap (d :: ds) := fun h => by
          rw [((noOverlap_cons d ds).1 h).1] at hover
          cases hover
        refine ⟨s₁, ?_, hset, hnodes₁, fun h => absurd h hno⟩
        rw [if_pos hover, decide_eq_false hno]
      · obtain ⟨s', hrun, htidy, hnodes, hrest⟩ := ih hds₁
        have hiff : NoOverlap (d :: ds) ↔ NoOverlap ds₁ := by
          rw [noOverlap_cons, noOverlap_tidied htidied]
          exact and_iff_right (Bool.not_eq_true _ ▸ hover)
        refine ⟨s', ?_, hset.trans htidy, hnodes.trans hnodes₁, fun hall x hx e he => ?_⟩
        · rw [if_neg hover, hrun, decide_eq_decide.2 hiff]
        · rcases List.mem_cons.1 hx with rfl | hx
          · obtain ⟨e', he', ht⟩ := htidy _ _ hd₁
            rw [← Option.some.inj (he'.symm.trans he)]
            exact ht.once honce
          · exact hrest (hiff.1 hall) x hx e he

/-- The sorted list of contacts. -/
theorem sortContacts_eq {s : Table} {l : List Addr} {ds : List Contact}
    (hds : List.Forall₂ (fun x d => s.contacts.cells x = some d) l ds) :
    ∃ l' ds', sortContacts s l = .ok l' ∧ l'.Perm l ∧ ds'.Perm ds ∧
      List.Forall₂ (fun x d => s.contacts.cells x = some d) l' ds' ∧
      ds'.Pairwise fun a b => a.fromTime ≤ b.fromTime := by
  have hlen := hds.length_eq
  have hcells : ∀ p ∈ l.zip ds, s.contacts.cells p.1 = some p.2 := fun p hp => by
    clear hlen
    induction hds with
    | nil => cases hp
    | cons hd _ ih =>
        rcases List.mem_cons.1 hp with rfl | hp
        · exact hd
        · exact ih hp
  let r : Addr × Contact → Addr × Contact → Prop := fun x y => x.2.fromTime ≤ y.2.fromTime
  have hsort := List.perm_insertionSort r (l.zip ds)
  refine ⟨((l.zip ds).insertionSort r).map Prod.fst, ((l.zip ds).insertionSort r).map Prod.snd,
    ?_, ?_, ?_, ?_, ?_⟩
  · rw [sortContacts, loadAll_eq_ok.2 hds]
    rfl
  · exact (hsort.map Prod.fst).trans (.of_eq (List.map_fst_zip (by omega)))
  · exact (hsort.map Prod.snd).trans (.of_eq (List.map_snd_zip (by omega)))
  · rw [List.forall₂_map_left_iff, List.forall₂_map_right_iff, List.forall₂_same]
    exact fun p hp => hcells p (hsort.subset hp)
  · rw [List.pairwise_map]
    have htotal : Std.Total r := ⟨fun x y => UInt64.le_total x.2.fromTime y.2.fromTime⟩
    have htrans : IsTrans _ r := ⟨fun x y z hxy hyz => UInt64.le_trans hxy hyz⟩
    exact List.pairwise_insertionSort r _

/-! ## The verification -/

/-- What a successful verification leaves: the contacts in the order of their begin and apart from
each other, and all lists with the same EIDs, each once. -/
structure Verified (s : Table) (n : Addr) (node : Node) (s' : Table) (node' : Node)
    (ds' : List Contact) : Prop where
  self : s'.nodes.cells n = some node'
  contacts : node'.contacts.Perm node.contacts
  loaded : loadAll s' node'.contacts = .ok ds'
  sorted : ds'.Pairwise fun a b => a.fromTime ≤ b.fromTime
  apart : ds'.Pairwise Apart
  endpoints : Stripped node.endpoints node'.endpoints
  contactEndpoints : ∀ x ∈ node.contacts, ∀ d, s.contacts.cells x = some d →
    ∃ d', s'.contacts.cells x = some d' ∧ d'.fromTime = d.fromTime ∧ d'.toTime = d.toTime ∧
      Stripped d.contactEndpoints d'.contactEndpoints

/-- What the result of the verification says of the node and its contacts. -/
def VerifiedRightly (s : Table) (n : Addr) (node : Node) (ds : List Contact) : Prop :=
  ∃ r, nodePrepareAndVerify s n = .ok r ∧
    (r.1 = true → ∃ node' ds', Verified s n node r.2 node' ds') ∧
    (r.1 = false → node.eid ≠ none → ¬ds.Pairwise Apart)

section

variable {s : Table} {n : Addr} {node : Node} {ds : List Contact}

/-- In the order of their begin, contacts pass the test when all are apart or nested. -/
theorem noOverlap_iff (hvalid : ∀ d ∈ ds, Lasting d)
    (hsorted : ds.Pairwise fun a b => a.fromTime ≤ b.fromTime) :
    NoOverlap ds ↔ ds.Pairwise ApartOrNested := by
  constructor
  · intro h
    exact (hsorted.and h).imp_of_mem fun ha hb hab =>
      (not_overlap_iff (hvalid _ ha) (hvalid _ hb) hab.1).1 hab.2
  · intro h
    exact (hsorted.and h).imp_of_mem fun ha hb hab =>
      (not_overlap_iff (hvalid _ ha) (hvalid _ hb) hab.1).2 hab.2

/-- Contacts that are apart or nested are apart when none encloses another one. -/
theorem apart_iff (hvalid : ∀ d ∈ ds, Lasting d) (h : ds.Pairwise ApartOrNested) :
    ds.Pairwise Apart ↔ ds.Pairwise fun a b => ¬Encloses a b ∧ ¬Encloses b a := by
  constructor
  · intro hapart
    exact hapart.imp_of_mem fun ha hb hab =>
      ⟨fun he => not_apart_of_encloses (hvalid _ hb) he hab,
        fun he => not_apart_of_encloses (hvalid _ ha) he hab.symm⟩
  · intro hno
    exact (h.and hno).imp fun hab => hab.1.resolve_right (not_or.2 hab.2)

/-- What the verification returns for a node with an EID, and what it leaves. -/
theorem prepareAndVerify_eq (hn : s.nodes.cells n = some node)
    (hds : loadAll s node.contacts = .ok ds) (heid : node.eid ≠ none) :
    ∃ s' node' ds₁ ds₂, nodePrepareAndVerify s n = .ok (decide (NoOverlap ds₁), s') ∧
      s'.nodes.cells n = some node' ∧ node'.contacts.Perm node.contacts ∧ ds₁.Perm ds ∧
      (ds₁.Pairwise fun a b => a.fromTime ≤ b.fromTime) ∧
      loadAll s' node'.contacts = .ok ds₂ ∧ List.Forall₂ Tidied ds₁ ds₂ ∧
      Stripped node.endpoints node'.endpoints ∧ TidiedHeap s s' ∧
      (NoOverlap ds₁ → ∀ x ∈ node'.contacts, ∀ d, s'.contacts.cells x = some d →
        (strings d.contactEndpoints).Nodup) := by
  obtain ⟨l', ds₁, hsort, hperm, hperm₁, hloaded, hsorted⟩ := sortContacts_eq (loadAll_eq_ok.1 hds)
  generalize hnode' : ({ node with
    contacts := l', endpoints := endpointListStripAndSort node.endpoints } : Node) = node'
  have hcontacts' : node'.contacts = l' := by rw [← hnode']
  obtain ⟨s', hrun, htidy, hnodes, honce⟩ :=
    @verifyContacts_eq { s with nodes := s.nodes.set n node' } l' ds₁ hloaded
  obtain ⟨ds₂, hds₂, htidied⟩ := htidy.load hloaded
  refine ⟨s', node', ds₁, ds₂, ?_, ?_, ?_, hperm₁, hsorted, ?_, htidied, ?_, htidy, ?_⟩
  · rw [nodePrepareAndVerify, Heap.load_cell hn, ok_bind, if_neg heid, hsort, ok_bind]
    dsimp only
    rw [hnode', hrun]
  · rw [hnodes]
    exact Heap.cells_set_self _ _ _
  · rw [hcontacts']
    exact hperm
  · rw [hcontacts']
    exact loadAll_eq_ok.2 hds₂
  · rw [← hnode']
    exact stripped_stripAndSort node.endpoints
  · rw [hcontacts']
    exact honce

/-- The times of the contacts, before the verification and after it. -/
theorem apart_tidied {ds₁ ds₂ : List Contact} (hperm : ds₁.Perm ds)
    (htidied : List.Forall₂ Tidied ds₁ ds₂) : ds₂.Pairwise Apart ↔ ds.Pairwise Apart := by
  refine (pairwise_tidied (fun ha hb => ?_) htidied).trans (hperm.pairwise_iff Apart.symm)
  unfold Apart
  rw [ha.fromTime, ha.toTime, hb.fromTime, hb.toTime]

/-- A node whose contacts pass the test is verified rightly only if they are apart. -/
theorem VerifiedRightly.apart (h : VerifiedRightly s n node ds) (hn : s.nodes.cells n = some node)
    (hds : loadAll s node.contacts = .ok ds) (heid : node.eid ≠ none)
    (hvalid : ∀ d ∈ ds, Lasting d) (hnested : ds.Pairwise ApartOrNested) : ds.Pairwise Apart := by
  obtain ⟨s', node', ds₁, ds₂, hrun, hself, -, hperm, hsorted, hloaded, htidied, -⟩ :=
    prepareAndVerify_eq hn hds heid
  obtain ⟨r, hr, hsuccess, -⟩ := h
  obtain rfl := Except.ok.inj (hrun.symm.trans hr)
  have hvalid₁ : ∀ d ∈ ds₁, Lasting d := fun d hd => hvalid d (hperm.subset hd)
  have hpass := (noOverlap_iff hvalid₁ hsorted).2
    ((hperm.pairwise_iff ApartOrNested.symm).2 hnested)
  obtain ⟨node'', ds'', hv⟩ := hsuccess (decide_eq_true hpass)
  obtain rfl := Option.some.inj (hself.symm.trans hv.self)
  obtain rfl := Except.ok.inj (hloaded.symm.trans hv.loaded)
  exact (apart_tidied hperm htidied).1 hv.apart

/-- **The verification of a node** says what it should if and only if the node has no EID, no
contact encloses another one, or some contacts overlap in another way. -/
theorem verification_iff (hn : s.nodes.cells n = some node)
    (hds : loadAll s node.contacts = .ok ds) (hvalid : ∀ d ∈ ds, Lasting d) :
    VerifiedRightly s n node ds ↔
      node.eid = none ∨ (ds.Pairwise fun a b => ¬Encloses a b ∧ ¬Encloses b a) ∨
        ¬ds.Pairwise ApartOrNested := by
  by_cases heid : node.eid = none
  · refine iff_of_true ⟨(false, s), ?_, fun h => (by cases h), fun _ h => absurd heid h⟩
      (Or.inl heid)
    rw [nodePrepareAndVerify, Heap.load_cell hn, ok_bind, if_pos heid]
    rfl
  rw [or_iff_right heid]
  obtain ⟨s', node', ds₁, ds₂, hrun, hself, hcontacts, hperm, hsorted, hloaded, htidied, hstripped,
    htidy, honce⟩ := prepareAndVerify_eq hn hds heid
  have hvalid₁ : ∀ d ∈ ds₁, Lasting d := fun d hd => hvalid d (hperm.subset hd)
  have hresult : NoOverlap ds₁ ↔ ds.Pairwise ApartOrNested :=
    (noOverlap_iff hvalid₁ hsorted).trans (hperm.pairwise_iff ApartOrNested.symm)
  by_cases hnested : ds.Pairwise ApartOrNested
  · rw [or_iff_left (not_not.2 hnested), ← apart_iff hvalid hnested]
    refine ⟨fun h => h.apart hn hds heid hvalid hnested, fun h => ?_⟩
    have hsorted₂ : ds₂.Pairwise fun a b => a.fromTime ≤ b.fromTime :=
      (pairwise_tidied (fun ha hb => by rw [ha.fromTime, hb.fromTime]) htidied).2 hsorted
    refine ⟨_, hrun, fun _ => ⟨node', ds₂, hself, hcontacts, hloaded, hsorted₂,
      (apart_tidied hperm htidied).2 h, hstripped, fun x hx d hd => ?_⟩, fun hfalse => ?_⟩
    · obtain ⟨d', hd', ht⟩ := htidy x d hd
      exact ⟨d', hd', ht.fromTime, ht.toTime,
        honce (hresult.2 hnested) x (hcontacts.symm.subset hx) d' hd', ht.same⟩
    · exact absurd (hresult.2 hnested) (of_decide_eq_false hfalse)
  · refine iff_of_true ⟨_, hrun, fun htrue => ?_, fun _ _ h => ?_⟩ (Or.inr hnested)
    · exact absurd (hresult.1 (of_decide_eq_true htrue)) hnested
    · exact hnested (h.imp Or.inl)

end

/-- A contact from one time to another one. -/
def timed (fromTime toTime : UInt64) : Contact := { contactCreate none with fromTime, toTime }

/-- A node with two contacts. -/
def twoContactNode : Node := ⟨some "dtn://a".toList, none, [], [0, 1]⟩

/-- The node at the address 0, with its contacts. -/
def twoContacts (a b : Contact) : Table where
  contacts := (Heap.empty.set 0 a).set 1 b
  nodes := Heap.empty.set 0 twoContactNode
  nodeList := []
  contactList := []
  eidTable := EpidemicRouter.Htab.init 1
  informed := []
  requests := 0

/-- Two contacts one after the other. -/
theorem verification_iff_apart :
    VerifiedRightly (twoContacts (timed 0 10) (timed 20 30)) 0 twoContactNode
      [timed 0 10, timed 20 30] :=
  (verification_iff rfl rfl (by decide)).2 (Or.inr (Or.inl (by decide)))

/-- A contact within another one is accepted. -/
theorem nested_contacts_accepted :
    (nodePrepareAndVerify (twoContacts (timed 0 30) (timed 10 20)) 0).map Prod.fst = .ok true ∧
      ¬VerifiedRightly (twoContacts (timed 0 30) (timed 10 20)) 0 twoContactNode
        [timed 0 30, timed 10 20] := by
  refine ⟨rfl, fun h => ?_⟩
  have hapart := h.apart rfl rfl (by decide) (by decide) (by decide)
  exact absurd hapart (by decide)

end RoutingTable
