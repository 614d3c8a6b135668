import DisruptaBLE.Contact.RoutingTable

/-!
# The associations of the table of EIDs

What the operations on the entries of `eid_table` do, as a relation between EIDs and contacts:
adding a contact for an EID adds one pair (`addContactToNodeInHtab_spec`), removing it takes one
pair away (`removeContactFromNodeInHtab_spec`), and the loops do so for the EIDs of a list.

The lists of the entries stay without repetition and ordered by to-time, and an entry goes with
its last contact (`Entries`).  The reference count has 16 bits: it agrees with the length of the
list as long as this is less than `2 ^ 16`.
-/

namespace RoutingTable

open PtrHeap Outcome
open EpidemicRouter (CStr Htab htabGet htabAdd htabRemove)

/-! ## Plans -/

/-- What is planned of a contact on the heap. -/
def Table.plan (s : Table) (c : Addr) : Option Plan := (s.contacts.cells c).map Contact.toPlan

theorem plan_of_cell {s : Table} {c : Addr} {d : Contact} (h : s.contacts.cells c = some d) :
    s.plan c = some d.toPlan := by
  simp [Table.plan, h]

theorem plan_set {s s' : Table} {c : Addr} {d d' : Contact} (h : s.contacts.cells c = some d)
    (hs : s'.contacts = s.contacts.set c d') (hp : d'.toPlan = d.toPlan) : s'.plan = s.plan := by
  funext x
  by_cases hx : x = c
  · simp [Table.plan, hs, hx, h, hp]
  · simp [Table.plan, hs, hx]

/-- The time of a contact by which a list is ordered. -/
def timeIn (plan : Addr → Option Plan) (time : Plan → UInt64) (c : Addr) : UInt64 :=
  ((plan c).map time).getD 0

theorem timeIn_of_cell {s : Table} {c : Addr} {d : Contact} (time : Plan → UInt64)
    (h : s.contacts.cells c = some d) : timeIn s.plan time c = time d.toPlan := by
  simp [timeIn, plan_of_cell h]

/-! ## Ordered lists -/

/-- A contact is inserted where it belongs, unless it is in the list. -/
theorem insertOrdered_spec {s : Table} {time : Plan → UInt64} {c : Addr} {d : Contact}
    (hc : s.contacts.cells c = some d) {l : List Addr}
    (hl : l.Pairwise fun a b => timeIn s.plan time a ≤ timeIn s.plan time b) :
    Returns (insertOrdered s (fun e => time e.toPlan) c d l) fun r =>
      match r with
      | none => c ∈ l
      | some l' => c ∉ l ∧ l'.Perm (c :: l) ∧
          l'.Pairwise fun a b => timeIn s.plan time a ≤ timeIn s.plan time b := by
  induction l with
  | nil => simp [insertOrdered]
  | cons x l ih =>
      obtain ⟨hx, hl'⟩ := List.pairwise_cons.mp hl
      unfold insertOrdered
      split
      · rename_i hxc
        simp [hxc]
      · rename_i hxc
        apply (returns_load s.contacts x).bind
        intro e he
        have htime : timeIn s.plan time c = time d.toPlan := timeIn_of_cell time hc
        have htime' : timeIn s.plan time x = time e.toPlan := timeIn_of_cell time he
        split
        · rename_i hlt
          have hbefore : ∀ y ∈ x :: l, timeIn s.plan time c < timeIn s.plan time y := by
            intro y hy
            rw [← htime, ← htime'] at hlt
            rcases List.mem_cons.mp hy with rfl | hy
            · exact hlt
            · exact UInt64.lt_of_lt_of_le hlt (hx y hy)
          refine ⟨fun hmem => UInt64.lt_irrefl _ (hbefore c hmem), List.Perm.refl _, ?_⟩
          exact List.pairwise_cons.mpr ⟨fun y hy => UInt64.le_of_lt (hbefore y hy), hl⟩
        · rename_i hle
          apply (ih hl').bind
          intro r hr
          cases r with
          | none => exact List.mem_cons_of_mem x hr
          | some l' =>
              obtain ⟨hnot, hperm, hsorted⟩ := hr
              refine ⟨?_, (hperm.cons x).trans (List.Perm.swap c x l), ?_⟩
              · simp [hnot, Ne.symm hxc]
              · refine List.pairwise_cons.mpr ⟨fun y hy => ?_, hsorted⟩
                rcases List.mem_cons.mp (hperm.subset hy) with rfl | hy
                · rw [htime, htime']
                  exact UInt64.not_lt.mp hle
                · exact hx y hy

variable {mem : Nat → Bool}

/-- A contact is added to an ordered list, unless it is in it. -/
theorem addContactToOrdered_spec {s : Table} {c : Addr} {l : List Addr} (time : Plan → UInt64)
    (hmem : ∀ k, mem k = true)
    (hl : l.Pairwise fun a b => timeIn s.plan time a ≤ timeIn s.plan time b) :
    Returns (addContactToOrdered mem s (fun e => time e.toPlan) l c) fun r =>
      (∃ k, r.2 = { s with requests := k }) ∧
      match r.1 with
      | none => c ∈ l
      | some l' => c ∉ l ∧ l'.Perm (c :: l) ∧
          l'.Pairwise fun a b => timeIn s.plan time a ≤ timeIn s.plan time b := by
  unfold addContactToOrdered
  apply (returns_load s.contacts c).bind
  intro d hd
  apply (insertOrdered_spec hd hl).bind
  intro r hr
  cases r with
  | none => exact ⟨⟨_, rfl⟩, hr⟩
  | some l' =>
      simp only [Table.malloc, hmem, if_true]
      exact ⟨⟨_, rfl⟩, hr⟩

theorem removeContactFromList_getD (l : List Addr) (c : Addr) :
    (removeContactFromList l c).getD l = l.erase c := by
  unfold removeContactFromList
  split
  · rfl
  · rename_i hc
    exact (List.erase_of_not_mem hc).symm

/-! ## Entries -/

/-- The list of an entry: no contact twice, ordered by time, and counted in 16 bits. -/
structure ListOk (time : Addr → UInt64) (entry : NodeTableEntry) : Prop where
  once : entry.contacts.Nodup
  sorted : entry.contacts.Pairwise fun a b => time a ≤ time b
  counted : entry.refCount = UInt16.ofNat entry.contacts.length

/-- All entries of the table are in order, and none is empty. -/
structure Entries (hash : CStr → UInt32) (time : Addr → UInt64) (t : Htab NodeTableEntry) :
    Prop where
  slots : t.slotCount ≠ 0
  lists : ∀ {e : CStr} {entry : NodeTableEntry}, t.lookup hash e = some entry → ListOk time entry
  nonempty : ∀ {e : CStr} {entry : NodeTableEntry}, t.lookup hash e = some entry →
    entry.contacts ≠ []

/-- The contacts associated with an EID. -/
def associated (hash : CStr → UInt32) (t : Htab NodeTableEntry) (e : CStr) : List Addr :=
  ((t.lookup hash e).map (·.contacts)).getD []

/-- The times by which the lists of the entries are ordered. -/
def Table.toTimes (s : Table) : Addr → UInt64 := timeIn s.plan (·.toTime)

variable {hash : CStr → UInt32} {s : Table} {time : Addr → UInt64} {t : Htab NodeTableEntry}
  {e eid : CStr} {c x : Addr}

theorem associated_of_lookup {entry : NodeTableEntry} (h : t.lookup hash e = some entry) :
    associated hash t e = entry.contacts := by
  simp [associated, h]

theorem associated_of_none (h : t.lookup hash e = none) : associated hash t e = [] := by
  simp [associated, h]

theorem Entries.nodup (h : Entries hash time t) (e : CStr) : (associated hash t e).Nodup := by
  cases hl : t.lookup hash e with
  | none => simp [associated_of_none hl]
  | some entry =>
      rw [associated_of_lookup hl]
      exact (h.lists hl).once

theorem returns_htabGet (t : Htab NodeTableEntry) (e : CStr) :
    Returns (htabGet hash t e) fun r => r = t.lookup hash e := by
  unfold htabGet
  apply (returns_assertC _).bind
  intro _ _
  exact rfl

/-- The table with another entry for an EID that has one. -/
theorem lookup_update_of_some {entry entry' : NodeTableEntry}
    (h : t.lookup hash eid = some entry) (e : CStr) :
    (t.update hash eid entry').lookup hash e =
      if e = eid then some entry' else t.lookup hash e := by
  rw [Htab.lookup_update, h]
  rfl

/-- The entries stay in order when one of them gets a nonempty list. -/
theorem Entries.update {entry entry' : NodeTableEntry} (hslots : t.slotCount ≠ 0)
    (hothers : ∀ {e : CStr} {en : NodeTableEntry}, e ≠ eid → t.lookup hash e = some en →
      ListOk time en ∧ en.contacts ≠ [])
    (h : t.lookup hash eid = some entry) (hlist : ListOk time entry')
    (hne : entry'.contacts ≠ []) : Entries hash time (t.update hash eid entry') := by
  have hcases : ∀ {e : CStr} {en : NodeTableEntry},
      (t.update hash eid entry').lookup hash e = some en →
      ListOk time en ∧ en.contacts ≠ [] := by
    intro e en hen
    rw [lookup_update_of_some h] at hen
    split at hen
    · obtain rfl := Option.some.inj hen
      exact ⟨hlist, hne⟩
    · rename_i he
      exact hothers he hen
  exact ⟨hslots, fun hen => (hcases hen).1, fun hen => (hcases hen).2⟩

theorem associated_update {entry entry' : NodeTableEntry} (h : t.lookup hash eid = some entry)
    (e : CStr) : associated hash (t.update hash eid entry') e =
      if e = eid then entry'.contacts else associated hash t e := by
  unfold associated
  rw [lookup_update_of_some h]
  split <;> rfl

/-! ## One association -/

/-- What adding associations leaves: only the table and the count of requests change. -/
structure Linked (hash : CStr → UInt32) (s : Table) (link : CStr → Addr → Prop) (s' : Table) :
    Prop where
  frame : ∃ t k, s' = { s with eidTable := t, requests := k }
  entries : Entries hash s.toTimes s'.eidTable
  mem_iff : ∀ e x, x ∈ associated hash s'.eidTable e ↔ link e x

/-- A contact is added to the list of an entry. -/
theorem addToEntry_spec {entry : NodeTableEntry} (hmem : ∀ k, mem k = true)
    (hslots : s.eidTable.slotCount ≠ 0)
    (hothers : ∀ {e : CStr} {en : NodeTableEntry}, e ≠ eid → s.eidTable.lookup hash e = some en →
      ListOk s.toTimes en ∧ en.contacts ≠ [])
    (h : s.eidTable.lookup hash eid = some entry) (hlist : ListOk s.toTimes entry) :
    Returns (addToEntry mem hash s eid entry c) fun r =>
      Linked hash s (fun e x => x ∈ associated hash s.eidTable e ∨ (e = eid ∧ x = c)) r.2 := by
  unfold addToEntry addContactToOrderedAssocList
  apply (addContactToOrdered_spec (fun p => p.toTime) hmem hlist.sorted).bind
  rintro ⟨r, s'⟩ ⟨⟨k, rfl⟩, hr⟩
  cases r with
  | none =>
      have hc : c ∈ entry.contacts := hr
      refine ⟨⟨_, _, rfl⟩, ⟨hslots, fun {e en} hen => ?_, fun {e en} hen => ?_⟩, fun e x => ?_⟩
      · by_cases he : e = eid
        · obtain rfl := Option.some.inj ((he ▸ hen).symm.trans h)
          exact hlist
        · exact (hothers he hen).1
      · by_cases he : e = eid
        · obtain rfl := Option.some.inj ((he ▸ hen).symm.trans h)
          exact List.ne_nil_of_mem hc
        · exact (hothers he hen).2
      · refine ⟨Or.inl, ?_⟩
        rintro (hx | ⟨rfl, rfl⟩)
        · exact hx
        · rw [associated_of_lookup h]
          exact hc
  | some l =>
      obtain ⟨hnot, hperm, hsorted⟩ := hr
      have hnew : ListOk s.toTimes ⟨entry.refCount + 1, l⟩ := by
        refine ⟨hperm.nodup_iff.mpr (List.nodup_cons.mpr ⟨hnot, hlist.once⟩), hsorted, ?_⟩
        rw [hlist.counted, hperm.length_eq, List.length_cons, UInt16.ofNat_add]
        rfl
      have hne : l ≠ [] := List.ne_nil_of_mem (hperm.symm.subset List.mem_cons_self)
      refine ⟨⟨_, _, rfl⟩, Entries.update hslots hothers h hnew hne, fun e x => ?_⟩
      change x ∈ associated hash (s.eidTable.update hash eid _) e ↔ _
      rw [associated_update h]
      split
      · rename_i he
        subst he
        rw [hperm.mem_iff, List.mem_cons, associated_of_lookup h]
        tauto
      · rename_i he
        simp [he]

/-- **An association is added**, if it is not there. -/
theorem addContactToNodeInHtab_spec (hmem : ∀ k, mem k = true)
    (ht : Entries hash s.toTimes s.eidTable) :
    Returns (addContactToNodeInHtab mem hash s eid c) fun r =>
      Linked hash s (fun e x => x ∈ associated hash s.eidTable e ∨ (e = eid ∧ x = c)) r.2 := by
  unfold addContactToNodeInHtab
  apply (returns_htabGet s.eidTable eid).bind
  rintro _ rfl
  cases h : s.eidTable.lookup hash eid with
  | some entry =>
      exact addToEntry_spec hmem ht.slots (fun _ hen => ⟨ht.lists hen, ht.nonempty hen⟩) h
        (ht.lists h)
  | none =>
      simp only [Table.malloc, hmem, htabAdd, assertC, ht.slots, ne_eq, not_false_eq_true,
        decide_true, if_true, ok_bind, h, dif_pos, pure_bind]
      have hadd := Htab.lookup_add hash s.eidTable eid (⟨0, []⟩ : NodeTableEntry) h
      have hassoc : ∀ e, associated hash (s.eidTable.add hash eid ⟨0, []⟩ h) e =
          associated hash s.eidTable e := by
        intro e
        unfold associated
        rw [hadd]
        split
        · rename_i he
          rw [he, h]
          rfl
        · rfl
      apply Ends.mono (addToEntry_spec (c := c) (s :=
        { s with eidTable := s.eidTable.add hash eid ⟨0, []⟩ h, requests := s.requests + 1 })
        hmem ht.slots ?_ (by rw [hadd, if_pos rfl]) ⟨List.nodup_nil, List.Pairwise.nil, rfl⟩)
      · rintro ⟨b, s'⟩ ⟨⟨t, k, hs⟩, hentries, hiff⟩
        refine ⟨⟨t, k, by rw [hs]⟩, hentries, fun e x => ?_⟩
        rw [hiff, ← hassoc e]
      · intro e en he hen
        rw [hadd, if_neg he] at hen
        exact ⟨ht.lists hen, ht.nonempty hen⟩

theorem ListOk.erase {entry : NodeTableEntry} (h : ListOk time entry) (hc : c ∈ entry.contacts) :
    ListOk time ⟨entry.refCount - 1, entry.contacts.erase c⟩ := by
  refine ⟨h.once.erase c, h.sorted.sublist List.erase_sublist, ?_⟩
  have hpos : 1 ≤ entry.contacts.length := List.length_pos_of_mem hc
  rw [h.counted, List.length_erase_of_mem hc, UInt16.ofNat_sub hpos]
  rfl

/-- The reference count reaches 0 with the last contact. -/
theorem ListOk.last_iff {entry : NodeTableEntry} (h : ListOk time entry)
    (hc : c ∈ entry.contacts) (hfew : entry.contacts.length < 2 ^ 16) :
    entry.refCount - 1 ≤ 0 ↔ entry.contacts.erase c = [] := by
  have hpos : 1 ≤ entry.contacts.length := List.length_pos_of_mem hc
  rw [← List.length_eq_zero_iff, List.length_erase_of_mem hc]
  have hsub : entry.refCount - 1 = UInt16.ofNat (entry.contacts.length - 1) := by
    rw [h.counted, UInt16.ofNat_sub hpos]
    rfl
  have hlt : entry.contacts.length - 1 < UInt16.size := by
    rw [UInt16.size]
    omega
  rw [hsub, UInt16.le_iff_toNat_le, UInt16.toNat_ofNat_of_lt' hlt]
  exact Nat.le_zero

/-- What removing associations leaves: only the table changes, and no list gets longer. -/
structure Unlinked (hash : CStr → UInt32) (s : Table) (link : CStr → Addr → Prop) (s' : Table) :
    Prop extends Linked hash s link s' where
  shorter : ∀ e, (associated hash s'.eidTable e).length ≤ (associated hash s.eidTable e).length

/-- **An association is removed**, if it is there. -/
theorem removeContactFromNodeInHtab_spec (ht : Entries hash s.toTimes s.eidTable)
    (hfew : (associated hash s.eidTable eid).length < 2 ^ 16) :
    Returns (removeContactFromNodeInHtab hash s eid c) fun r =>
      Unlinked hash s (fun e x => x ∈ associated hash s.eidTable e ∧ ¬ (e = eid ∧ x = c)) r.2 := by
  have hsame : c ∉ associated hash s.eidTable eid → Unlinked hash s
      (fun e x => x ∈ associated hash s.eidTable e ∧ ¬ (e = eid ∧ x = c)) s := by
    intro hnot
    refine ⟨⟨⟨_, _, rfl⟩, ht, fun e x => ⟨fun hx => ⟨hx, ?_⟩, fun hx => hx.1⟩⟩, fun _ => le_rfl⟩
    rintro ⟨rfl, rfl⟩
    exact hnot hx
  unfold removeContactFromNodeInHtab
  apply (returns_htabGet s.eidTable eid).bind
  rintro _ rfl
  cases h : s.eidTable.lookup hash eid with
  | none =>
      apply hsame
      simp [associated_of_none h]
  | some entry =>
      have hassoc := associated_of_lookup h
      rw [hassoc] at hfew
      dsimp only [removeContactFromList]
      by_cases hc : c ∈ entry.contacts
      · have hlist := ht.lists h
        simp only [hc, if_true]
        have hiff : ∀ x, x ∈ entry.contacts.erase c ↔ x ∈ entry.contacts ∧ x ≠ c := by
          intro x
          rw [hlist.once.mem_erase_iff]
          exact and_comm
        split
        · rename_i hlast
          have hnil := (hlist.last_iff hc hfew).mp hlast
          unfold htabRemove
          simp only [assertC, ht.slots, ne_eq, not_false_eq_true, decide_true, if_true, ok_bind]
          have hrem := Htab.lookup_remove hash s.eidTable eid
          have hassoc' : ∀ e, associated hash (s.eidTable.remove hash eid) e =
              if e = eid then [] else associated hash s.eidTable e := by
            intro e
            unfold associated
            rw [hrem]
            split <;> rfl
          refine ⟨⟨⟨_, _, rfl⟩, ⟨ht.slots, fun {e en} hen => ?_, fun {e en} hen => ?_⟩,
            fun e x => ?_⟩, fun e => ?_⟩
          · rw [hrem] at hen
            split at hen
            · cases hen
            · exact ht.lists hen
          · rw [hrem] at hen
            split at hen
            · cases hen
            · exact ht.nonempty hen
          · rw [hassoc']
            split
            · rename_i he
              subst he
              have hx := hiff x
              rw [hnil] at hx
              rw [hassoc]
              simpa using hx
            · rename_i he
              simp [he]
          · rw [hassoc']
            split
            · exact Nat.zero_le _
            · exact le_rfl
        · rename_i hlast
          have hne : entry.contacts.erase c ≠ [] :=
            fun hnil => hlast ((hlist.last_iff hc hfew).mpr hnil)
          refine ⟨⟨⟨_, _, rfl⟩, Entries.update ht.slots
            (fun _ hen => ⟨ht.lists hen, ht.nonempty hen⟩) h (hlist.erase hc) hne,
            fun e x => ?_⟩, fun e => ?_⟩
          · change x ∈ associated hash (s.eidTable.update hash eid _) e ↔ _
            rw [associated_update h]
            split
            · rename_i he
              subst he
              rw [hassoc, hiff]
              simp
            · rename_i he
              simp [he]
          · change (associated hash (s.eidTable.update hash eid _) e).length ≤ _
            rw [associated_update h]
            split
            · rename_i he
              subst he
              rw [hassoc]
              exact List.erase_sublist.length_le
            · exact le_rfl
      · simp only [hc, if_false]
        exact hsame (by rwa [hassoc])

/-! ## The EIDs of a list -/

/-- A contact is associated with the EIDs of a list. -/
theorem addToAll_spec (hmem : ∀ k, mem k = true) (es : List CStr) {s : Table}
    (ht : Entries hash s.toTimes s.eidTable) :
    Returns (addToAll mem hash c s es) fun s' =>
      Linked hash s (fun e x => x ∈ associated hash s.eidTable e ∨ (e ∈ es ∧ x = c)) s' := by
  induction es generalizing s with
  | nil => exact ⟨⟨_, _, rfl⟩, ht, fun e x => by simp⟩
  | cons eid es ih =>
      unfold addToAll
      apply (addContactToNodeInHtab_spec hmem ht).bind
      rintro ⟨_, s₁⟩ ⟨⟨t, k, rfl⟩, ht₁, hiff₁⟩
      apply (ih ht₁).mono
      rintro s₂ ⟨⟨t₂, k₂, rfl⟩, ht₂, hiff₂⟩
      refine ⟨⟨_, _, rfl⟩, ht₂, fun e x => ?_⟩
      rw [hiff₂, hiff₁, List.mem_cons]
      tauto

/-- A contact is taken from the EIDs of a list. -/
theorem removeFromAll_spec (es : List CStr) {s : Table} (ht : Entries hash s.toTimes s.eidTable)
    (hfew : ∀ e, (associated hash s.eidTable e).length < 2 ^ 16) :
    Returns (removeFromAll hash c s es) fun s' =>
      Unlinked hash s (fun e x => x ∈ associated hash s.eidTable e ∧ ¬ (e ∈ es ∧ x = c)) s' := by
  induction es generalizing s with
  | nil => exact ⟨⟨⟨_, _, rfl⟩, ht, fun e x => by simp⟩, fun _ => le_rfl⟩
  | cons eid es ih =>
      unfold removeFromAll
      apply (removeContactFromNodeInHtab_spec ht (hfew eid)).bind
      rintro ⟨_, s₁⟩ ⟨⟨⟨t, k, rfl⟩, ht₁, hiff₁⟩, hshort₁⟩
      apply (ih ht₁ fun e => lt_of_le_of_lt (hshort₁ e) (hfew e)).mono
      rintro s₂ ⟨⟨⟨t₂, k₂, rfl⟩, ht₂, hiff₂⟩, hshort₂⟩
      refine ⟨⟨⟨_, _, rfl⟩, ht₂, fun e x => ?_⟩, fun e => (hshort₂ e).trans (hshort₁ e)⟩
      rw [hiff₂, hiff₁, List.mem_cons]
      tauto

end RoutingTable
