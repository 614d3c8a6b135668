import DisruptaBLE.Contact.NodeContacts

/-!
# Lists of EIDs and of contacts

What the list functions of `node.c` do to the plans of contacts.  A merge only adds EIDs of the
merged lists (`contactListUnion_spec`), a difference and the preparation of a command only take
EIDs away (`contactListDifference_spec`, `nodePrepareAndVerify_spec`).  None of them moves a
contact or changes its times.
-/

namespace RoutingTable

open PtrHeap Outcome
open EpidemicRouter (CStr Htab)

variable {mem : Nat → Bool} {s s' : Table} {cs : List Addr} {c n x : Addr}

/-! ## Lists of EIDs -/

/-- The strings of a list of EIDs. -/
def strings (l : List Eid) : List CStr := l.map (·.str)

theorem strings_insertEid (l : List Eid) (e : Eid) :
    (strings (insertEid l e)).Perm (e.str :: strings l) := by
  unfold strings insertEid
  have hsplit : l.takeWhile (fun x => x.ptr ≤ e.ptr) ++ l.dropWhile (fun x => x.ptr ≤ e.ptr) = l :=
    List.takeWhile_append_dropWhile
  have hperm : (l.takeWhile (fun x => x.ptr ≤ e.ptr) ++
      e :: l.dropWhile (fun x => x.ptr ≤ e.ptr)).Perm (e :: l) := by
    nth_rewrite 3 [← hsplit]
    exact List.perm_middle
  exact hperm.map _

theorem strings_endpointListAdd (mem : Nat → Bool) (k : Nat) (l : List Eid) (e : Eid) :
    strings l ⊆ strings (endpointListAdd mem k l e).1 ∧
    ∀ t ∈ strings (endpointListAdd mem k l e).1, t ∈ strings l ∨ t = e.str := by
  unfold endpointListAdd
  split
  · exact ⟨List.Subset.refl _, fun t ht => .inl ht⟩
  · dsimp only
    split
    · have hperm := strings_insertEid l e
      refine ⟨fun t ht => hperm.symm.subset (List.mem_cons_of_mem _ ht), fun t ht => ?_⟩
      exact (List.mem_cons.mp (hperm.subset ht)).symm
    · exact ⟨List.Subset.refl _, fun t ht => .inl ht⟩

theorem strings_endpointListUnion (mem : Nat → Bool) (b : List Eid) (k : Nat) (a : List Eid) :
    strings a ⊆ strings (endpointListUnion mem k a b).1 ∧
    ∀ t ∈ strings (endpointListUnion mem k a b).1, t ∈ strings a ∨ t ∈ strings b := by
  induction b generalizing k a with
  | nil => exact ⟨List.Subset.refl _, fun t ht => .inl ht⟩
  | cons e b ih =>
      obtain ⟨hkeep, hnew⟩ := strings_endpointListAdd mem k a e
      obtain ⟨hkeep', hnew'⟩ :=
        ih (endpointListAdd mem k a e).2 (endpointListAdd mem k a e).1
      unfold endpointListUnion
      refine ⟨List.Subset.trans hkeep hkeep', fun t ht => ?_⟩
      have hcons : strings (e :: b) = e.str :: strings b := rfl
      rw [hcons, List.mem_cons]
      rcases hnew' t ht with ht | ht
      · rcases hnew t ht with ht | ht
        · exact .inl ht
        · exact .inr (.inl ht)
      · exact .inr (.inr ht)

theorem stripEids_sublist (l : List Eid) : (stripEids l).Sublist l := by
  induction l with
  | nil => exact List.Sublist.refl _
  | cons e l ih => exact (List.filter_sublist.trans ih).cons_cons e

theorem strings_endpointListStripAndSort (l : List Eid) :
    strings (endpointListStripAndSort l) ⊆ strings l := by
  have hperm : (endpointListStripAndSort l).Perm (stripEids l) := List.perm_insertionSort _ _
  exact List.Subset.trans (hperm.map _).subset ((stripEids_sublist l).map _).subset

/-! ## Changes of plans -/

/-- The same contact, up to the EIDs reachable over it. -/
structure SamePlace (p p' : Plan) : Prop where
  node : p'.node = p.node
  fromTime : p'.fromTime = p.fromTime
  toTime : p'.toTime = p.toTime

theorem SamePlace.refl (p : Plan) : SamePlace p p := ⟨rfl, rfl, rfl⟩

theorem SamePlace.trans {p p₁ p₂ : Plan} (h₁ : SamePlace p p₁) (h₂ : SamePlace p₁ p₂) :
    SamePlace p p₂ :=
  ⟨h₂.node.trans h₁.node, h₂.fromTime.trans h₁.fromTime, h₂.toTime.trans h₁.toTime⟩

/-- A contact keeps its EIDs, and gets some with `extra`. -/
structure Enriched (extra : CStr → Prop) (p p' : Plan) : Prop extends SamePlace p p' where
  keeps : strings p.contactEndpoints ⊆ strings p'.contactEndpoints
  gets : ∀ t ∈ strings p'.contactEndpoints, t ∈ strings p.contactEndpoints ∨ extra t

theorem Enriched.refl (extra : CStr → Prop) (p : Plan) : Enriched extra p p :=
  ⟨.refl p, List.Subset.refl _, fun _ => .inl⟩

theorem Enriched.trans {extra : CStr → Prop} {p p₁ p₂ : Plan} (h₁ : Enriched extra p p₁)
    (h₂ : Enriched extra p₁ p₂) : Enriched extra p p₂ := by
  refine ⟨h₁.toSamePlace.trans h₂.toSamePlace, List.Subset.trans h₁.keeps h₂.keeps, fun t ht => ?_⟩
  rcases h₂.gets t ht with ht | ht
  · exact h₁.gets t ht
  · exact .inr ht

theorem Enriched.mono {extra extra' : CStr → Prop} {p p' : Plan} (h : Enriched extra p p')
    (hle : ∀ t, extra t → extra' t) : Enriched extra' p p' :=
  ⟨h.toSamePlace, h.keeps, fun t ht => (h.gets t ht).imp_right (hle t)⟩

/-- A contact loses EIDs at most. -/
structure Trimmed (p p' : Plan) : Prop extends SamePlace p p' where
  subset : strings p'.contactEndpoints ⊆ strings p.contactEndpoints

/-- The tables stay, and so do the plans of all contacts but those of a list. -/
structure Within (cs : List Addr) (s s' : Table) : Prop extends SameTables s s' where
  other : ∀ x, x ∉ cs → s'.plan x = s.plan x

theorem Within.refl (cs : List Addr) (s : Table) : Within cs s s := ⟨.refl s, fun _ _ => rfl⟩

theorem Within.trans {s₁ s₂ : Table} (h₁ : Within cs s s₁) (h₂ : Within cs s₁ s₂) :
    Within cs s s₂ :=
  ⟨h₁.toSameTables.trans h₂.toSameTables, fun x hx => (h₂.other x hx).trans (h₁.other x hx)⟩

theorem Within.mono {cs' : List Addr} (h : Within cs s s') (hsub : cs ⊆ cs') : Within cs' s s' :=
  ⟨h.toSameTables, fun x hx => h.other x fun hmem => hx (hsub hmem)⟩

theorem Unplanned.within (h : Unplanned s s') (cs : List Addr) : Within cs s s' :=
  ⟨h.toSameTables, fun x _ => by rw [h.plan]⟩

theorem within_set (s : Table) (c : Addr) (d : Contact) (k : Nat) :
    Within [c] s { s with contacts := s.contacts.set c d, requests := k } := by
  refine ⟨⟨rfl, rfl, rfl, rfl⟩, fun x hx => ?_⟩
  have hne : x ≠ c := by simpa using hx
  simp [Table.plan, hne]

theorem plan_set_self (s : Table) (c : Addr) (d : Contact) (k : Nat) :
    Table.plan { s with contacts := s.contacts.set c d, requests := k } c = some d.toPlan := by
  simp [Table.plan]

theorem place_set {d : Contact} (d' : Contact) (k : Nat) (hd : s.contacts.cells c = some d)
    (h : SamePlace d.toPlan d'.toPlan) (p : Plan) (hp : s.plan c = some p) :
    ∃ p', Table.plan { s with contacts := s.contacts.set c d', requests := k } c = some p' ∧
      SamePlace p p' := by
  obtain rfl := Option.some.inj ((plan_of_cell hd).symm.trans hp)
  exact ⟨_, plan_set_self s c d' k, h⟩

theorem append_subset_cons {a b rest : List Addr} (h : rest ⊆ b) (cur : Addr) :
    a ++ rest ⊆ cur :: a ++ b := by
  intro x hx
  rcases List.mem_append.mp hx with hx | hx
  · exact List.mem_append_left b (List.mem_cons_of_mem cur hx)
  · exact List.mem_append_right (cur :: a) (h hx)

/-! ## Releasing and assigning -/

theorem freeContact_spec (s : Table) (c : Addr) : Returns (freeContact s c) (Within [c] s) := by
  unfold freeContact
  apply (returns_load s.contacts c).bind
  intro d _
  apply (returns_assertC _).bind
  intro _ _
  refine ⟨⟨rfl, rfl, rfl, rfl⟩, fun x hx => ?_⟩
  have hne : x ≠ c := by simpa using hx
  simp [Table.plan, hne]

theorem freeContacts_spec (cs : List Addr) (s : Table) :
    Returns (freeContacts s cs) (Within cs s) := by
  induction cs generalizing s with
  | nil => exact .refl _ s
  | cons c cs ih =>
      unfold freeContacts
      apply (freeContact_spec s c).bind
      intro s₁ h₁
      apply (ih s₁).mono
      intro s₂ h₂
      exact (h₁.mono (by simp)).trans (h₂.mono (List.subset_cons_self c cs))

theorem dropDeleted_spec (cs : List Addr) (s : Table) :
    Returns (dropDeleted s cs) (Within cs s) := by
  induction cs generalizing s with
  | nil => exact .refl _ s
  | cons c cs ih =>
      have hrest : ∀ s₁, Within (c :: cs) s s₁ →
          Returns (dropDeleted s₁ cs) (Within (c :: cs) s) := by
        intro s₁ h₁
        apply (ih s₁).mono
        intro s₂ h₂
        exact h₁.trans (h₂.mono (List.subset_cons_self c cs))
      unfold dropDeleted
      apply (rescheduleBundles_spec s c).bind
      intro s₁ h₁
      apply (returns_load s₁.contacts c).bind
      intro d _
      split
      · exact hrest s₁ (h₁.within _)
      · apply (freeContact_spec s₁ c).bind
        intro s₂ h₂
        exact hrest s₂ ((h₁.within _).trans (h₂.mono (by simp)))

/-- A node is released, with its contacts. -/
theorem freeNode_spec (s : Table) (n : Addr) :
    Returns (freeNode s n) fun s' => ∃ node, s.nodes.cells n = some node ∧
      s'.nodes = s.nodes.erase n ∧ s'.nodeList = s.nodeList ∧ s'.contactList = s.contactList ∧
      s'.eidTable = s.eidTable ∧ ∀ x, x ∉ node.contacts → s'.plan x = s.plan x := by
  unfold freeNode freeNodeCell
  apply (returns_load s.nodes n).bind
  intro node hnode
  apply (freeContacts_spec node.contacts s).bind
  intro s₁ h₁
  apply (returns_release s₁.nodes n).bind
  rintro _ ⟨-, rfl⟩
  exact ⟨node, hnode, by rw [← h₁.nodes], h₁.nodeList, h₁.contactList, h₁.eidTable, h₁.other⟩

/-- The contacts of a list get a node. -/
theorem assignNode_spec (n : Addr) (cs : List Addr) (s : Table) :
    Returns (assignNode n s cs) fun s' => Within cs s s' ∧
      ∀ x ∈ cs, s'.plan x = (s.plan x).map fun p => { p with node := some n } := by
  induction cs generalizing s with
  | nil => exact ⟨.refl _ s, by simp⟩
  | cons c cs ih =>
      unfold assignNode
      apply (returns_modify s.contacts c _).bind
      rintro _ ⟨d, hd, rfl⟩
      apply (ih _).mono
      rintro s' ⟨hwithin, hassign⟩
      have hfirst := within_set s c { d with node := some n } s.requests
      have hself : Table.plan { s with contacts := s.contacts.set c { d with node := some n } } c =
          (s.plan c).map fun p => { p with node := some n } := by
        simp [Table.plan, hd]
      refine ⟨(hfirst.mono (by simp)).trans (hwithin.mono (List.subset_cons_self c cs)), ?_⟩
      intro x hx
      by_cases hxcs : x ∈ cs
      · rw [hassign x hxcs]
        by_cases hxc : x = c
        · rw [hxc, hself, Option.map_map]
          rfl
        · rw [hfirst.other x (by simpa using hxc)]
      · obtain rfl := (List.mem_cons.mp hx).resolve_right hxcs
        rw [hwithin.other x hxcs, hself]

/-! ## Union -/

/-- The EIDs that a contact of `b` has for the times of a plan. -/
def ExtraOf (plan : Addr → Option Plan) (b : List Addr) (p : Plan) (t : CStr) : Prop :=
  ∃ y ∈ b, ∃ q, plan y = some q ∧ q.fromTime = p.fromTime ∧ q.toTime = p.toTime ∧
    t ∈ strings q.contactEndpoints

theorem ExtraOf.mono {plan plan' : Addr → Option Plan} {b b' : List Addr} {p p' : Plan}
    {t : CStr} (h : ExtraOf plan b p t) (hb : b ⊆ b') (hplan : ∀ y ∈ b, plan' y = plan y)
    (hp : SamePlace p p') : ExtraOf plan' b' p' t := by
  obtain ⟨y, hy, q, hq, hfrom, hto, ht⟩ := h
  exact ⟨y, hb hy, q, (hplan y hy).trans hq, hfrom.trans hp.fromTime.symm,
    hto.trans hp.toTime.symm, ht⟩

/-- A contact is merged into another one. -/
theorem mergeContacts_spec (old new : Addr) :
    Returns (mergeContacts mem s old new) fun r => Within [old] s r.2 ∧
      ∃ p q p', s.plan old = some p ∧ s.plan new = some q ∧ r.2.plan old = some p' ∧
        Enriched (· ∈ strings q.contactEndpoints) p p' := by
  unfold mergeContacts
  apply (returns_load s.contacts old).bind
  intro o ho
  apply (returns_load s.contacts new).bind
  intro d hd
  obtain ⟨hkeep, hget⟩ := strings_endpointListUnion mem d.contactEndpoints s.requests
    o.contactEndpoints
  have hmerged : ∀ (o' : Contact) (k : Nat), o'.toPlan = { o.toPlan with
      contactEndpoints :=
        (endpointListUnion mem s.requests o.contactEndpoints d.contactEndpoints).1 } →
      ∃ p q p', s.plan old = some p ∧ s.plan new = some q ∧
        Table.plan { s with contacts := s.contacts.set old o', requests := k } old = some p' ∧
        Enriched (· ∈ strings q.contactEndpoints) p p' := by
    intro o' k ho'
    refine ⟨_, _, o'.toPlan, plan_of_cell ho, plan_of_cell hd, by simp [Table.plan], ?_⟩
    rw [ho']
    exact ⟨⟨rfl, rfl, rfl⟩, hkeep, hget⟩
  dsimp only
  split
  · exact ⟨within_set s old _ _, hmerged _ _ rfl⟩
  · exact ⟨within_set s old _ _, hmerged _ _ rfl⟩

theorem addToModifiedList_spec (mem : Nat → Bool) (s : Table) (c : Addr) (modified : List Addr) :
    Unplanned s (addToModifiedList mem s c modified).2 := ⟨⟨rfl, rfl, rfl, rfl⟩, rfl⟩

/-- What the inner loop leaves at the entry `cur`. -/
structure UnitedAt (s : Table) (cur : Addr) (b before rest : List Addr) (s' : Table) : Prop
    extends Within (cur :: b) s s' where
  sublist : (before ++ rest).Sublist b
  keeps : ∀ x ∈ before ++ rest, s'.plan x = s.plan x
  enriched : ∀ p, s.plan cur = some p → ∃ p', s'.plan cur = some p' ∧
    Enriched (ExtraOf s.plan b p) p p'

theorem unionBefore_spec {cur : Addr} (b modified : List Addr) {s : Table} (hcur : cur ∉ b)
    (hb : b.Nodup) :
    Returns (unionBefore mem cur modified s b) fun r => UnitedAt s cur b r.1 r.2.1 r.2.2.2 := by
  induction b generalizing s modified with
  | nil =>
      exact ⟨.refl _ s, List.Sublist.refl _, by simp, fun p hp => ⟨p, hp, .refl _ p⟩⟩
  | cons can b ih =>
      obtain ⟨hcan, hb⟩ := List.nodup_cons.mp hb
      have hne : cur ≠ can := fun h => hcur (by simp [h])
      have hcur' : cur ∉ b := fun h => hcur (List.mem_cons_of_mem can h)
      unfold unionBefore
      apply (returns_load s.contacts cur).bind
      intro c hc
      apply (returns_load s.contacts can).bind
      intro d hd
      split
      · -- inserted before the entry
        apply (ih modified hcur' hb).bind
        rintro ⟨before, rest, modified', s'⟩ h
        refine ⟨h.toWithin.mono (by simp), h.sublist.cons_cons can, ?_, fun p hp => ?_⟩
        · intro x hx
          rcases List.mem_cons.mp hx with rfl | hx
          · exact h.other x (by simp [hcan, Ne.symm hne])
          · exact h.keeps x hx
        · obtain ⟨p', hp', henr⟩ := h.enriched p hp
          refine ⟨p', hp', henr.mono fun t ht => ?_⟩
          exact ht.mono (List.subset_cons_self can b) (fun _ _ => rfl) (.refl p)
      · split
        · -- the entry of `b` is released, and its EIDs may be merged before
          rename_i hfrom
          have hmain : ∀ (modified : List Addr) (s₁ : Table), Within [cur] s s₁ →
              (∀ p, s.plan cur = some p → ∃ p', s₁.plan cur = some p' ∧
                Enriched (ExtraOf s.plan (can :: b) p) p p') →
              Returns (do
                let s ← freeContact s₁ can
                unionBefore mem cur modified s b)
                fun r => UnitedAt s cur (can :: b) r.1 r.2.1 r.2.2.2 := by
            intro modified s₁ hw₁ henr₁
            apply (freeContact_spec s₁ can).bind
            intro s₂ hw₂
            have hplan : ∀ x, x ≠ cur → x ≠ can → s₂.plan x = s.plan x := by
              intro x hxcur hxcan
              rw [hw₂.other x (by simpa using hxcan), hw₁.other x (by simpa using hxcur)]
            have hplanb : ∀ x ∈ b, s₂.plan x = s.plan x := fun x hx =>
              hplan x (fun h => hcur' (h ▸ hx)) fun h => hcan (h ▸ hx)
            apply (ih modified hcur' hb).mono
            rintro ⟨before, rest, modified', s'⟩ h
            have hw : Within (cur :: can :: b) s s' :=
              ((hw₁.mono (by simp)).trans (hw₂.mono (by simp))).trans (h.toWithin.mono (by simp))
            refine ⟨hw, h.sublist.cons can, ?_, fun p hp => ?_⟩
            · intro x hx
              exact (h.keeps x hx).trans (hplanb x (h.sublist.subset hx))
            · obtain ⟨p₁, hp₁, henr⟩ := henr₁ p hp
              have hp₂ : s₂.plan cur = some p₁ := by
                rw [hw₂.other cur (by simpa using hne), hp₁]
              obtain ⟨p', hp', henr'⟩ := h.enriched p₁ hp₂
              refine ⟨p', hp', henr.trans (henr'.mono fun t ht => ?_)⟩
              refine ht.mono (List.subset_cons_self can b) (fun y hy => (hplanb y hy).symm) ?_
              exact ⟨henr.node.symm, henr.fromTime.symm, henr.toTime.symm⟩
          dsimp only
          split
          · rename_i hto
            apply (mergeContacts_spec cur can).bind
            rintro ⟨changed, s₁⟩ ⟨hw₁, p, q, p', hp, hq, hp', henr⟩
            have hextra : ∀ p₀, s.plan cur = some p₀ → ∃ p', s₁.plan cur = some p' ∧
                Enriched (ExtraOf s.plan (can :: b) p₀) p₀ p' := by
              intro p₀ hp₀
              obtain rfl := Option.some.inj (hp.symm.trans hp₀)
              refine ⟨p', hp', henr.mono fun t ht => ⟨can, List.mem_cons_self, q, hq, ?_, ?_, ht⟩⟩
              · rw [← Option.some.inj ((plan_of_cell hd).symm.trans hq),
                  ← Option.some.inj ((plan_of_cell hc).symm.trans hp)]
                exact hfrom
              · rw [← Option.some.inj ((plan_of_cell hd).symm.trans hq),
                  ← Option.some.inj ((plan_of_cell hc).symm.trans hp)]
                exact hto
            cases changed with
            | false => exact hmain _ s₁ hw₁ hextra
            | true =>
                have hmod := addToModifiedList_spec mem s₁ cur modified
                apply hmain _ _ (hw₁.trans (hmod.within _))
                rw [hmod.plan]
                exact hextra
          · exact hmain _ s (.refl _ s) fun p hp => ⟨p, hp, .refl _ p⟩
        · exact ⟨.refl _ s, List.Sublist.refl _, fun _ _ => rfl, fun p hp => ⟨p, hp, .refl _ p⟩⟩

/-- What a union leaves: all of `a`, some of `b`, and at the contacts of `a` the EIDs of those of
`b` with the same times at most. -/
structure United (s : Table) (a b l : List Addr) (s' : Table) : Prop
    extends Within (a ++ b) s s' where
  split : ∃ taken, taken.Sublist b ∧ l.Perm (a ++ taken) ∧ ∀ x ∈ taken, s'.plan x = s.plan x
  enriched : ∀ x ∈ a, ∀ p, s.plan x = some p → ∃ p', s'.plan x = some p' ∧
    Enriched (ExtraOf s.plan b p) p p'

theorem unionLoop_spec (a : List Addr) {b : List Addr} (modified : List Addr) {s : Table}
    (hnd : (a ++ b).Nodup) :
    Returns (unionLoop mem modified s a b) fun r => United s a b r.1 r.2.2 := by
  induction a generalizing s b modified with
  | nil =>
      exact ⟨.refl _ s, ⟨b, List.Sublist.refl _, List.Perm.refl _, fun _ _ => rfl⟩, by simp⟩
  | cons cur a ih =>
      rw [List.cons_append, List.nodup_cons, List.mem_append, not_or] at hnd
      obtain ⟨hcur, hnd⟩ := hnd
      obtain ⟨ha, hb, hdisj⟩ := List.nodup_append'.mp hnd
      unfold unionLoop
      apply (unionBefore_spec b modified hcur.2 hb).bind
      rintro ⟨before, rest, modified', s₁⟩ h₁
      have hsub : rest.Sublist b := (List.sublist_append_right before rest).trans h₁.sublist
      have hnd₁ : (a ++ rest).Nodup := hnd.sublist ((List.Sublist.refl a).append hsub)
      apply (ih modified' hnd₁).bind
      rintro ⟨l, modified₂, s₂⟩ h₂
      obtain ⟨taken, htaken, hperm, hplan⟩ := h₂.split
      have hother : ∀ x, x ∉ a → x ∉ rest → s₂.plan x = s₁.plan x := fun x hxa hxr =>
        h₂.other x fun h => (List.mem_append.mp h).elim hxa hxr
      have hnodup : (before ++ rest).Nodup := hb.sublist h₁.sublist
      refine ⟨?_, ⟨before ++ taken, ?_, ?_, fun x hx => ?_⟩, ?_⟩
      · exact (h₁.toWithin.mono (by simp)).trans
          (h₂.toWithin.mono (append_subset_cons hsub.subset cur))
      · exact ((List.Sublist.refl before).append htaken).trans h₁.sublist
      · have hmid : (before ++ cur :: l).Perm (cur :: (before ++ l)) := List.perm_middle
        have htail : (before ++ l).Perm (a ++ (before ++ taken)) :=
          (hperm.append_left before).trans (List.perm_append_comm_assoc _ _ _)
        exact hmid.trans (htail.cons cur)
      · rcases List.mem_append.mp hx with hx | hx
        · have hxb : x ∈ b := h₁.sublist.subset (List.mem_append_left _ hx)
          have hxr : x ∉ rest := fun hr => List.disjoint_of_nodup_append hnodup hx hr
          rw [hother x (fun hxa => hdisj hxa hxb) hxr]
          exact h₁.keeps x (List.mem_append_left _ hx)
        · rw [hplan x hx]
          exact h₁.keeps x (List.mem_append_right _ (htaken.subset hx))
      · intro x hx p hp
        rcases List.mem_cons.mp hx with rfl | hx
        · obtain ⟨p', hp', henr⟩ := h₁.enriched p hp
          exact ⟨p', (hother x hcur.1 fun hr => hcur.2 (hsub.subset hr)).trans hp', henr⟩
        · have hxc : x ≠ cur := fun h => hcur.1 (h ▸ hx)
          have hp₁ : s₁.plan x = some p := by
            rw [h₁.other x (by simpa [hxc] using fun hxb => hdisj hx hxb)]
            exact hp
          obtain ⟨p', hp', henr⟩ := h₂.enriched x hx p hp₁
          refine ⟨p', hp', henr.mono fun t ht => ?_⟩
          exact ht.mono hsub.subset
            (fun y hy => (h₁.keeps y (List.mem_append_right _ hy)).symm) (.refl p)

/-- **The union of two lists of contacts.** -/
theorem contactListUnion_spec {a b : List Addr} (hnd : (a ++ b).Nodup) :
    Returns (contactListUnion mem s a b) fun r => United s a b r.1 r.2.2 := by
  have hsame : ∀ l, (∃ taken, taken.Sublist b ∧ l.Perm (a ++ taken) ∧
      ∀ x ∈ taken, s.plan x = s.plan x) → United s a b l s := fun l hl =>
    ⟨.refl _ s, hl, fun x _ p hp => ⟨p, hp, .refl _ p⟩⟩
  unfold contactListUnion
  refine Ends.bind (R := fun _ => True) (returns_intro fun _ _ => trivial) fun _ _ => ?_
  apply (returns_assertC _).bind
  intro _ _
  refine Ends.bind (R := fun _ => True) (returns_intro fun _ _ => trivial) fun _ _ => ?_
  apply (returns_assertC _).bind
  intro _ _
  split
  · rename_i ha
    exact hsame b ⟨b, List.Sublist.refl _, by simp [ha], fun _ _ => rfl⟩
  · split
    · exact hsame a ⟨[], List.nil_sublist _, by simp, by simp⟩
    · exact unionLoop_spec a [] hnd

/-! ## Difference -/

theorem differenceMatch_spec (cur : Addr) (b : List Addr) (s : Table) :
    Returns (differenceMatch cur s b) fun r => Within b s r.2.2 ∧ r.2.1.Sublist b := by
  induction b generalizing s with
  | nil => exact ⟨.refl _ s, List.Sublist.refl _⟩
  | cons can b ih =>
      unfold differenceMatch
      apply (returns_load s.contacts cur).bind
      intro c _
      apply (returns_load s.contacts can).bind
      intro d _
      split
      · apply (freeContact_spec s can).bind
        intro s₁ h₁
        have h₁' : Within (can :: b) s s₁ := h₁.mono (by simp)
        split
        · exact ⟨h₁', List.sublist_cons_self can b⟩
        · apply (ih s₁).mono
          rintro ⟨found, rest, s₂⟩ ⟨h₂, hrest⟩
          exact ⟨h₁'.trans (h₂.mono (List.subset_cons_self can b)), hrest.cons can⟩
      · exact ⟨.refl _ s, List.Sublist.refl _⟩

/-- What a difference leaves: a part of `a`, each contact in its place, and the deleted ones are
none of them. -/
structure Differs (s : Table) (a b l deleted : List Addr) (s' : Table) : Prop
    extends Within (a ++ b) s s' where
  sublist : l.Sublist a
  deleted_iff : ∀ x ∈ deleted, x ∈ a ∧ x ∉ l
  places : ∀ x ∈ a, ∀ p, s.plan x = some p → ∃ p', s'.plan x = some p' ∧ SamePlace p p'

theorem differenceLoop_spec (a : List Addr) {b : List Addr} (modified deleted : List Addr)
    {s : Table} (hnd : a.Nodup) (hdisj : a.Disjoint b) :
    Returns (differenceLoop mem modified deleted s a b) fun r =>
      ∃ more, r.2.2.1 = more ++ deleted ∧ Differs s a b r.1 more r.2.2.2 := by
  induction a generalizing s b modified deleted with
  | nil =>
      exact ⟨[], rfl, .refl _ s, List.Sublist.refl _, by simp, by simp⟩
  | cons cur a ih =>
      obtain ⟨hcur, hnd⟩ := List.nodup_cons.mp hnd
      obtain ⟨hcurb, hdisj⟩ := List.disjoint_cons_left.mp hdisj
      unfold differenceLoop
      apply (differenceMatch_spec cur b s).bind
      rintro ⟨found, rest, s₁⟩ ⟨h₁, hrest⟩
      have hdisj₁ : a.Disjoint rest := fun x hxa hxr => hdisj hxa (hrest.subset hxr)
      -- the entries after `cur`, from a state in which only `cur` and entries of `b` changed
      have hgo : ∀ {s₂ s₃ : Table} {l deleted : List Addr}, Within (cur :: b) s s₂ →
          (∀ p, s.plan cur = some p → ∃ p', s₂.plan cur = some p' ∧ SamePlace p p') →
          Differs s₂ a rest l deleted s₃ →
          Within (cur :: a ++ b) s s₃ ∧ ∀ x ∈ cur :: a, ∀ p, s.plan x = some p →
            ∃ p', s₃.plan x = some p' ∧ SamePlace p p' := by
        intro s₂ s₃ l deleted hw hplace h
        refine ⟨(hw.mono (by simp)).trans
          (h.toWithin.mono (append_subset_cons hrest.subset cur)), ?_⟩
        intro x hx p hp
        rcases List.mem_cons.mp hx with rfl | hx
        · obtain ⟨p', hp', hsame⟩ := hplace p hp
          refine ⟨p', (h.other x ?_).trans hp', hsame⟩
          simpa [hcur] using fun hr => hcurb (hrest.subset hr)
        · refine h.places x hx p ((hw.other x ?_).trans hp)
          have hxc : x ≠ cur := fun hxc => hcur (hxc ▸ hx)
          simpa [hxc] using hdisj hx
      have hstay : ∀ p, s.plan cur = some p → ∃ p', s₁.plan cur = some p' ∧ SamePlace p p' :=
        fun p hp => ⟨p, (h₁.other cur hcurb).trans hp, .refl p⟩
      have h₁' : Within (cur :: b) s s₁ := h₁.mono (List.subset_cons_self cur b)
      match found with
      | none =>
          apply (ih modified deleted hnd hdisj₁).bind
          rintro ⟨l, modified', deleted', s₂⟩ ⟨more, hmore, h₂⟩
          obtain ⟨hw, hplaces⟩ := hgo h₁' hstay h₂
          refine ⟨more, hmore, hw, h₂.sublist.cons_cons cur, fun x hx => ?_, hplaces⟩
          obtain ⟨hxa, hxl⟩ := h₂.deleted_iff x hx
          have hxc : x ≠ cur := fun hxc => hcur (hxc ▸ hxa)
          exact ⟨List.mem_cons_of_mem cur hxa, by simp [hxl, hxc]⟩
      | some [] =>
          apply (ih modified (cur :: deleted) hnd hdisj₁).mono
          rintro ⟨l, modified', deleted', s₂⟩ ⟨more, hmore, h₂⟩
          obtain ⟨hw, hplaces⟩ := hgo h₁' hstay h₂
          refine ⟨more ++ [cur], by simpa using hmore, hw, h₂.sublist.cons cur,
            fun x hx => ?_, hplaces⟩
          rcases List.mem_append.mp hx with hx | hx
          · obtain ⟨hxa, hxl⟩ := h₂.deleted_iff x hx
            exact ⟨List.mem_cons_of_mem cur hxa, hxl⟩
          · rw [List.mem_singleton.mp hx]
            exact ⟨List.mem_cons_self, fun h => hcur (h₂.sublist.subset h)⟩
      | some (e :: es) =>
          apply (returns_modify s₁.contacts cur _).bind
          rintro _ ⟨d, hd, rfl⟩
          apply (ih _ deleted hnd hdisj₁).bind
          rintro ⟨l, modified', deleted', s₂⟩ ⟨more, hmore, h₂⟩
          let d' : Contact :=
            { d with contactEndpoints := endpointListDifference d.contactEndpoints (e :: es) }
          have hset := within_set s₁ cur d' (s₁.requests + 1)
          have hw₂ := h₁'.trans (hset.mono (List.cons_subset_cons cur (List.nil_subset b)))
          obtain ⟨hw, hplaces⟩ := hgo hw₂ (fun p hp =>
            place_set d' _ hd ⟨rfl, rfl, rfl⟩ p ((h₁.other cur hcurb).trans hp)) h₂
          refine ⟨more, hmore, hw, h₂.sublist.cons_cons cur, fun x hx => ?_, hplaces⟩
          obtain ⟨hxa, hxl⟩ := h₂.deleted_iff x hx
          have hxc : x ≠ cur := fun hxc => hcur (hxc ▸ hxa)
          exact ⟨List.mem_cons_of_mem cur hxa, by simp [hxl, hxc]⟩

/-- **The difference of two lists of contacts.** -/
theorem contactListDifference_spec {a b : List Addr} (hnd : a.Nodup) (hdisj : a.Disjoint b) :
    Returns (contactListDifference mem s a b) fun r => Differs s a b r.1 r.2.2.1 r.2.2.2 := by
  unfold contactListDifference
  refine Ends.bind (R := fun _ => True) (returns_intro fun _ _ => trivial) fun _ _ => ?_
  apply (returns_assertC _).bind
  intro _ _
  refine Ends.bind (R := fun _ => True) (returns_intro fun _ _ => trivial) fun _ _ => ?_
  apply (returns_assertC _).bind
  intro _ _
  split
  · exact ⟨.refl _ s, List.Sublist.refl _, by simp, fun x _ p hp => ⟨p, hp, .refl p⟩⟩
  · apply (differenceLoop_spec a [] [] hnd hdisj).mono
    rintro ⟨l, modified, deleted, s'⟩ ⟨more, hmore, h⟩
    dsimp only at hmore h ⊢
    rw [hmore, List.append_nil]
    exact h

/-! ## Preparation of a command -/

theorem loadAll_length (s : Table) (l : List Addr) :
    Returns (loadAll s l) fun ds => ds.length = l.length := by
  induction l with
  | nil => rfl
  | cons c l ih =>
      unfold loadAll
      apply (returns_load s.contacts c).bind
      intro d _
      apply ih.bind
      intro ds hds
      exact congrArg (· + 1) hds

theorem sortContacts_spec (s : Table) (l : List Addr) :
    Returns (sortContacts s l) fun l' => l'.Perm l := by
  unfold sortContacts
  apply (loadAll_length s l).bind
  intro ds hds
  have hsort := List.perm_insertionSort
    (fun x y : Addr × Contact => x.2.fromTime ≤ y.2.fromTime) (l.zip ds)
  have hfst : (l.zip ds).map Prod.fst = l := List.map_fst_zip (by omega)
  exact (hsort.map Prod.fst).trans (.of_eq hfst)

theorem verifyContacts_spec (cs : List Addr) {s : Table} (hnd : cs.Nodup) :
    Returns (verifyContacts s cs) fun r => Within cs s r.2 ∧
      ∀ x ∈ cs, ∀ p, s.plan x = some p → ∃ p', r.2.plan x = some p' ∧ Trimmed p p' := by
  induction cs generalizing s with
  | nil => exact ⟨.refl _ s, by simp⟩
  | cons c cs ih =>
      obtain ⟨hc, hnd⟩ := List.nodup_cons.mp hnd
      unfold verifyContacts
      apply (returns_modify s.contacts c _).bind
      rintro _ ⟨d, hd, rfl⟩
      let d' : Contact := { d with contactEndpoints := endpointListStripAndSort d.contactEndpoints }
      have hset : Within (c :: cs) s { s with contacts := s.contacts.set c d' } :=
        (within_set s c d' s.requests).mono (by simp)
      have hother : ∀ x ∈ cs, Table.plan { s with contacts := s.contacts.set c d' } x = s.plan x :=
        fun x hx => (within_set s c d' s.requests).other x
          (fun h => hc (List.mem_singleton.mp h ▸ hx))
      have hself : ∀ p, s.plan c = some p →
          ∃ p', Table.plan { s with contacts := s.contacts.set c d' } c = some p' ∧
            Trimmed p p' := by
        intro p hp
        obtain rfl := Option.some.inj ((plan_of_cell hd).symm.trans hp)
        exact ⟨_, plan_set_self s c d' s.requests, ⟨rfl, rfl, rfl⟩,
          strings_endpointListStripAndSort d.contactEndpoints⟩
      apply (returns_load _ c).bind
      intro d₁ _
      apply (loadAll_length _ cs).bind
      intro ds _
      split
      · refine ⟨hset, fun x hx p hp => ?_⟩
        rcases List.mem_cons.mp hx with rfl | hx
        · exact hself p hp
        · exact ⟨p, (hother x hx).trans hp, .refl p, List.Subset.refl _⟩
      · apply (ih hnd).mono
        rintro ⟨b, s'⟩ ⟨hw, htrim⟩
        refine ⟨hset.trans (hw.mono (List.subset_cons_self c cs)), fun x hx p hp => ?_⟩
        rcases List.mem_cons.mp hx with rfl | hx
        · obtain ⟨p', hp', ht⟩ := hself p hp
          exact ⟨p', (hw.other x hc).trans hp', ht⟩
        · exact htrim x hx p ((hother x hx).trans hp)

/-- What the preparation of the node at `n` leaves: the node with its contacts in another order,
and fewer EIDs at most. -/
structure Prepared (s : Table) (n : Addr) (node node' : Node) (s' : Table) : Prop where
  eid : node'.eid = node.eid
  contacts : node'.contacts.Perm node.contacts
  endpoints : strings node'.endpoints ⊆ strings node.endpoints
  self : s'.nodes.cells n = some node'
  others : ∀ m, m ≠ n → s'.nodes.cells m = s.nodes.cells m
  nodeList : s'.nodeList = s.nodeList
  contactList : s'.contactList = s.contactList
  eidTable : s'.eidTable = s.eidTable
  plan_other : ∀ x, x ∉ node.contacts → s'.plan x = s.plan x
  trimmed : ∀ x ∈ node.contacts, ∀ p, s.plan x = some p →
    ∃ p', s'.plan x = some p' ∧ Trimmed p p'

/-- **The preparation of a command** moves and removes EIDs only. -/
theorem nodePrepareAndVerify_spec {node : Node} (hn : s.nodes.cells n = some node)
    (hnd : node.contacts.Nodup) :
    Returns (nodePrepareAndVerify s n) fun r => ∃ node', Prepared s n node node' r.2 := by
  unfold nodePrepareAndVerify
  rw [Heap.load_cell hn, ok_bind]
  split
  · exact ⟨node, rfl, List.Perm.refl _, List.Subset.refl _, hn, fun _ _ => rfl, rfl, rfl, rfl,
      fun _ _ => rfl, fun x _ p hp => ⟨p, hp, .refl p, List.Subset.refl _⟩⟩
  · apply (sortContacts_spec s node.contacts).bind
    intro contacts hperm
    apply (verifyContacts_spec contacts (hperm.nodup_iff.mpr hnd)).mono
    rintro ⟨b, s'⟩ ⟨hw, htrim⟩
    refine ⟨{ node with contacts, endpoints := endpointListStripAndSort node.endpoints }, rfl,
      hperm, strings_endpointListStripAndSort node.endpoints, ?_, ?_, hw.nodeList, hw.contactList,
      hw.eidTable, fun x hx => hw.other x fun h => hx (hperm.subset h),
      fun x hx => htrim x (hperm.symm.subset hx)⟩
    · rw [hw.nodes]
      exact Heap.cells_set_self _ _ _
    · intro m hm
      rw [hw.nodes]
      exact Heap.cells_set_ne _ hm _

end RoutingTable
