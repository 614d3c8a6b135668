import DisruptaBLE.Epidemic.ContactManager
import DisruptaBLE.Epidemic.RouterRuns

/-!
# Contact manager and router

The router keeps its contacts under the EID that a contact had when it was added,
and the contact manager may give a contact another node, with another EID, later.

`steady_contact_table` says that the table of the router describes the active
contacts of the contact manager, as long as this does not happen to a router
contact and the counter of the contacts does not overflow.
`neighbour_renamed_twice_listed` is a run in which it happens.
-/

namespace EpidemicRouter

open PtrHeap

variable {P : RouterParams}

/-- **The property.**  Array and hash table of the router describe the same set of
contacts, each of which the contact manager holds and has active. -/
structure TableAgrees (P : RouterParams) (s : ContactManager) : Prop where
  index : ∀ i r rc, s.router.routerContacts[i]? = some r →
    s.router.contacts.cells r = some rc → rc.index = i
  lookup : ∀ eid r, s.router.htab.lookup P.hash eid = some r ↔
    r ∈ s.router.routerContacts ∧
      ∃ rc, s.router.contacts.cells r = some rc ∧ contactEid s.contacts rc.contact = eid
  distinct : ∀ r ∈ s.router.routerContacts, ∀ r' ∈ s.router.routerContacts, ∀ rc rc',
    s.router.contacts.cells r = some rc → s.router.contacts.cells r' = some rc' →
    rc.contact = rc'.contact → r = r'
  held : ∀ r ∈ s.router.routerContacts, ∃ rc k, s.router.contacts.cells r = some rc ∧
    rc.contact ∈ s.held ∧ s.contacts.cells rc.contact = some k ∧ k.active = true

/-- A contact that has no entry in the router. -/
def Unlisted (s : ContactManager) (c : Addr) : Prop :=
  ∀ r ∈ s.router.routerContacts, ∀ rc, s.router.contacts.cells r = some rc → rc.contact ≠ c

/-- **The condition** on an event.  A neighbour with a new EID does not come under the
address of a contact that has an entry in the router, and there are fewer than 127
contacts when one is created. -/
def Steady (s : ContactManager) : CmOp → Prop
  | .discovered node => findContactInfoByEid s node.eid = .ok none →
      (∀ c, findContactInfoByClaAddr s node.claAddr = .ok (some c) → Unlisted s c) ∧
      (findContactInfoByClaAddr s node.claAddr = .ok none → s.currentContactCount < 127)
  | .connUp claAddr =>
      findContactInfoByClaAddr s claAddr = .ok none → s.currentContactCount < 127
  | .connDown claAddr =>
      findContactInfoByClaAddr s claAddr = .ok none → s.currentContactCount < 127
  | .expire => True

/-- The invariant; `pending` is a contact whose flag the router has not seen yet. -/
structure CmInv (P : RouterParams) (s : ContactManager) (l : List Addr) (key : Addr → CStr)
    (pending : Ptr) : Prop where
  router : RouterInv P s.router l key
  count : s.currentContactCount = s.currentContacts.length
  small : s.currentContacts.length ≤ 127
  nodup : s.currentContacts.Nodup
  live : ∀ c ∈ s.currentContacts, ∃ k, s.contacts.cells c = some k
  eids : ∀ c ∈ s.currentContacts, ∀ c' ∈ s.currentContacts,
    contactEid s.contacts c = contactEid s.contacts c' →
    contactEid s.contacts c ≠ eidNone → c = c'
  entries : ∀ r ∈ s.router.routerContacts, ∀ rc, s.router.contacts.cells r = some rc →
    rc.contact ∈ s.currentContacts ∧ key r = contactEid s.contacts rc.contact ∧ key r ≠ eidNone
  active : ∀ r ∈ s.router.routerContacts, ∀ rc, s.router.contacts.cells r = some rc →
    some rc.contact ≠ pending → ∀ k, s.contacts.cells rc.contact = some k → k.active = true

theorem contactEid_of {contacts : Heap Contact} {c : Addr} {k : Contact}
    (h : contacts.cells c = some k) : contactEid contacts c = k.node.eid := by
  simp [contactEid, h]

theorem contactEid_set (contacts : Heap Contact) (c : Addr) (k : Contact) (x : Addr) :
    contactEid (contacts.set c k) x = if x = c then k.node.eid else contactEid contacts x := by
  by_cases hxc : x = c <;> simp [contactEid, hxc]

section
variable {s s' : ContactManager} {l : List Addr} {key : Addr → CStr} {env : CmEnv} {c : Addr}

theorem CmInv.held_eq {pending : Ptr} (h : CmInv P s l key pending) :
    s.held = s.currentContacts := by
  unfold ContactManager.held
  rw [h.count, Int.toNat_natCast, List.take_length]

theorem CmInv.unlisted {pending : Ptr} (h : CmInv P s l key pending) (hne : some c ≠ pending)
    {k : Contact} (hk : s.contacts.cells c = some k) (hoff : k.active = false) :
    Unlisted s c := by
  intro r hr rc hrc hcontact
  subst hcontact
  rw [h.active r hr rc hrc hne k hk] at hoff
  cases hoff

/-- Another contact with the same EID has none. -/
theorem CmInv.eid_other {pending : Ptr} (h : CmInv P s l key pending)
    (hc : c ∈ s.currentContacts) {x : Addr} (hx : x ∈ s.currentContacts) (hxc : x ≠ c)
    (heid : contactEid s.contacts x = contactEid s.contacts c) :
    contactEid s.contacts c = eidNone := by
  by_contra hne
  exact hxc (h.eids x hx c hc heid (heid ▸ hne))

/-- The contact `c` changes to `k`. -/
theorem CmInv.setContact (h : CmInv P s l key none) {k : Contact} {pending : Ptr}
    (hsame : ∀ r ∈ s.router.routerContacts, ∀ rc, s.router.contacts.cells r = some rc →
      rc.contact = c → key r = k.node.eid ∧ (some c ≠ pending → k.active = true))
    (hother : ∀ x ∈ s.currentContacts, x ≠ c → contactEid s.contacts x = k.node.eid →
      k.node.eid = eidNone) :
    CmInv P { s with contacts := s.contacts.set c k } l key pending := by
  refine ⟨h.router, h.count, h.small, h.nodup, ?_, ?_, ?_, ?_⟩
  · intro x hx
    by_cases hxc : x = c
    · exact ⟨k, by simp [hxc]⟩
    · obtain ⟨kx, hkx⟩ := h.live x hx
      exact ⟨kx, by simp [hxc, hkx]⟩
  · intro x hx y hy
    simp only [contactEid_set]
    by_cases hxc : x = c
    · by_cases hyc : y = c
      · intro _ _
        rw [hxc, hyc]
      · rw [if_pos hxc, if_neg hyc]
        intro heq hne
        exact absurd (hother y hy hyc heq.symm) hne
    · by_cases hyc : y = c
      · rw [if_neg hxc, if_pos hyc]
        intro heq hne
        exact absurd (heq.trans (hother x hx hxc heq)) hne
      · rw [if_neg hxc, if_neg hyc]
        exact h.eids x hx y hy
  · intro r hr rc hrc
    obtain ⟨hmem, hkey, hne⟩ := h.entries r hr rc hrc
    refine ⟨hmem, ?_, hne⟩
    rw [contactEid_set]
    by_cases hrcc : rc.contact = c
    · rw [if_pos hrcc]
      exact (hsame r hr rc hrc hrcc).1
    · rw [if_neg hrcc]
      exact hkey
  · intro r hr rc hrc hpend kx hkx
    by_cases hrcc : rc.contact = c
    · obtain rfl : k = kx := by simpa [hrcc] using hkx
      exact (hsame r hr rc hrc hrcc).2 (hrcc ▸ hpend)
    · exact h.active r hr rc hrc (by simp) kx (by simpa [hrcc] using hkx)

/-- **An event** about a contact brings the router up to date with its flag. -/
theorem onEvent_inv (h : CmInv P s l key (some c)) (hc : c ∈ s.currentContacts)
    (hrun : onEvent P env s c = .ok s') :
    ∃ l' key' router, s' = { s with router } ∧ CmInv P s' l' key' none := by
  obtain ⟨k, hload, hrest⟩ := bind_eq_ok.mp hrun
  obtain ⟨⟨router, out⟩, hevent, hret⟩ := bind_eq_ok.mp hrest
  cases hret
  have hk := Heap.load_eq_ok.mp hload
  have heid : contactEid s.contacts c = k.node.eid := contactEid_of hk
  have hact : (RouterAct.contactEvent c k.active (env.routerMem s.router.contacts)).run P
      s.router (env.routerEnv s.contacts) = .ok (router, out) := hevent
  have hen : (RouterAct.contactEvent c k.active
      (env.routerMem s.router.contacts)).Enabled s.router := env.routerMem_free s.router.contacts
  obtain ⟨l', key', hinv, hchange⟩ := act_change h.router hen hact
  refine ⟨l', key', router, rfl, ?_⟩
  cases hchange with
  | contactEvent hcontact _ =>
  cases hcontact with
  | same hwhy =>
      refine ⟨hinv, h.count, h.small, h.nodup, h.live, h.eids, h.entries, ?_⟩
      intro r hr rc hrc _ kx hkx
      by_cases hrcc : rc.contact = c
      · obtain ⟨_, hkey, hne⟩ := h.entries r hr rc hrc
        rw [hrcc] at hkey hkx
        obtain rfl : k = kx := Option.some.inj (hk.symm.trans hkx)
        rcases hwhy with hnone | hlook | hon
        · exact absurd (hkey.trans hnone) hne
        · have hfound := (h.router.table.lookup (key r) r).mpr ⟨hr, rfl⟩
          rw [hkey] at hfound
          exact absurd (hfound.symm.trans hlook) (by simp)
        · exact hon
      · exact h.active r hr rc hrc (by simpa using hrcc) kx hkx
  | @added _ r₀ hon hne hlook hfree harr hcont _ _ _ =>
      have hold : ∀ r ∈ router.routerContacts, r ≠ r₀ → r ∈ s.router.routerContacts := by
        intro r hr hrr
        rw [harr] at hr
        simpa [hrr] using hr
      refine ⟨hinv, h.count, h.small, h.nodup, h.live, h.eids, ?_, ?_⟩
      · intro r hr rc hrc
        change router.contacts.cells r = some rc at hrc
        rw [hcont] at hrc
        by_cases hrr : r = r₀
        · obtain rfl : _ = rc := by simpa [hrr] using hrc
          rw [hrr, Function.update_self]
          exact ⟨hc, rfl, hne⟩
        · rw [Function.update_of_ne hrr]
          exact h.entries r (hold r hr hrr) rc (by simpa [hrr] using hrc)
      · intro r hr rc hrc _ kx hkx
        change router.contacts.cells r = some rc at hrc
        rw [hcont] at hrc
        by_cases hrcc : rc.contact = c
        · rw [hrcc] at hkx
          obtain rfl : k = kx := Option.some.inj (hk.symm.trans hkx)
          exact hon
        · have hrr : r ≠ r₀ := by
            intro hrr
            obtain rfl : _ = rc := by simpa [hrr] using hrc
            exact hrcc rfl
          exact h.active r (hold r hr hrr) rc (by simpa [hrr] using hrc) (by simpa using hrcc)
            kx hkx
  | @removed _ r₀ hoff hne hlook hmem hcont _ _ _ =>
      have hback : ∀ r ∈ router.routerContacts, ∀ rc, router.contacts.cells r = some rc →
          r ∈ s.router.routerContacts ∧ r ≠ r₀ ∧
            ∃ rc', s.router.contacts.cells r = some rc' ∧ rc'.contact = rc.contact := by
        intro r hr rc hrc
        obtain ⟨hrmem, hrr⟩ := (hmem r).mp hr
        obtain ⟨rc', hrc'⟩ := h.router.table.live r hrmem
        obtain ⟨i, hi⟩ := hcont r hrr rc' hrc'
        obtain rfl : _ = rc := Option.some.inj (hi.symm.trans hrc)
        exact ⟨hrmem, hrr, rc', hrc', rfl⟩
      refine ⟨hinv, h.count, h.small, h.nodup, h.live, h.eids, ?_, ?_⟩
      · intro r hr rc hrc
        obtain ⟨hrmem, _, rc', hrc', hsame⟩ := hback r hr rc hrc
        rw [← hsame]
        exact h.entries r hrmem rc' hrc'
      · intro r hr rc hrc _ kx hkx
        obtain ⟨hrmem, hrr, rc', hrc', hsame⟩ := hback r hr rc hrc
        by_cases hrcc : rc'.contact = c
        · -- The entry of the contact is the one that was removed.
          obtain ⟨_, hkey, _⟩ := h.entries r hrmem rc' hrc'
          rw [hrcc] at hkey
          have hfound := (h.router.table.lookup (key r) r).mpr ⟨hrmem, rfl⟩
          rw [hkey] at hfound
          exact absurd (Option.some.inj (hfound.symm.trans hlook)) hrr
        · exact h.active r hrmem rc' hrc' (by simpa using hrcc) kx (by rw [hsame]; exact hkx)

theorem CmInv.mono (h : CmInv P s l key none) (pending : Ptr) : CmInv P s l key pending :=
  ⟨h.router, h.count, h.small, h.nodup, h.live, h.eids, h.entries,
    fun r hr rc hrc _ => h.active r hr rc hrc (by simp)⟩

/-! ## Searching -/

theorem findContact_some {contacts : Heap Contact} {p : Contact → Bool} {cs : List Addr}
    (h : findContact contacts p cs = .ok (some c)) :
    c ∈ cs ∧ ∃ k, contacts.cells c = some k ∧ p k = true := by
  induction cs with
  | nil => cases h
  | cons x cs ih =>
      obtain ⟨k, hload, hrest⟩ := bind_eq_ok.mp h
      split at hrest
      · next hp =>
        cases hrest
        exact ⟨List.mem_cons_self, k, Heap.load_eq_ok.mp hload, hp⟩
      · obtain ⟨hmem, hk⟩ := ih hrest
        exact ⟨List.mem_cons_of_mem _ hmem, hk⟩

theorem findContact_none {contacts : Heap Contact} {p : Contact → Bool} {cs : List Addr}
    (h : findContact contacts p cs = .ok none) :
    ∀ c ∈ cs, ∃ k, contacts.cells c = some k ∧ p k = false := by
  induction cs with
  | nil =>
      intro c hc
      cases hc
  | cons x cs ih =>
      obtain ⟨k, hload, hrest⟩ := bind_eq_ok.mp h
      split at hrest
      · cases hrest
      · next hp =>
        intro c hc
        rcases List.mem_cons.mp hc with rfl | hc
        · exact ⟨k, Heap.load_eq_ok.mp hload, by simpa using hp⟩
        · exact ih hrest c hc

theorem CmInv.found {pending : Ptr} (h : CmInv P s l key pending) {p : Contact → Bool}
    (hfind : findContact s.contacts p s.held.reverse = .ok (some c)) :
    c ∈ s.currentContacts ∧ ∃ k, s.contacts.cells c = some k ∧ p k = true := by
  rw [h.held_eq] at hfind
  obtain ⟨hmem, hk⟩ := findContact_some hfind
  exact ⟨List.mem_reverse.mp hmem, hk⟩

/-- A new EID: no contact that is held has it. -/
theorem CmInv.new_eid {pending : Ptr} (h : CmInv P s l key pending) {eid : CStr}
    (hfind : findContactInfoByEid s eid = .ok none) :
    ∀ x ∈ s.currentContacts, contactEid s.contacts x = eid → eid = eidNone := by
  intro x hx heid
  unfold findContactInfoByEid at hfind
  split at hfind
  · next hnone => exact hnone
  · rw [h.held_eq] at hfind
    obtain ⟨k, hk, hp⟩ := findContact_none hfind x (List.mem_reverse.mpr hx)
    rw [contactEid_of hk] at heid
    simp [heid] at hp

/-! ## The parts of the events -/

/-- The flag of a contact is set. -/
theorem setActive_inv (h : CmInv P s l key none) (hc : c ∈ s.currentContacts) {active : Bool}
    (hrun : setActive P env s c active = .ok s') :
    ∃ l' key', CmInv P s' l' key' none ∧ s'.currentContacts = s.currentContacts ∧
      ∃ k, s'.contacts.cells c = some k ∧ k.active = active := by
  obtain ⟨k, hload, hrest⟩ := bind_eq_ok.mp hrun
  have hk := Heap.load_eq_ok.mp hload
  split at hrest
  · next hsame =>
    cases hrest
    exact ⟨l, key, h, rfl, k, hk, hsame⟩
  · have hset :
        CmInv P { s with contacts := s.contacts.set c { k with active } } l key (some c) := by
      apply h.setContact
      · intro r hr rc hrc hrcc
        obtain ⟨_, hkey, _⟩ := h.entries r hr rc hrc
        rw [hrcc, contactEid_of hk] at hkey
        exact ⟨hkey, fun hne => absurd rfl hne⟩
      · intro x hx hxc heid
        rw [← contactEid_of hk] at heid
        rw [← h.eid_other hc hx hxc heid, contactEid_of hk]
    obtain ⟨l', key', router, rfl, hinv⟩ := onEvent_inv hset (by exact hc) hrest
    exact ⟨l', key', hinv, rfl, { k with active }, by simp, rfl⟩

/-- A contact gets another node, with the same EID unless it is unlisted. -/
theorem swapNode_inv (h : CmInv P s l key none) (hc : c ∈ s.currentContacts) {node : Node}
    (hlisted : Unlisted s c ∨ contactEid s.contacts c = node.eid)
    (hnew : ∀ x ∈ s.currentContacts, x ≠ c → contactEid s.contacts x = node.eid →
      node.eid = eidNone)
    (hrun : swapNode P env s c node = .ok s') : ∃ l' key', CmInv P s' l' key' none := by
  obtain ⟨contacts, hmodify, hrest⟩ := bind_eq_ok.mp hrun
  obtain ⟨k, hk, rfl⟩ := Heap.modify_eq_ok.mp hmodify
  let k' : Contact := { k with node, toTime := max k.toTime env.now }
  have hset : CmInv P { s with contacts := s.contacts.set c k' } l key (some c) := by
    apply h.setContact
    · intro r hr rc hrc hrcc
      rcases hlisted with hun | heid
      · exact absurd hrcc (hun r hr rc hrc)
      · obtain ⟨_, hkey, _⟩ := h.entries r hr rc hrc
        rw [hrcc, heid] at hkey
        exact ⟨hkey, fun hne => absurd rfl hne⟩
    · exact hnew
  obtain ⟨l', key', router, rfl, hinv⟩ := onEvent_inv hset (by exact hc) hrest
  exact ⟨l', key', hinv⟩

/-- A contact is created. -/
theorem addContact_inv (h : CmInv P s l key none) {node : Node}
    (hroom : s.currentContactCount < 127)
    (hnew : ∀ x ∈ s.currentContacts, contactEid s.contacts x = node.eid → node.eid = eidNone)
    (hrun : addContact P env s node = .ok s') : ∃ l' key', CmInv P s' l' key' none := by
  have hcount := h.count
  unfold addContact at hrun
  rw [if_pos (by unfold maxConcurrentContacts; omega), if_neg (by omega)] at hrun
  split at hrun
  · cases hrun
    exact ⟨l, key, h⟩
  · next c hmem =>
    have hfree := env.contactMem_free _ _ hmem
    have hfresh : ∀ x ∈ s.currentContacts, x ≠ c := by
      intro x hx hxc
      obtain ⟨k, hk⟩ := h.live x hx
      rw [hxc, hfree] at hk
      cases hk
    rw [h.held_eq] at hrun
    have hset : CmInv P { s with
        contacts := s.contacts.set c ⟨node, env.now, false⟩
        currentContacts := s.currentContacts ++ [c]
        currentContactCount := int8 (s.currentContactCount + 1) } l key (some c) := by
      refine ⟨h.router, ?_, ?_, ?_, ?_, ?_, ?_, ?_⟩
      · change int8 (s.currentContactCount + 1) = _
        rw [int8_of_small (by omega) (by omega), hcount, List.length_append,
          List.length_singleton, Int.natCast_succ]
      · rw [List.length_append, List.length_singleton]
        omega
      · apply List.Nodup.append h.nodup (List.nodup_singleton c)
        simpa using fun hmem => hfresh c hmem rfl
      · intro x hx
        by_cases hxc : x = c
        · exact ⟨⟨node, env.now, false⟩, by simp [hxc]⟩
        · obtain ⟨k, hk⟩ := h.live x (by simpa [hxc] using hx)
          exact ⟨k, by simp [hxc, hk]⟩
      · intro x hx y hy
        simp only [contactEid_set]
        by_cases hxc : x = c
        · by_cases hyc : y = c
          · intro _ _
            rw [hxc, hyc]
          · rw [if_pos hxc, if_neg hyc]
            intro heq hne
            exact absurd (hnew y (by simpa [hyc] using hy) heq.symm) hne
        · by_cases hyc : y = c
          · rw [if_neg hxc, if_pos hyc]
            intro heq hne
            exact absurd (heq.trans (hnew x (by simpa [hxc] using hx) heq)) hne
          · rw [if_neg hxc, if_neg hyc]
            exact h.eids x (by simpa [hxc] using hx) y (by simpa [hyc] using hy)
      · intro r hr rc hrc
        obtain ⟨hmem', hkey, hne⟩ := h.entries r hr rc hrc
        refine ⟨List.mem_append_left _ hmem', ?_, hne⟩
        rw [contactEid_set, if_neg (hfresh _ hmem')]
        exact hkey
      · intro r hr rc hrc _ k hk
        obtain ⟨hmem', _⟩ := h.entries r hr rc hrc
        exact h.active r hr rc hrc (by simp) k (by simpa [hfresh _ hmem'] using hk)
    obtain ⟨l', key', router, rfl, hinv⟩ := onEvent_inv hset (by simp) hrun
    exact ⟨l', key', hinv⟩

/-! ## The events -/

/-- **Discovery.** -/
theorem handleDiscoveredNeighbor_inv (h : CmInv P s l key none) {node : Node}
    (hsteady : Steady s (.discovered node))
    (hrun : handleDiscoveredNeighbor P env s node = .ok s') :
    ∃ l' key', CmInv P s' l' key' none := by
  obtain ⟨p, hfind, hrest⟩ := bind_eq_ok.mp hrun
  cases p with
  | some c =>
      have hfind' : findContact s.contacts (fun k => k.node.eid = node.eid) s.held.reverse =
          .ok (some c) := by
        unfold findContactInfoByEid at hfind
        split at hfind
        · cases hfind
        · exact hfind
      obtain ⟨hc, k, hk, hp⟩ := h.found hfind'
      have heid : contactEid s.contacts c = node.eid := by
        rw [contactEid_of hk]
        simpa using hp
      refine swapNode_inv h hc (Or.inr heid) ?_ hrest
      intro x hx hxc hxeid
      rw [← heid]
      exact h.eid_other hc hx hxc (hxeid.trans heid.symm)
  | none =>
      obtain ⟨hlisted, hroom⟩ := hsteady hfind
      obtain ⟨q, hfind', hrest'⟩ := bind_eq_ok.mp hrest
      cases q with
      | some c =>
          obtain ⟨hc, _⟩ := h.found hfind'
          exact swapNode_inv h hc (Or.inl (hlisted c hfind'))
            (fun x hx _ heid => h.new_eid hfind x hx heid) hrest'
      | none => exact addContact_inv h (hroom hfind') (h.new_eid hfind) hrest'

/-- A contact for an address: found, or created. -/
theorem findOrAdd_inv (h : CmInv P s l key none) {claAddr : CStr} {p : Ptr}
    (hroom : findContactInfoByClaAddr s claAddr = .ok none → s.currentContactCount < 127)
    (hrun : findOrAdd P env s claAddr = .ok (s', p)) :
    ∃ l' key', CmInv P s' l' key' none ∧ ∀ c, p = some c → c ∈ s'.currentContacts := by
  obtain ⟨q, hfind, hrest⟩ := bind_eq_ok.mp hrun
  cases q with
  | some c =>
      cases hrest
      refine ⟨l, key, h, ?_⟩
      intro x hx
      cases hx
      exact (h.found hfind).1
  | none =>
      obtain ⟨s₁, hmissing, hrest⟩ := bind_eq_ok.mp hrest
      have hinv₁ : ∃ l₁ key₁, CmInv P s₁ l₁ key₁ none := by
        unfold handleMissingClaAddress at hmissing
        split at hmissing
        · obtain ⟨_, _, hdisc⟩ := bind_eq_ok.mp hmissing
          refine handleDiscoveredNeighbor_inv h ?_ hdisc
          intro _
          refine ⟨?_, hroom⟩
          intro c hc
          cases hfind.symm.trans hc
        · cases hmissing
          exact ⟨l, key, h⟩
      obtain ⟨l₁, key₁, h₁⟩ := hinv₁
      obtain ⟨q, hfind', hrest⟩ := bind_eq_ok.mp hrest
      cases q with
      | none =>
          cases hrest
          exact ⟨l₁, key₁, h₁, by simp⟩
      | some c =>
          obtain ⟨s₂, hevent, hret⟩ := bind_eq_ok.mp hrest
          cases hret
          have hc := (h₁.found hfind').1
          obtain ⟨l₂, key₂, router, rfl, h₂⟩ := onEvent_inv (h₁.mono (some c)) hc hevent
          refine ⟨l₂, key₂, h₂, ?_⟩
          intro x hx
          cases hx
          exact hc

/-- **Connections** that come up or go down. -/
theorem handleConn_inv (h : CmInv P s l key none) {claAddr : CStr} {active : Bool}
    (hroom : findContactInfoByClaAddr s claAddr = .ok none → s.currentContactCount < 127)
    (hrun : handleConn P env s claAddr active = .ok s') :
    ∃ l' key', CmInv P s' l' key' none := by
  obtain ⟨⟨s₁, p⟩, hfind, hrest⟩ := bind_eq_ok.mp hrun
  obtain ⟨l₁, key₁, h₁, hmem⟩ := findOrAdd_inv h hroom hfind
  cases p with
  | none =>
      cases hrest
      exact ⟨l₁, key₁, h₁⟩
  | some c =>
      obtain ⟨l₂, key₂, h₂, _⟩ := setActive_inv h₁ (hmem c rfl) hrest
      exact ⟨l₂, key₂, h₂⟩

/-- The first loop of the expiry pass. -/
theorem refreshActive_inv {now : Nat} {cs : List Addr} {contacts : Heap Contact}
    (h : CmInv P s l key none) (hcs : ∀ c ∈ cs, c ∈ s.currentContacts)
    (hrun : refreshActive now s.contacts cs = .ok contacts) :
    CmInv P { s with contacts } l key none := by
  induction cs generalizing s with
  | nil =>
      cases hrun
      exact h
  | cons c cs ih =>
      obtain ⟨contacts₁, hmodify, hrest⟩ := bind_eq_ok.mp hrun
      obtain ⟨k, hk, rfl⟩ := Heap.modify_eq_ok.mp hmodify
      have hsame : ∀ k : Contact, (if k.active then { k with toTime := max now k.toTime } else k :
          Contact).node = k.node ∧ (if k.active then { k with toTime := max now k.toTime } else k :
          Contact).active = k.active := by
        intro k
        split <;> exact ⟨rfl, rfl⟩
      obtain ⟨hnode, hactive⟩ := hsame k
      have hc := hcs c List.mem_cons_self
      refine ih (s := { s with contacts := s.contacts.set c _ }) ?_
        (fun x hx => hcs x (List.mem_cons_of_mem _ hx)) hrest
      apply h.setContact
      · intro r hr rc hrc hrcc
        obtain ⟨_, hkey, _⟩ := h.entries r hr rc hrc
        rw [hrcc, contactEid_of hk] at hkey
        rw [hnode, hactive]
        exact ⟨hkey, fun _ => h.active r hr rc hrc (by simp) k (hrcc ▸ hk)⟩
      · intro x hx hxc heid
        rw [hnode, ← contactEid_of hk] at heid ⊢
        exact h.eid_other hc hx hxc heid

/-- An unlisted contact leaves the array. -/
theorem CmInv.remove (h : CmInv P s l key none) {i : Nat} (hi : s.currentContacts[i]? = some c)
    (hun : Unlisted s c) :
    CmInv P { s with
      currentContacts := s.currentContacts.eraseIdx i
      currentContactCount := int8 (s.currentContactCount - 1) } l key none ∧
    c ∉ s.currentContacts.eraseIdx i := by
  obtain ⟨hilt, hget⟩ := List.getElem?_eq_some_iff.mp hi
  have hcount := h.count
  have hsmall := h.small
  have herase : s.currentContacts.eraseIdx i = s.currentContacts.erase c := by
    rw [← hget]
    exact (h.nodup.erase_getElem i hilt).symm
  have hmem : ∀ x, x ∈ s.currentContacts.eraseIdx i ↔ x ∈ s.currentContacts ∧ x ≠ c := by
    intro x
    rw [herase, h.nodup.mem_erase_iff]
    exact and_comm
  refine ⟨⟨h.router, ?_, ?_, ?_, ?_, ?_, ?_, ?_⟩, ?_⟩
  · change int8 (s.currentContactCount - 1) = _
    rw [int8_of_small (by omega) (by omega), hcount, List.length_eraseIdx_of_lt hilt]
    omega
  · rw [List.length_eraseIdx_of_lt hilt]
    omega
  · rw [herase]
    exact h.nodup.erase c
  · intro x hx
    exact h.live x ((hmem x).mp hx).1
  · intro x hx y hy
    exact h.eids x ((hmem x).mp hx).1 y ((hmem y).mp hy).1
  · intro r hr rc hrc
    obtain ⟨hcm, hkey⟩ := h.entries r hr rc hrc
    exact ⟨(hmem _).mpr ⟨hcm, hun r hr rc hrc⟩, hkey⟩
  · exact h.active
  · intro hc
    exact ((hmem c).mp hc).2 rfl

/-- The second loop of the expiry pass. -/
theorem removeExpiredLoop_inv {i : Nat} {removed : List Addr} (h : CmInv P s l key none)
    (hrun : removeExpiredLoop P env i s = .ok (s', removed)) :
    ∃ l' key', CmInv P s' l' key' none ∧ (∀ c ∈ removed, c ∉ s'.currentContacts) ∧
      ∀ c ∈ s'.currentContacts, c ∈ s.currentContacts := by
  induction i generalizing s l key removed with
  | zero =>
      cases hrun
      exact ⟨l, key, h, by simp, fun c hc => hc⟩
  | succ i ih =>
      unfold removeExpiredLoop at hrun
      split at hrun
      · cases hrun
      · next c hi =>
        have hc := List.mem_of_getElem? hi
        obtain ⟨k, _, hrest⟩ := bind_eq_ok.mp hrun
        split at hrest
        · obtain ⟨s₁, hoff, hrest⟩ := bind_eq_ok.mp hrest
          obtain ⟨l₁, key₁, h₁, hcc₁, k₁, hk₁, hflag⟩ := setActive_inv h hc hoff
          obtain ⟨s₂, hevent, hrest⟩ := bind_eq_ok.mp hrest
          obtain ⟨l₂, key₂, router, rfl, h₂⟩ :=
            onEvent_inv (h₁.mono (some c)) (hcc₁ ▸ hc) hevent
          have hi₂ : s₁.currentContacts[i]? = some c := hcc₁ ▸ hi
          obtain ⟨h₃, hgone⟩ := h₂.remove hi₂ (h₂.unlisted (by simp) hk₁ hflag)
          obtain ⟨⟨s₄, rest⟩, hloop, hret⟩ := bind_eq_ok.mp hrest
          cases hret
          obtain ⟨l₄, key₄, h₄, hfree, hsub⟩ := ih h₃ hloop
          refine ⟨l₄, key₄, h₄, ?_, ?_⟩
          · intro x hx
            rcases List.mem_cons.mp hx with rfl | hx
            · exact fun hmem => hgone (hsub x hmem)
            · exact hfree x hx
          · intro x hx
            rw [← hcc₁]
            exact List.mem_of_mem_eraseIdx (hsub x hx)
        · exact ih h hrest

/-- Freeing contacts that are not held any more. -/
theorem freeContacts_inv {cs : List Addr} {contacts : Heap Contact} (h : CmInv P s l key none)
    (hcs : ∀ c ∈ cs, c ∉ s.currentContacts)
    (hrun : freeContacts s.contacts cs = .ok contacts) :
    CmInv P { s with contacts } l key none := by
  induction cs generalizing s with
  | nil =>
      cases hrun
      exact h
  | cons c cs ih =>
      obtain ⟨contacts₁, hrelease, hrest⟩ := bind_eq_ok.mp hrun
      obtain ⟨_, rfl⟩ := Heap.release_eq_ok.mp hrelease
      have hne : ∀ x ∈ s.currentContacts, x ≠ c := by
        intro x hx hxc
        exact hcs c List.mem_cons_self (hxc ▸ hx)
      have hkeep : ∀ x ∈ s.currentContacts, (s.contacts.erase c).cells x = s.contacts.cells x := by
        intro x hx
        simp [hne x hx]
      have heid : ∀ x ∈ s.currentContacts,
          contactEid (s.contacts.erase c) x = contactEid s.contacts x := by
        intro x hx
        simp [contactEid, hne x hx]
      refine ih (s := { s with contacts := s.contacts.erase c }) ?_
        (fun x hx => hcs x (List.mem_cons_of_mem _ hx)) hrest
      refine ⟨h.router, h.count, h.small, h.nodup, ?_, ?_, ?_, ?_⟩
      · intro x hx
        obtain ⟨k, hk⟩ := h.live x hx
        exact ⟨k, (hkeep x hx).trans hk⟩
      · intro x hx y hy
        rw [heid x hx, heid y hy]
        exact h.eids x hx y hy
      · intro r hr rc hrc
        obtain ⟨hmem, hkey, hno⟩ := h.entries r hr rc hrc
        exact ⟨hmem, hkey.trans (heid _ hmem).symm, hno⟩
      · intro r hr rc hrc hpend k hk
        obtain ⟨hmem, _⟩ := h.entries r hr rc hrc
        exact h.active r hr rc hrc hpend k ((hkeep _ hmem).symm.trans hk)

/-- **Expiry.** -/
theorem removeAndFreeExpiredContacts_inv (h : CmInv P s l key none)
    (hrun : removeAndFreeExpiredContacts P env s = .ok s') :
    ∃ l' key', CmInv P s' l' key' none := by
  obtain ⟨⟨s₁, removed⟩, hremove, hrest⟩ := bind_eq_ok.mp hrun
  obtain ⟨contacts, hrefresh, hloop⟩ := bind_eq_ok.mp hremove
  have h₀ := refreshActive_inv h (fun c hc => h.held_eq ▸ List.mem_reverse.mp hc) hrefresh
  obtain ⟨l₁, key₁, h₁, hfree, _⟩ := removeExpiredLoop_inv h₀ hloop
  obtain ⟨contacts', hfreed, hret⟩ := bind_eq_ok.mp hrest
  cases hret
  exact ⟨l₁, key₁, freeContacts_inv h₁ hfree hfreed⟩

/-- **One event** that satisfies the condition keeps the invariant. -/
theorem cmStep_inv {op : CmOp} (h : CmInv P s l key none) (hsteady : Steady s op)
    (hrun : cmStep P env s op = .ok s') : ∃ l' key', CmInv P s' l' key' none := by
  cases op with
  | discovered node => exact handleDiscoveredNeighbor_inv h hsteady hrun
  | connUp claAddr => exact handleConn_inv h hsteady hrun
  | connDown claAddr => exact handleConn_inv h hsteady hrun
  | expire => exact removeAndFreeExpiredContacts_inv h hrun

theorem steady_inv (h : CmReachable P Steady s) : ∃ l key, CmInv P s l key none := by
  induction h with
  | init =>
      refine ⟨[], fun _ => [], routerInv_init _, rfl, Nat.zero_le _, List.nodup_nil, ?_, ?_, ?_, ?_⟩
      · intro c hc
        cases hc
      · intro c hc
        cases hc
      · intro r hr
        cases hr
      · intro r hr
        cases hr
  | step _ hsteady hrun ih =>
      obtain ⟨l, key, hinv⟩ := ih
      exact cmStep_inv hinv hsteady hrun

/-- The invariant gives the property. -/
theorem CmInv.tableAgrees (h : CmInv P s l key none) : TableAgrees P s where
  index := h.router.table.index
  lookup := by
    intro eid r
    rw [h.router.table.lookup]
    constructor
    · intro hr
      obtain ⟨rc, hrc⟩ := h.router.table.live r hr.1
      refine ⟨hr.1, rc, hrc, ?_⟩
      rw [← (h.entries r hr.1 rc hrc).2.1]
      exact hr.2
    · intro hr
      obtain ⟨hmem, rc, hrc, heid⟩ := hr
      exact ⟨hmem, (h.entries r hmem rc hrc).2.1.trans heid⟩
  distinct := by
    intro r hr r' hr' rc rc' hrc hrc' hsame
    apply h.router.table.key_inj hr hr'
    rw [(h.entries r hr rc hrc).2.1, (h.entries r' hr' rc' hrc').2.1, hsame]
  held := by
    intro r hr
    obtain ⟨rc, hrc⟩ := h.router.table.live r hr
    obtain ⟨hmem, _⟩ := h.entries r hr rc hrc
    obtain ⟨k, hk⟩ := h.live _ hmem
    exact ⟨rc, k, hrc, h.held_eq ▸ hmem, hk, h.active r hr rc hrc (by simp) k hk⟩

end

/-- **The contact table.**  In every run whose events satisfy the condition, array and
hash table of the router describe the same set of held, active contacts. -/
theorem steady_contact_table {s : ContactManager} (h : CmReachable P Steady s) :
    TableAgrees P s := by
  obtain ⟨l, key, hinv⟩ := steady_inv h
  exact hinv.tableAgrees

/-- An environment with enough memory. -/
def demoCmEnv : CmEnv where
  now := 5
  routerMem h := some h.bound
  routerMem_free := by
    intro h a ha
    cases ha
    exact h.free_above _ (Nat.le_refl _)
  contactMem h := some h.bound
  contactMem_free := by
    intro h a ha
    cases ha
    exact h.free_above _ (Nat.le_refl _)
  nodeMem := true
  textMem := true
  svOk := true

theorem CmReachable.next {Q : ContactManager → CmOp → Prop} {s s' : ContactManager}
    (h : CmReachable P Q s) (env : CmEnv) (op : CmOp) (hQ : Q s op)
    (hrun : cmStep P env s op = .ok s') : CmReachable P Q s' :=
  .step h hQ hrun

/-- A neighbour is discovered and its connection comes up. -/
theorem steady_contact_table_connected : ∃ s, CmReachable demoParams Steady s ∧
    s.router.routerContacts = [0] ∧ TableAgrees demoParams s := by
  have hrun : ∃ s, CmReachable demoParams Steady s ∧ s.router.routerContacts = [0] := by
    have hfound := (CmReachable.init (P := demoParams) (Q := Steady)).next demoCmEnv
      (.discovered ⟨"dtn://a".toList, "mac:a".toList⟩)
      (by
        intro _
        refine ⟨?_, fun _ => by decide⟩
        intro c hc
        cases hc) rfl
    exact ⟨_, hfound.next demoCmEnv (.connUp "mac:a".toList) (by intro h; cases h) rfl, rfl⟩
  obtain ⟨s, hreach, harr⟩ := hrun
  exact ⟨s, hreach, harr, steady_contact_table hreach⟩

/-- **The table can disagree.**  A connected neighbour is discovered again, under the
same address and with another EID: the contact now has two entries, and the hash
table finds one of them under an EID that the contact does not have. -/
theorem neighbour_renamed_twice_listed :
    ¬ ∀ s, CmReachable demoParams (fun _ _ => True) s → TableAgrees demoParams s := by
  intro hagrees
  have hrun : ∃ s, CmReachable demoParams (fun _ _ => True) s ∧
      s.router.routerContacts = [0, 1] ∧
      (s.router.contacts.cells 0).map (·.contact) = some 0 ∧
      (s.router.contacts.cells 1).map (·.contact) = some 0 := by
    have hup := ((CmReachable.init (P := demoParams) (Q := fun _ _ => True)).next demoCmEnv
      (.discovered ⟨"dtn://a".toList, "mac:a".toList⟩) trivial rfl).next demoCmEnv
      (.connUp "mac:a".toList) trivial rfl
    exact ⟨_, hup.next demoCmEnv (.discovered ⟨"dtn://b".toList, "mac:a".toList⟩) trivial rfl,
      rfl, rfl, rfl⟩
  obtain ⟨s, hreach, harr, h₀, h₁⟩ := hrun
  obtain ⟨rc₀, hrc₀, hc₀⟩ := Option.map_eq_some_iff.mp h₀
  obtain ⟨rc₁, hrc₁, hc₁⟩ := Option.map_eq_some_iff.mp h₁
  have hsame := (hagrees s hreach).distinct 0 (by simp [harr]) 1 (by simp [harr]) rc₀ rc₁ hrc₀ hrc₁
    (hc₀.trans hc₁.symm)
  exact absurd hsame (by decide)

end EpidemicRouter
