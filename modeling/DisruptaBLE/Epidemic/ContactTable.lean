import DisruptaBLE.Epidemic.BundleList

/-!
# The contact table of the router

The array `router_contacts` and the hash table of the router describe the same
set of router contacts, under the key that each contact had when it was added.
`TableInv` says so; `routerHandleContactEvent_spec` says what a contact event
does to the table.

The key of a contact is a ghost: the source keeps it in the hash table only.
-/

namespace EpidemicRouter

open PtrHeap

/-- **The table.**  The entries of the array are in memory and know their index;
the hash table maps a key to an entry exactly if it is an entry of the array with
this key; the array has as many places as the hash table has slots. -/
structure TableInv (P : RouterParams) (s : Router) (key : Addr → CStr) : Prop where
  live : ∀ c ∈ s.routerContacts, ∃ rc, s.contacts.cells c = some rc
  index : ∀ i c rc, s.routerContacts[i]? = some c → s.contacts.cells c = some rc → rc.index = i
  lookup : ∀ k c, s.htab.lookup P.hash k = some c ↔ c ∈ s.routerContacts ∧ key c = k
  slots : s.htab.slotCount = P.btMaxConn - 1
  capacity : s.routerContacts.length ≤ P.btMaxConn - 1

variable {P : RouterParams}

theorem tableInv_init (key : Addr → CStr) : TableInv P (routerInit P) key where
  live c hc := by cases hc
  index i c rc hc _ := by cases hc
  lookup k c := by simp [routerInit]
  slots := rfl
  capacity := Nat.zero_le _

/-- The array has no entry twice. -/
theorem TableInv.index_unique {s : Router} {key : Addr → CStr} (h : TableInv P s key)
    {i j : Nat} {c : Addr} (hi : s.routerContacts[i]? = some c)
    (hj : s.routerContacts[j]? = some c) : i = j := by
  obtain ⟨rc, hrc⟩ := h.live c (List.mem_of_getElem? hi)
  exact (h.index i c rc hi hrc).symm.trans (h.index j c rc hj hrc)

/-- Changes that keep the array, the hash table and the indexes keep the table. -/
theorem TableInv.frame {s s' : Router} {key : Addr → CStr} (h : TableInv P s key)
    (harr : s'.routerContacts = s.routerContacts) (hhtab : s'.htab = s.htab)
    (hsame : ∀ c ∈ s.routerContacts, ∀ rc, s.contacts.cells c = some rc →
      ∃ rc', s'.contacts.cells c = some rc' ∧ rc'.index = rc.index) :
    TableInv P s' key := by
  refine ⟨?_, ?_, ?_, ?_, ?_⟩
  · intro c hc
    rw [harr] at hc
    obtain ⟨rc, hrc⟩ := h.live c hc
    obtain ⟨rc', hrc', _⟩ := hsame c hc rc hrc
    exact ⟨rc', hrc'⟩
  · intro i c rc hc hrc
    rw [harr] at hc
    have hmem := List.mem_of_getElem? hc
    obtain ⟨rc₀, hrc₀⟩ := h.live c hmem
    obtain ⟨rc', hrc', hindex⟩ := hsame c hmem rc₀ hrc₀
    obtain rfl : rc' = rc := Option.some.inj (hrc'.symm.trans hrc)
    rw [hindex]
    exact h.index i c rc₀ hc hrc₀
  · rw [harr, hhtab]
    exact h.lookup
  · rw [hhtab]
    exact h.slots
  · rw [harr]
    exact h.capacity

/-- A table without slots has no entries. -/
theorem TableInv.no_contacts {s : Router} {key : Addr → CStr} (h : TableInv P s key)
    (hslots : P.btMaxConn - 1 = 0) : s.routerContacts = [] := by
  have hcap := h.capacity
  rw [hslots] at hcap
  exact List.length_eq_zero_iff.mp (Nat.le_zero.mp hcap)

/-- Distinct entries have distinct keys. -/
theorem TableInv.key_inj {s : Router} {key : Addr → CStr} (h : TableInv P s key) {c c' : Addr}
    (hc : c ∈ s.routerContacts) (hc' : c' ∈ s.routerContacts) (hkey : key c = key c') :
    c = c' := by
  have hlook := (h.lookup (key c) c).mpr ⟨hc, rfl⟩
  have hlook' := (h.lookup (key c) c').mpr ⟨hc', hkey.symm⟩
  exact Option.some.inj (hlook.symm.trans hlook')

/-! ## Removal -/

/-- The array after `closeGap`: shorter by one, with the last entry moved to the
gap. -/
theorem closeGap_spec {contacts : Heap RouterContact} {arr : List Addr} {i : Nat}
    (hi : i < arr.length) (hlive : ∀ c ∈ arr, ∃ rc, contacts.cells c = some rc) :
    ∃ arr' contacts', closeGap contacts arr i = .ok (arr', contacts') ∧
      arr'.length = arr.length - 1 ∧
      (∀ j, j < arr.length - 1 → arr'[j]? = if j = i then arr[arr.length - 1]? else arr[j]?) ∧
      ∀ c rc, contacts.cells c = some rc → contacts'.cells c =
        some (if i < arr.length - 1 ∧ arr[arr.length - 1]? = some c then { rc with index := i }
          else rc) := by
  unfold closeGap
  split
  · next hlt =>
    have hlast : arr.getLast? = arr[arr.length - 1]? := List.getLast?_eq_getElem?
    obtain ⟨z, hz⟩ : ∃ z, arr[arr.length - 1]? = some z :=
      ⟨_, List.getElem?_eq_getElem (by omega)⟩
    obtain ⟨rz, hrz⟩ := hlive z (List.mem_of_getElem? hz)
    refine ⟨(arr.set i z).dropLast, contacts.set z { rz with index := i }, ?_, by simp, ?_, ?_⟩
    · simp [hlast, hz, Heap.modify_cell hrz, pure, Except.pure]
    · intro j hj
      rw [List.getElem?_dropLast, List.length_set, if_pos hj, List.getElem?_set]
      by_cases hji : j = i
      · subst hji
        simp [hi, hz]
      · have hij : ¬ i = j := fun h => hji h.symm
        simp [hij, hji]
    · intro c rc hrc
      rw [hz]
      by_cases hcz : c = z
      · subst hcz
        obtain rfl : rz = rc := Option.some.inj (hrz.symm.trans hrc)
        simp [hlt]
      · have hzc : ¬ z = c := fun h => hcz h.symm
        simp [hcz, hzc, hrc]
  · next hge =>
    refine ⟨arr.dropLast, contacts, rfl, by simp, ?_, ?_⟩
    · intro j hj
      have hji : j ≠ i := by omega
      rw [List.getElem?_dropLast, if_pos hj, if_neg hji]
    · intro c rc hrc
      simp [hge, hrc]

/-- **The removal of a router contact** takes it out of the array and of the hash
table and changes the others in their index only. -/
theorem removeRouterContact_spec {s : Router} {key : Addr → CStr} (h : TableInv P s key)
    (hslots : P.btMaxConn - 1 ≠ 0) {eid : CStr} {c : Addr}
    (hc : s.htab.lookup P.hash eid = some c) :
    ∃ s', removeRouterContact P s eid c = .ok s' ∧ TableInv P s' key ∧
      (∀ x, x ∈ s'.routerContacts ↔ x ∈ s.routerContacts ∧ x ≠ c) ∧
      (∀ x, x ≠ c → ∀ rc, s.contacts.cells x = some rc →
        ∃ i, s'.contacts.cells x = some { rc with index := i }) ∧
      s'.infos = s.infos ∧ s'.head = s.head ∧ s'.tail = s.tail := by
  obtain ⟨hcmem, hkey⟩ := (h.lookup eid c).mp hc
  obtain ⟨rc, hrc⟩ := h.live c hcmem
  obtain ⟨i, hi⟩ := List.mem_iff_getElem?.mp hcmem
  obtain ⟨hilt, _⟩ := List.getElem?_eq_some_iff.mp hi
  have hindex : rc.index = i := h.index i c rc hi hrc
  obtain ⟨arr, contacts, hgap, hlen, harr, hcells⟩ := closeGap_spec hilt h.live
  have hrc' : contacts.cells c = some rc := by
    have hother : ¬ (i < s.routerContacts.length - 1 ∧
        s.routerContacts[s.routerContacts.length - 1]? = some c) := by
      intro hlast
      have := h.index_unique hi hlast.2
      omega
    rw [hcells c rc hrc, if_neg hother]
  let s' : Router := { s with
    htab := s.htab.remove P.hash eid, routerContacts := arr, contacts := contacts.erase c }
  have hmem : ∀ x, x ∈ arr ↔ x ∈ s.routerContacts ∧ x ≠ c := by
    intro x
    rw [List.mem_iff_getElem?]
    constructor
    · intro hx
      obtain ⟨j, hj⟩ := hx
      obtain ⟨hjlt, _⟩ := List.getElem?_eq_some_iff.mp hj
      rw [harr j (by omega)] at hj
      split at hj
      · next hji =>
        refine ⟨List.mem_of_getElem? hj, fun hxc => ?_⟩
        have := h.index_unique hi (hxc ▸ hj)
        omega
      · next hji =>
        refine ⟨List.mem_of_getElem? hj, fun hxc => hji ?_⟩
        exact h.index_unique (hxc ▸ hj) hi
    · intro hx
      obtain ⟨hxmem, hxc⟩ := hx
      obtain ⟨k, hk⟩ := List.mem_iff_getElem?.mp hxmem
      obtain ⟨hklt, _⟩ := List.getElem?_eq_some_iff.mp hk
      have hki : k ≠ i := by
        intro h
        rw [h, hi] at hk
        exact hxc (Option.some.inj hk).symm
      by_cases hlast : k = s.routerContacts.length - 1
      · exact ⟨i, by rw [harr i (by omega), if_pos rfl, ← hlast, hk]⟩
      · exact ⟨k, by rw [harr k (by omega), if_neg hki, hk]⟩
  have hcontacts : ∀ x, x ≠ c → ∀ rx, s.contacts.cells x = some rx →
      ∃ j, s'.contacts.cells x = some { rx with index := j } := by
    intro x hxc rx hrx
    have hx := hcells x rx hrx
    split at hx
    · exact ⟨i, by simp [s', hxc, hx]⟩
    · exact ⟨rx.index, by simp [s', hxc, hx]⟩
  refine ⟨s', ?_, ⟨?_, ?_, ?_, ?_, ?_⟩, hmem, hcontacts, rfl, rfl, rfl⟩
  · have hslots' : s.htab.slotCount ≠ 0 := by rw [h.slots]; exact hslots
    simp [removeRouterContact, htabRemove, hslots', Heap.load_cell hrc, hindex, hgap,
      Heap.release_cell hrc', pure, Except.pure, s']
  · intro x hx
    obtain ⟨hxmem, hxc⟩ := (hmem x).mp hx
    obtain ⟨rx, hrx⟩ := h.live x hxmem
    obtain ⟨j, hj⟩ := hcontacts x hxc rx hrx
    exact ⟨_, hj⟩
  · intro j x rx hx hrx
    have hx : arr[j]? = some x := hx
    obtain ⟨hjlt, _⟩ := List.getElem?_eq_some_iff.mp hx
    obtain ⟨hxmem, hxc⟩ := (hmem x).mp (List.mem_of_getElem? hx)
    obtain ⟨r₀, hr₀⟩ := h.live x hxmem
    have hcell := hcells x r₀ hr₀
    have hrx' : contacts.cells x = some rx := by simpa [s', hxc] using hrx
    rw [hrx'] at hcell
    rw [harr j (by omega)] at hx
    split at hx
    · next hji =>
      rw [if_pos ⟨by omega, hx⟩] at hcell
      obtain rfl := Option.some.inj hcell
      exact hji.symm
    · next hji =>
      have hnot : ¬ (i < s.routerContacts.length - 1 ∧
          s.routerContacts[s.routerContacts.length - 1]? = some x) := by
        intro hlast
        have := h.index_unique hx hlast.2
        omega
      rw [if_neg hnot] at hcell
      obtain rfl := Option.some.inj hcell
      exact h.index j x rx hx hr₀
  · intro k x
    change (s.htab.remove P.hash eid).lookup P.hash k = some x ↔ x ∈ arr ∧ key x = k
    rw [Htab.lookup_remove, hmem x]
    by_cases hk : k = eid
    · subst hk
      simp only [if_true, reduceCtorEq, false_iff]
      intro hx
      have hlook := (h.lookup k x).mpr ⟨hx.1.1, hx.2⟩
      rw [hc] at hlook
      exact hx.1.2 (Option.some.inj hlook).symm
    · rw [if_neg hk, h.lookup k x]
      constructor
      · intro hx
        refine ⟨⟨hx.1, fun hxc => hk ?_⟩, hx.2⟩
        rw [← hx.2, hxc, hkey]
      · intro hx
        exact ⟨hx.1.1, hx.2⟩
  · exact h.slots
  · have hcap := h.capacity
    change arr.length ≤ _
    omega

/-- **The addition of a router contact** under a key that is not in the table. -/
theorem addRouterContact_spec {s : Router} {key : Addr → CStr} {l : List Addr}
    (h : TableInv P s key) (hl : ListInv s l) (hslots : P.btMaxConn - 1 ≠ 0) {env : Env}
    {contact : ContactRef} {c : Addr} (hfresh : s.contacts.cells c = none)
    (hnew : s.htab.lookup P.hash (env.eid contact) = none)
    (hroom : s.routerContacts.length < P.btMaxConn - 1) :
    ∃ s' out, addRouterContact P s env contact c = .ok (s', out) ∧
      TableInv P s' (Function.update key c (env.eid contact)) ∧
      s'.routerContacts = s.routerContacts ++ [c] ∧
      s'.contacts = s.contacts.set c ⟨contact, s.routerContacts.length, none, none, none⟩ ∧
      s'.infos = s.infos ∧ s'.head = s.head ∧ s'.tail = s.tail ∧
      ∀ o ∈ out, ∀ p rb, o ≠ .scheduled p rb := by
  have hcmem : c ∉ s.routerContacts := by
    intro hmem
    obtain ⟨rc, hrc⟩ := h.live c hmem
    rw [hfresh] at hrc
    cases hrc
  let rc : RouterContact := ⟨contact, s.routerContacts.length, none, none, none⟩
  let s' : Router := { s with
    htab := s.htab.add P.hash (env.eid contact) c hnew
    contacts := s.contacts.set c rc
    routerContacts := s.routerContacts ++ [c] }
  have hl' : ListInv s' l := ⟨hl.chain, hl.tail, hl.distinct⟩
  obtain ⟨out, hout, hnone⟩ := sendOfferSv_ok hl' env rc
  refine ⟨s', out, ?_, ⟨?_, ?_, ?_, ?_, ?_⟩, rfl, rfl, rfl, rfl, rfl, hnone⟩
  · have hslots' : s.htab.slotCount ≠ 0 := by rw [h.slots]; exact hslots
    simp only [addRouterContact, htabAdd, hslots', ne_eq, not_false_eq_true, decide_true,
      assertC_true, ok_bind, hnew, dite_true]
    change (sendOfferSv s' env rc >>= fun out => pure (s', out)) = _
    rw [hout]
    rfl
  · intro x hx
    by_cases hxc : x = c
    · exact ⟨rc, by simp [s', hxc]⟩
    · obtain ⟨rx, hrx⟩ := h.live x (by simpa [s', hxc] using hx)
      exact ⟨rx, by simp [s', hxc, hrx]⟩
  · intro i x rx hx hrx
    have hx : (s.routerContacts ++ [c])[i]? = some x := hx
    rw [List.getElem?_append] at hx
    split at hx
    · have hxc : x ≠ c := fun h => hcmem (h ▸ List.mem_of_getElem? hx)
      exact h.index i x rx hx (by simpa [s', hxc] using hrx)
    · next hge =>
      have hi : i - s.routerContacts.length = 0 ∧ c = x := by
        rw [List.getElem?_singleton] at hx
        split at hx
        · next h0 => exact ⟨h0, Option.some.inj hx⟩
        · cases hx
      obtain ⟨h0, rfl⟩ := hi
      obtain rfl : rc = rx := by simpa [s'] using hrx
      change s.routerContacts.length = i
      omega
  · intro k x
    change (s.htab.add P.hash (env.eid contact) c hnew).lookup P.hash k = some x ↔
      x ∈ s.routerContacts ++ [c] ∧ Function.update key c (env.eid contact) x = k
    rw [Htab.lookup_add, List.mem_append, List.mem_singleton]
    by_cases hxc : x = c
    · subst hxc
      have hkx : ∀ k, s.htab.lookup P.hash k ≠ some x := fun k hk =>
        hcmem ((h.lookup k x).mp hk).1
      by_cases hk : k = env.eid contact
      · simp [hk]
      · have hk' : ¬ env.eid contact = k := fun h => hk h.symm
        simp [hk, hk', hkx k]
    · by_cases hk : k = env.eid contact
      · have hcx : ¬ c = x := fun h => hxc h.symm
        have hno : ¬ (x ∈ s.routerContacts ∧ key x = env.eid contact) := by
          intro hx
          rw [← h.lookup, hnew] at hx
          cases hx
        simp only [hk, if_true, Option.some.injEq, hcx, hxc, or_false, Function.update_of_ne hxc,
          false_iff]
        exact hno
      · rw [if_neg hk, h.lookup k x, Function.update_of_ne hxc]
        simp [hxc]
  · exact h.slots
  · change (s.routerContacts ++ [c]).length ≤ _
    rw [List.length_append]
    exact hroom

/-! ## Contact events -/

/-- What a contact event does to the router; `key` and `key'` are the keys before
and after it. -/
inductive ContactChange (P : RouterParams) (s : Router) (env : Env) (contact : ContactRef)
    (active : Bool) (key : Addr → CStr) : Router → (Addr → CStr) → Prop where
  | same : env.eid contact = eidNone ∨ s.htab.lookup P.hash (env.eid contact) = none ∨
        active = true → ContactChange P s env contact active key s key
  | added {s' : Router} {c : Addr} : active = true → env.eid contact ≠ eidNone →
      s.htab.lookup P.hash (env.eid contact) = none → s.contacts.cells c = none →
      s'.routerContacts = s.routerContacts ++ [c] →
      s'.contacts = s.contacts.set c ⟨contact, s.routerContacts.length, none, none, none⟩ →
      s'.infos = s.infos → s'.head = s.head → s'.tail = s.tail →
      ContactChange P s env contact active key s' (Function.update key c (env.eid contact))
  | removed {s' : Router} {c : Addr} : active = false → env.eid contact ≠ eidNone →
      s.htab.lookup P.hash (env.eid contact) = some c →
      (∀ x, x ∈ s'.routerContacts ↔ x ∈ s.routerContacts ∧ x ≠ c) →
      (∀ x, x ≠ c → ∀ rc, s.contacts.cells x = some rc →
        ∃ i, s'.contacts.cells x = some { rc with index := i }) →
      s'.infos = s.infos → s'.head = s.head → s'.tail = s.tail →
      ContactChange P s env contact active key s' key

/-- **`router_handle_contact_event`** keeps the table. -/
theorem routerHandleContactEvent_spec {s : Router} {key : Addr → CStr} {l : List Addr}
    (h : TableInv P s key) (hl : ListInv s l) (hslots : P.btMaxConn - 1 ≠ 0) (env : Env)
    (contact : ContactRef) (active : Bool) {mem : Option Addr}
    (hfresh : ∀ c, mem = some c → s.contacts.cells c = none) :
    ∃ s' out key', routerHandleContactEvent P s env contact active mem = .ok (s', out) ∧
      TableInv P s' key' ∧ ContactChange P s env contact active key s' key' ∧
      ∀ o ∈ out, ∀ p rb, o ≠ .scheduled p rb := by
  have hslots' : s.htab.slotCount ≠ 0 := by rw [h.slots]; exact hslots
  have hget : htabGet P.hash s.htab (env.eid contact) =
      .ok (s.htab.lookup P.hash (env.eid contact)) := by
    simp [htabGet, hslots', pure, Except.pure]
  unfold routerHandleContactEvent
  by_cases hnone : env.eid contact = eidNone
  · rw [if_pos hnone]
    exact ⟨s, [], key, rfl, h, .same (Or.inl hnone), by simp⟩
  · rw [if_neg hnone, hget, ok_bind]
    cases hlook : s.htab.lookup P.hash (env.eid contact) with
    | none =>
        cases active with
        | false => exact ⟨s, [], key, rfl, h, .same (Or.inr (Or.inl hlook)), by simp⟩
        | true =>
            cases mem with
            | none => exact ⟨s, [], key, rfl, h, .same (Or.inr (Or.inl hlook)), by simp⟩
            | some c =>
                by_cases hfull : s.routerContacts.length < P.btMaxConn - 1
                · obtain ⟨s', out, hrun, htab, harr, hcont, hinf, hhead, htail, hout⟩ :=
                    addRouterContact_spec h hl hslots (hfresh c rfl) hlook hfull
                  refine ⟨s', out, _, ?_, htab, .added rfl hnone hlook (hfresh c rfl) harr hcont
                    hinf hhead htail, hout⟩
                  simp only [if_pos hfull]
                  exact hrun
                · refine ⟨s, [], key, ?_, h, .same (Or.inr (Or.inl hlook)), by simp⟩
                  simp only [if_neg hfull]
                  rfl
    | some c =>
        cases active with
        | true => exact ⟨s, [], key, rfl, h, .same (Or.inr (Or.inr rfl)), by simp⟩
        | false =>
            obtain ⟨s', hrun, htab, hmem, hcont, hinf, hhead, htail⟩ :=
              removeRouterContact_spec h hslots hlook
            refine ⟨s', [], key, ?_, htab, .removed rfl hnone hlook hmem hcont hinf hhead htail,
              by simp⟩
            simp only [hrun, ok_bind]
            rfl

end EpidemicRouter
