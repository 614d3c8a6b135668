import Mathlib.Data.List.Basic
import Mathlib.Data.List.Range
import Mathlib.Logic.Function.Basic

/-!
# The expiry of contacts

`remove_expired_contacts` of `components/routing/epidemic/contact_manager.c`, with its 64-bit times
and every index of `current_contacts` that it reads.

An entry of the array refers to a contact by its address.  There are fewer than 128 contacts, so
that the 8 bits of the counters suffice, and the assertion on the index holds.  The callbacks of
`on_event` do not change contacts and are left out.
-/

namespace ContactExpiry

/-! ## The table of contacts -/

/-- The address of a contact. -/
abbrev Addr := Nat

/-- `struct contact`, as far as its expiry needs it. -/
structure Contact where
  toTime : UInt64
  active : Bool
  deriving DecidableEq, Repr

/-- `struct contact_info`. -/
structure ContactInfo where
  contact : Addr
  /-- the handle of the CLA -/
  claConf : Nat
  deriving DecidableEq, Repr

/-- `CONFIG_CONTACT_TIMEOUT_S`. -/
def contactTimeoutS : Nat := 60

/-- The contacts, the array `current_contacts`, the list of the removed contacts, and the
entries that were read, each with the value of `current_contact_count` at that time. -/
structure Table where
  contacts : Addr → Contact
  currentContacts : Nat → ContactInfo
  count : Nat
  count_lt : count < 128
  removed : List ContactInfo
  reads : List (Nat × Nat)

namespace Table

/-- The entries in use. -/
def current (s : Table) : List ContactInfo := (List.range s.count).map s.currentContacts

/-- `current_contacts[i]`. -/
def read (s : Table) (i : Nat) : ContactInfo × Table :=
  (s.currentContacts i, { s with reads := s.reads ++ [(i, s.count)] })

/-- `current_contacts[i] = info`. -/
def write (s : Table) (i : Nat) (info : ContactInfo) : Table :=
  { s with currentContacts := Function.update s.currentContacts i info }

/-- A contact is changed. -/
def modify (s : Table) (a : Addr) (f : Contact → Contact) : Table :=
  { s with contacts := Function.update s.contacts a (f (s.contacts a)) }

end Table

/-- An active contact lasts until now. -/
def Contact.refresh (t : UInt64) (c : Contact) : Contact :=
  if c.active then { c with toTime := max t c.toTime } else c

/-- The first loop of `remove_expired_contacts`, for the indexes below the given one. -/
def refreshLoop (t : UInt64) : Nat → Table → Table
  | 0, s => s
  | i + 1, s =>
      let (info, s) := s.read i
      refreshLoop t i (s.modify info.contact (·.refresh t))

/-- `for (c = i; c < current_contact_count; c++)`, with the number of turns that are left. -/
def shiftLoop : Nat → Nat → Table → Table
  | _, 0, s => s
  | c, n + 1, s =>
      let (info, s) := s.read (c + 1)
      shiftLoop (c + 1) n (s.write c info)

/-- "If it's not the last element, we have to move mem". -/
def closeGap (i : Nat) (s : Table) : Table :=
  if i ≠ s.count - 1 then shiftLoop i (s.count - i) s else s

/-- The contact of an entry becomes inactive, and the entry is put to the end of `list`. -/
def Table.enlist (s : Table) (info : ContactInfo) : Table :=
  let s := s.modify info.contact fun c => { c with active := false }
  { s with removed := s.removed ++ [info] }

/-- The entry moves to `list`. -/
def removeEntry (i : Nat) (info : ContactInfo) (s : Table) : Table :=
  let s := closeGap i (s.enlist info)
  { s with count := s.count - 1, count_lt := Nat.lt_of_le_of_lt (Nat.sub_le _ _) s.count_lt }

/-- The end of `to` at which a contact expires. -/
def timeout (t : UInt64) : UInt64 := t + UInt64.ofNat contactTimeoutS

/-- The second loop of `remove_expired_contacts`, for the indexes below the given one. -/
def removeLoop (t : UInt64) : Nat → Table → Table
  | 0, s => s
  | i + 1, s =>
      let (info, s) := s.read i
      if (s.contacts info.contact).toTime ≤ timeout t then
        removeLoop t i (removeEntry i info s)
      else removeLoop t i s

/-- `remove_expired_contacts`. -/
def removeExpiredContacts (t : UInt64) (s : Table) : Table :=
  let s := refreshLoop t s.count { s with removed := [], reads := [] }
  removeLoop t s.count s

/-! ## What the loops do -/

section

variable {s : Table} {t : UInt64}

/-- Every entry that was read was in use at that time. -/
def Table.Sound (s : Table) : Prop := ∀ r ∈ s.reads, r.1 < r.2

theorem length_current (s : Table) : s.current.length = s.count := by simp [Table.current]

@[simp]
theorem current_read (s : Table) (i : Nat) : (s.read i).2.current = s.current := rfl

@[simp]
theorem current_modify (s : Table) (a : Addr) (f : Contact → Contact) :
    (s.modify a f).current = s.current := rfl

@[simp]
theorem sound_modify (s : Table) (a : Addr) (f : Contact → Contact) :
    (s.modify a f).Sound ↔ s.Sound := Iff.rfl

@[simp]
theorem sound_write (s : Table) (i : Nat) (info : ContactInfo) :
    (s.write i info).Sound ↔ s.Sound := Iff.rfl

theorem sound_read (s : Table) (i : Nat) : (s.read i).2.Sound ↔ s.Sound ∧ i < s.count := by
  simp only [Table.Sound, Table.read, List.forall_mem_append, List.forall_mem_singleton]

theorem getElem_current {i : Nat} (hi : i < s.current.length) :
    s.current[i] = s.currentContacts i := by
  simp [Table.current]

theorem current_take_succ {i : Nat} (hi : i < s.count) :
    s.current.take (i + 1) = s.current.take i ++ [s.currentContacts i] := by
  have hlt : i < s.current.length := by rwa [length_current]
  rw [List.take_add_one, List.getElem?_eq_getElem hlt, getElem_current]
  rfl

theorem current_drop {i : Nat} (hi : i < s.count) :
    s.current.drop i = s.currentContacts i :: s.current.drop (i + 1) := by
  have hlt : i < s.current.length := by rwa [length_current]
  rw [List.drop_eq_getElem_cons hlt, getElem_current]

theorem refresh_refresh (t : UInt64) (c : Contact) : (c.refresh t).refresh t = c.refresh t := by
  unfold Contact.refresh
  by_cases hactive : c.active = true
  · simp only [hactive, if_true, Contact.mk.injEq, and_true]
    unfold max
    show (if t ≤ (if t ≤ c.toTime then c.toTime else t) then _ else t) = _
    grind
  · simp [hactive]

/-- After the refresh, the active contacts among those of the entries last until now. -/
theorem contacts_refreshLoop (t : UInt64) {i : Nat} (hi : i ≤ s.count) (a : Addr) :
    (refreshLoop t i s).contacts a =
      if a ∈ (s.current.take i).map (·.contact) then (s.contacts a).refresh t
      else s.contacts a := by
  induction i generalizing s with
  | zero => simp [refreshLoop]
  | succ i ih =>
      have hrest := @ih ((s.read i).2.modify (s.currentContacts i).contact (·.refresh t))
        (Nat.le_of_succ_le hi)
      rw [current_modify, current_read] at hrest
      simp only [current_take_succ hi, List.map_append, List.mem_append]
      refine hrest.trans ?_
      by_cases ha : a = (s.currentContacts i).contact
      · subst ha
        simp [Table.modify, Table.read, refresh_refresh]
      · simp [Table.modify, Table.read, ha]

/-- The refresh leaves the array alone, and reads entries in use. -/
theorem refreshLoop_spec (t : UInt64) {i : Nat} (hi : i ≤ s.count) :
    (refreshLoop t i s).current = s.current ∧
      (refreshLoop t i s).count = s.count ∧
      (refreshLoop t i s).removed = s.removed ∧
      ((refreshLoop t i s).Sound ↔ s.Sound) := by
  induction i generalizing s with
  | zero => simp [refreshLoop]
  | succ i ih =>
      obtain ⟨hcurrent, hcount, hremoved, hsound⟩ :=
        @ih ((s.read i).2.modify (s.currentContacts i).contact (·.refresh t))
          (Nat.le_of_succ_le hi)
      refine ⟨hcurrent, hcount, hremoved, hsound.trans ?_⟩
      rw [sound_modify, sound_read]
      exact and_iff_left hi

/-- The entries move to the left, and the last one that is read is the one after them. -/
theorem shiftLoop_spec {c n : Nat} :
    (∀ j, (shiftLoop c n s).currentContacts j =
      s.currentContacts (if c ≤ j ∧ j < c + n then j + 1 else j)) ∧
      (shiftLoop c n s).count = s.count ∧
      (shiftLoop c n s).removed = s.removed ∧
      (shiftLoop c n s).contacts = s.contacts ∧
      ((shiftLoop c n s).Sound ↔ s.Sound ∧ (n = 0 ∨ c + n < s.count)) := by
  induction n generalizing c s with
  | zero =>
      refine ⟨fun j => ?_, rfl, rfl, rfl, by simp [shiftLoop]⟩
      rw [if_neg (by omega)]
      rfl
  | succ n ih =>
      obtain ⟨hcells, hcount, hremoved, hcontacts, hsound⟩ :=
        @ih ((s.read (c + 1)).2.write c (s.currentContacts (c + 1))) (c + 1)
      refine ⟨fun j => (hcells j).trans ?_, hcount, hremoved, hcontacts, hsound.trans ?_⟩
      · show Function.update s.currentContacts c (s.currentContacts (c + 1)) _ = _
        rw [Function.update_apply]
        by_cases hj : j = c
        · rw [if_pos (by rw [if_neg (by omega)]; exact hj), if_pos (by omega), hj]
        · rw [if_neg (by split <;> omega)]
          congr 1
          split <;> split <;> omega
      · rw [sound_write, sound_read]
        have hcount :
            ((s.read (c + 1)).2.write c (s.currentContacts (c + 1))).count = s.count := rfl
        rw [hcount, and_assoc]
        exact and_congr_right fun _ => by omega

/-- Behind an entry that is not the last one, the gap is closed with a read of the entry behind the
last one. -/
theorem closeGap_spec {i : Nat} (hi : i < s.count) :
    (∀ j < s.count - 1, (closeGap i s).currentContacts j =
      s.currentContacts (if i ≤ j then j + 1 else j)) ∧
      (closeGap i s).count = s.count ∧
      (closeGap i s).removed = s.removed ∧
      (closeGap i s).contacts = s.contacts ∧
      ((closeGap i s).Sound ↔ s.Sound ∧ i + 1 = s.count) := by
  rw [closeGap]
  split
  · next hlast =>
    obtain ⟨hcells, hcount, hremoved, hcontacts, hsound⟩ :=
      @shiftLoop_spec s i (s.count - i)
    refine ⟨fun j hj => (hcells j).trans ?_, hcount, hremoved, hcontacts, hsound.trans ?_⟩
    · congr 1
      split <;> split <;> omega
    · exact and_congr_right fun _ => by omega
  · next hlast =>
    refine ⟨fun j hj => ?_, rfl, rfl, rfl, ?_⟩
    · rw [if_neg (by omega)]
    · exact (and_iff_left (by omega)).symm

/-- An entry that is removed is gone from the table; another entry than the last one is only
removed with a read of the entry behind the last one. -/
theorem removeEntry_spec {i : Nat} (hi : i < s.count) (info : ContactInfo) :
    (removeEntry i info s).current = s.current.take i ++ s.current.drop (i + 1) ∧
      (removeEntry i info s).count = s.count - 1 ∧
      (removeEntry i info s).removed = s.removed ++ [info] ∧
      (∀ a, ((removeEntry i info s).contacts a).toTime = (s.contacts a).toTime) ∧
      ((removeEntry i info s).Sound ↔ s.Sound ∧ i + 1 = s.count) := by
  obtain ⟨hcells, hcount, hremoved, hcontacts, hsound⟩ :=
    @closeGap_spec (s.enlist info) i hi
  have hcount' : (removeEntry i info s).count = s.count - 1 := congrArg (· - 1) hcount
  refine ⟨?_, hcount', hremoved, fun a => ?_, hsound⟩
  · have hlen : s.current.length = s.count := length_current s
    have htake : (s.current.take i).length = i := by
      rw [List.length_take]
      omega
    apply List.ext_getElem
    · rw [length_current, hcount']
      simp only [List.length_append, List.length_take, List.length_drop, hlen]
      omega
    · intro j hj hj'
      have hjlt : j < s.count - 1 := by rwa [length_current, hcount'] at hj
      have hcell : (removeEntry i info s).currentContacts j =
          s.currentContacts (if i ≤ j then j + 1 else j) := hcells j hjlt
      rw [getElem_current, hcell]
      by_cases hij : i ≤ j
      · rw [if_pos hij, List.getElem_append_right (by omega), List.getElem_drop, getElem_current]
        congr 1
        omega
      · rw [if_neg hij, List.getElem_append_left (by omega), List.getElem_take, getElem_current]
  · have hcontacts : (removeEntry i info s).contacts = (s.enlist info).contacts := hcontacts
    rw [hcontacts]
    show (Function.update s.contacts info.contact _ a).toTime = _
    rw [Function.update_apply]
    split
    · next ha => rw [ha]
    · rfl

/-- The entries leave from the last one down, and the reads stay below the counter as long as only
last ones leave. -/
theorem removeLoop_spec {i : Nat} (hi : i ≤ s.count) {leaves : ContactInfo → Bool}
    (hleaves : ∀ info, leaves info = true ↔
      (s.contacts info.contact).toTime ≤ timeout t) :
    (removeLoop t i s).current =
        (s.current.take i).filter (!leaves ·) ++ s.current.drop i ∧
      (removeLoop t i s).removed = s.removed ++ ((s.current.take i).filter leaves).reverse ∧
      ((removeLoop t i s).Sound ↔ s.Sound ∧
        (s.current.take i).Pairwise (fun a b => leaves a = true → leaves b = true) ∧
        ((∃ a ∈ s.current.take i, leaves a = true) → s.current.drop i = [])) := by
  induction i generalizing s with
  | zero => simp [removeLoop]
  | succ i ih =>
      have hread : (s.read i).2.Sound ↔ s.Sound := (sound_read s i).trans (and_iff_left hi)
      have htake := current_take_succ hi
      have hdrop := current_drop hi
      have hlen : s.current.length = s.count := length_current s
      by_cases hleave : leaves (s.currentContacts i) = true
      · have hstep : removeLoop t (i + 1) s =
            removeLoop t i (removeEntry i (s.currentContacts i) (s.read i).2) :=
          if_pos ((hleaves _).1 hleave)
        obtain ⟨hcurrent, hcount, hremoved, hcontacts, hsound⟩ :=
          @removeEntry_spec (s.read i).2 i hi (s.currentContacts i)
        rw [current_read] at hcurrent
        have htake' : (removeEntry i (s.currentContacts i) (s.read i).2).current.take i =
            s.current.take i := by
          rw [hcurrent, List.take_append_of_le_length (by simp; omega), List.take_take,
            Nat.min_self]
        have hdrop' : (removeEntry i (s.currentContacts i) (s.read i).2).current.drop i =
            s.current.drop (i + 1) := by
          rw [hcurrent, List.drop_append_of_le_length (by simp; omega),
            List.drop_eq_nil_of_le (List.length_take_le _ _), List.nil_append]
        obtain ⟨hkept, hlist, hreads⟩ := @ih (removeEntry i (s.currentContacts i) (s.read i).2)
          (by rw [hcount]; exact Nat.le_sub_one_of_lt hi)
          (fun info => (hleaves info).trans (by rw [hcontacts]; rfl))
        rw [htake', hdrop'] at hkept hreads
        rw [htake', hremoved] at hlist
        rw [hstep, hkept, hlist, hreads, hsound, hread, htake]
        refine ⟨?_, ?_, ?_⟩
        · simp [hleave]
        · simp [hleave, Table.read]
        · have hlast : i + 1 = (s.read i).2.count ↔ s.current.drop (i + 1) = [] := by
            rw [List.drop_eq_nil_iff, hlen]
            exact ⟨fun h => h.ge, fun h => Nat.le_antisymm hi h⟩
          rw [hlast, List.pairwise_append]
          simp only [List.mem_append, List.mem_singleton]
          constructor
          · rintro ⟨⟨hs, hnil⟩, hpair, -⟩
            refine ⟨hs, ⟨hpair, List.pairwise_singleton _ _, ?_⟩, fun _ => hnil⟩
            intro a _ b hb _
            rw [hb, hleave]
          · rintro ⟨hs, ⟨hpair, -, -⟩, hnil⟩
            have hnil := hnil ⟨_, Or.inr rfl, hleave⟩
            exact ⟨⟨hs, hnil⟩, hpair, fun _ => hnil⟩
      · have hstep : removeLoop t (i + 1) s = removeLoop t i (s.read i).2 :=
          if_neg fun h => hleave ((hleaves _).2 h)
        obtain ⟨hkept, hlist, hreads⟩ := @ih (s.read i).2 (Nat.le_of_succ_le hi) hleaves
        rw [current_read] at hkept hlist hreads
        rw [hstep, hkept, hlist, hreads, hread, htake, hdrop]
        refine ⟨?_, ?_, ?_⟩
        · simp [hleave]
        · simp [hleave, Table.read]
        · rw [List.pairwise_append]
          simp only [List.mem_append, List.mem_singleton]
          have hno : ∀ {a}, a ∈ s.current.take i →
              (leaves a = true → leaves (s.currentContacts i) = true) → ¬leaves a = true :=
            fun _ himp h => hleave (himp h)
          constructor
          · rintro ⟨hs, hpair, hnil⟩
            have hnone : ∀ a ∈ s.current.take i, ¬leaves a = true := fun a ha h =>
              List.cons_ne_nil _ _ (hnil ⟨a, ha, h⟩)
            refine ⟨hs, ⟨hpair, List.pairwise_singleton _ _,
              fun a ha b _ h => absurd h (hnone a ha)⟩, ?_⟩
            rintro ⟨a, ha | rfl, h⟩
            · exact absurd h (hnone a ha)
            · exact absurd h hleave
          · rintro ⟨hs, ⟨hpair, -, hcross⟩, -⟩
            refine ⟨hs, hpair, ?_⟩
            rintro ⟨a, ha, h⟩
            exact absurd h (hno ha (hcross a ha _ rfl))

end

/-! ## The expiry -/

section

variable (t : UInt64) (s : Table)

/-- The contact is inactive, and its time lies at least the timeout before `t`. -/
def Expired (c : Contact) : Prop :=
  c.active = false ∧ c.toTime.toNat + contactTimeoutS ≤ t.toNat

instance (c : Contact) : Decidable (Expired t c) := by
  unfold Expired
  infer_instance

/-- Exactly the expired contacts are removed and returned, the others keep their order, and only
entries in use are read. -/
structure ExpiresExactly : Prop where
  kept : (removeExpiredContacts t s).current =
    s.current.filter fun info => !Expired t (s.contacts info.contact)
  returned : (removeExpiredContacts t s).removed.Perm
    (s.current.filter fun info => Expired t (s.contacts info.contact))
  sound : (removeExpiredContacts t s).Sound

/-- A contact that has not expired, with a time after the end that the code compares with. -/
def Stays (c : Contact) : Prop := ¬Expired t c ∧ timeout t < (c.refresh t).toTime

/-- A contact that has expired, with a time up to the end that the code compares with. -/
def Leaves (c : Contact) : Prop := Expired t c ∧ c.toTime ≤ timeout t

variable {t s}

/-- What the code removes: the contacts with a refreshed time up to the end. -/
theorem removeExpiredContacts_spec {leaves : ContactInfo → Bool}
    (hleaves : ∀ info ∈ s.current, leaves info = true ↔
      ((s.contacts info.contact).refresh t).toTime ≤ timeout t) :
    (removeExpiredContacts t s).current = s.current.filter (!leaves ·) ∧
      (removeExpiredContacts t s).removed = (s.current.filter leaves).reverse ∧
      ((removeExpiredContacts t s).Sound ↔
        s.current.Pairwise fun a b => leaves a = true → leaves b = true) := by
  set s₀ : Table := { s with removed := [], reads := [] } with hs₀
  have hcurrent₀ : s₀.current = s.current := rfl
  obtain ⟨hcurrent, hcount, hremoved, hsound⟩ :=
    @refreshLoop_spec s₀ t s.count (Nat.le_refl _)
  have hcontacts := @contacts_refreshLoop s₀ t s.count (Nat.le_refl _)
  have hall : s.current.take s.count = s.current :=
    List.take_of_length_le (length_current s).le
  rw [hcurrent₀, hall] at hcontacts
  set s₁ := refreshLoop t s.count s₀ with hs₁
  obtain ⟨hkept, hlist, hreads⟩ := @removeLoop_spec s₁ t s.count hcount.ge
    (fun info => decide ((s₁.contacts info.contact).toTime ≤ timeout t))
    (fun info => decide_eq_true_iff)
  have hmem : ∀ info ∈ s.current,
      decide ((s₁.contacts info.contact).toTime ≤ timeout t) = leaves info := by
    intro info hinfo
    have hrefresh : s₁.contacts info.contact = (s.contacts info.contact).refresh t :=
      (hcontacts _).trans (if_pos (List.mem_map_of_mem hinfo))
    rw [hrefresh, Bool.eq_iff_iff, decide_eq_true_iff]
    exact (hleaves info hinfo).symm
  have hresult : removeExpiredContacts t s = removeLoop t s.count s₁ := by
    show removeLoop t s₁.count s₁ = _
    rw [hcount]
  rw [hcurrent, hcurrent₀, hall] at hkept hlist hreads
  rw [List.drop_eq_nil_of_le (length_current s).le] at hkept hreads
  rw [hresult]
  refine ⟨?_, ?_, hreads.trans ?_⟩
  · rw [hkept, List.append_nil]
    exact List.filter_congr fun info hinfo => by rw [hmem info hinfo]
  · rw [hlist, hremoved]
    exact congrArg List.reverse (List.filter_congr hmem)
  · have hnew : s₁.Sound := hsound.2 fun r hr => absurd hr List.not_mem_nil
    rw [and_iff_right hnew, and_iff_left fun _ => rfl]
    apply List.Pairwise.iff_of_mem
    intro a b ha hb
    rw [hmem a ha, hmem b hb]

theorem refresh_of_expired {c : Contact} (h : Expired t c) : c.refresh t = c :=
  if_neg (by simp [h.1])

/-- A contact stays or leaves by both ways to tell when they agree. -/
theorem stays_or_leaves_iff (c : Contact) :
    (Stays t c ∨ Leaves t c) ↔ ((c.refresh t).toTime ≤ timeout t ↔ Expired t c) := by
  constructor
  · rintro (⟨hno, hlate⟩ | ⟨hexpired, hend⟩)
    · exact iff_of_false (UInt64.not_le.2 hlate) hno
    · rw [refresh_of_expired hexpired]
      exact iff_of_true hend hexpired
  · intro hiff
    by_cases hexpired : Expired t c
    · have hend := hiff.2 hexpired
      rw [refresh_of_expired hexpired] at hend
      exact Or.inr ⟨hexpired, hend⟩
    · exact Or.inl ⟨hexpired, UInt64.not_le.1 fun h => hexpired (hiff.1 h)⟩

theorem leaves_iff {c : Contact} (h : Stays t c ∨ Leaves t c) :
    Leaves t c ↔ (c.refresh t).toTime ≤ timeout t := by
  rw [(stays_or_leaves_iff c).1 h]
  refine ⟨And.left, fun hexpired => ?_⟩
  obtain hstays | hleaves := h
  · exact absurd hexpired hstays.1
  · exact hleaves

/-- The expiry removes, returns and reads what it should if and only if every contact stays or
leaves by both ways to tell, and the contacts that leave are the last ones of the array. -/
theorem expires_exactly_iff (t : UInt64) (s : Table) :
    ExpiresExactly t s ↔
      (∀ info ∈ s.current,
        Stays t (s.contacts info.contact) ∨ Leaves t (s.contacts info.contact)) ∧
      s.current.Pairwise fun a b =>
        Leaves t (s.contacts a.contact) → Leaves t (s.contacts b.contact) := by
  obtain ⟨hkept, hlist, hsound⟩ := @removeExpiredContacts_spec t s
    (fun info => decide (((s.contacts info.contact).refresh t).toTime ≤ timeout t))
    (fun info _ => decide_eq_true_iff)
  simp only [decide_eq_true_eq] at hsound
  have hpair (hall : ∀ info ∈ s.current,
      Stays t (s.contacts info.contact) ∨ Leaves t (s.contacts info.contact)) :
      (removeExpiredContacts t s).Sound ↔ s.current.Pairwise fun a b =>
        Leaves t (s.contacts a.contact) → Leaves t (s.contacts b.contact) := by
    refine hsound.trans (List.Pairwise.iff_of_mem fun ha hb => ?_)
    rw [leaves_iff (hall _ ha), leaves_iff (hall _ hb)]
  constructor
  · intro h
    have hall : ∀ info ∈ s.current,
        Stays t (s.contacts info.contact) ∨ Leaves t (s.contacts info.contact) := by
      intro info hinfo
      have hmem := congrArg (info ∈ ·) (hkept.symm.trans h.kept)
      simp only [List.mem_filter, hinfo, true_and, Bool.not_eq_true', decide_eq_false_iff_not,
        eq_iff_iff] at hmem
      exact (stays_or_leaves_iff _).2 (not_iff_not.1 hmem)
    exact ⟨hall, (hpair hall).1 h.sound⟩
  · rintro ⟨hall, hsuffix⟩
    have hagree : ∀ info ∈ s.current,
        decide (((s.contacts info.contact).refresh t).toTime ≤ timeout t) =
          decide (Expired t (s.contacts info.contact)) := fun info hinfo =>
      decide_eq_decide.2 ((stays_or_leaves_iff _).1 (hall info hinfo))
    refine ⟨hkept.trans (List.filter_congr fun info hinfo => by rw [hagree info hinfo]), ?_,
      (hpair hall).2 hsuffix⟩
    rw [hlist, List.filter_congr hagree]
    exact List.reverse_perm _

end

/-- A table with the given contacts. -/
def tableOf (contacts : List Contact) (h : contacts.length < 128) : Table where
  contacts a := contacts.getD a ⟨0, false⟩
  currentContacts i := ⟨i, 0⟩
  count := contacts.length
  count_lt := h
  removed := []
  reads := []

/-- A neighbour that is connected at the time 1000, and was seen at this time, is removed. -/
theorem active_contact_removed :
    (removeExpiredContacts 1000 (tableOf [⟨1000, true⟩] (by decide))).current = [] ∧
      ¬ExpiresExactly 1000 (tableOf [⟨1000, true⟩] (by decide)) := by
  have hremoved :
      (removeExpiredContacts 1000 (tableOf [⟨1000, true⟩] (by decide))).current = [] := by
    decide
  refine ⟨hremoved, fun h => ?_⟩
  have hkept := h.kept
  rw [hremoved] at hkept
  exact absurd hkept (by decide)

end ContactExpiry
