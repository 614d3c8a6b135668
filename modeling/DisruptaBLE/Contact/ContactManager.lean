import DisruptaBLE.Processor.Bundle
import Mathlib.Data.List.Perm.Subperm

/-!
# The contact manager for scheduled contacts

`components/routing/contact/contact_manager.c`: `remove_expired_contacts`, `check_upcoming`,
`process_upcoming_list` and `check_for_contacts`.

A contact is known by its address, and what the manager reads of it does not change.  For each entry
of the contact list, a check of the contacts is told what an attempt to start the contact would meet
(`Attempt`).

The list of current contacts and the time of the next check are as they should be after every check.
The flag `active` is not: `check_upcoming` sets it before it obtains the CLA and copies the
addresses, and leaves it set when one of these fails.  `active_exact` says for which histories the
flags agree with the list.
-/

namespace ContactManager

open BundleProcessor (CStr)

/-- The address of a contact. -/
abbrev Addr := Nat

/-- What the manager reads of a `struct contact` and its node. -/
structure Contact where
  eid : CStr
  claAddr : CStr
  fromTime : UInt64
  toTime : UInt64
  deriving DecidableEq, Repr

/-- `struct contact_info`. -/
structure ContactInfo where
  contact : Addr
  /-- the handle of the CLA -/
  claConf : Nat
  eid : CStr
  claAddr : CStr
  deriving DecidableEq, Repr

/-- What an attempt to start a contact meets. -/
structure Attempt where
  /-- the result of `cla_config_get` -/
  claConfig : Option Nat
  /-- the EID can be copied -/
  eidCopied : Bool
  /-- the CLA address can be copied -/
  claAddrCopied : Bool
  deriving DecidableEq, Repr

/-- The contact can be started. -/
def Attempt.Succeeds (a : Attempt) : Prop :=
  a.claConfig.isSome = true ∧ a.eidCopied = true ∧ a.claAddrCopied = true

instance (a : Attempt) : Decidable a.Succeeds := by
  unfold Attempt.Succeeds
  infer_instance

/-- `MAX_CONCURRENT_CONTACTS`. -/
def maxConcurrentContacts : Nat := 257

/-- The variables of the manager, and the flags of the contacts.  The counters of the manager have
8 bits, in which there is room for 127 contacts. -/
structure Manager where
  /-- `active` of each contact -/
  active : Addr → Bool
  /-- the first `current_contact_count` entries of `current_contacts` -/
  currentContacts : List ContactInfo
  /-- `next_contact_time` -/
  nextContactTime : UInt64

/-- The manager before the first check, with all contacts inactive. -/
def init : Manager := ⟨fun _ => false, [], 0xFFFFFFFFFFFFFFFF⟩

/-- The contacts in `current_contacts`. -/
def Manager.current (s : Manager) : List Addr := s.currentContacts.map (·.contact)

/-- `contact_active`. -/
def contactActive (s : Manager) (c : Addr) : Bool := s.current.contains c

variable (data : Addr → Contact) (now : UInt64)

/-- The loop of `remove_expired_contacts` over the entries below the given index. -/
def removeLoop : Nat → Manager → List ContactInfo → Manager × List ContactInfo
  | 0, s, removed => (s, removed)
  | i + 1, s, removed =>
      match s.currentContacts[i]? with
      | none => removeLoop i s removed
      | some info =>
          if (data info.contact).toTime ≤ now then
            removeLoop i
              { s with
                active := Function.update s.active info.contact false
                currentContacts := s.currentContacts.eraseIdx i }
              (removed ++ [info])
          else removeLoop i s removed

/-- `remove_expired_contacts`. -/
def removeExpiredContacts (s : Manager) : Manager × List ContactInfo :=
  removeLoop data now s.currentContacts.length s []

/-- `check_upcoming`: the manager, and the entry that was added. -/
def checkUpcoming (a : Attempt) (s : Manager) (c : Addr) : Manager × Option ContactInfo :=
  if contactActive s c then (s, none)
  else if maxConcurrentContacts ≤ s.currentContacts.length then (s, none)
  else
    let s := { s with active := Function.update s.active c true }
    match a.claConfig with
    | none => (s, none)
    | some claConf =>
        if !a.eidCopied then (s, none)
        else if !a.claAddrCopied then (s, none)
        else
          let info := ⟨c, claConf, (data c).eid, (data c).claAddr⟩
          ({ s with currentContacts := s.currentContacts ++ [info] }, some info)

/-- `next_contact_time` becomes earlier. -/
def Manager.wakeUpAt (s : Manager) (time : UInt64) : Manager :=
  if time < s.nextContactTime then { s with nextContactTime := time } else s

/-- The loop of `process_upcoming_list`, from the given entry on. -/
def processLoop (attempts : Nat → Attempt) :
    Nat → List Addr → Manager → List ContactInfo → Manager × List ContactInfo
  | _, [], s, added => (s, added)
  | k, c :: cs, s, added =>
      if (data c).fromTime ≤ now then
        if now < (data c).toTime then
          let (s, info) := checkUpcoming data (attempts k) s c
          processLoop attempts (k + 1) cs (s.wakeUpAt (data c).toTime) (added ++ info.toList)
        else processLoop attempts (k + 1) cs s added
      else (s.wakeUpAt (data c).fromTime, added)

/-- `process_upcoming_list`. -/
def processUpcomingList (attempts : Nat → Attempt) (contactList : List Addr) (s : Manager) :
    Manager × List ContactInfo :=
  processLoop data now attempts 0 contactList { s with nextContactTime := 0xFFFFFFFFFFFFFFFF } []

/-- What `check_for_contacts` tells the CLAs: the contacts that were started and ended. -/
structure Announced where
  started : List ContactInfo
  ended : List ContactInfo
  deriving DecidableEq, Repr

/-- `check_for_contacts`, without the bundles that it hands over. -/
def checkForContacts (contactList : List Addr) (attempts : Nat → Attempt) (s : Manager) :
    Manager × Announced :=
  let (s, removed) := removeExpiredContacts data now s
  let (s, added) := processUpcomingList data now attempts contactList s
  (s, ⟨added, removed⟩)

/-! ## Histories -/

/-- A run of `check_for_contacts`. -/
structure Check where
  now : UInt64
  attempts : Nat → Attempt

/-- The manager after some checks. -/
def history (contactList : List Addr) (checks : List Check) : Manager :=
  checks.foldl (fun s k => (checkForContacts data k.now contactList k.attempts s).1) init

/-- The time is in the interval of the contact. -/
def Runs (c : Addr) : Prop := (data c).fromTime ≤ now ∧ now < (data c).toTime

/-- In one of the checks, the contact was to be active. -/
def Due (checks : List Check) (c : Addr) : Prop := ∃ k ∈ checks, Runs data k.now c

/-- In one of the checks, the contact was to be active and could be started. -/
def Started (contactList : List Addr) (checks : List Check) (c : Addr) : Prop :=
  ∃ k ∈ checks, Runs data k.now c ∧ ∃ i, contactList[i]? = some c ∧ (k.attempts i).Succeeds

/-- The time at which a contact begins or ends next. -/
def nextEvent (c : Addr) : Option UInt64 :=
  if (data c).fromTime ≤ now then
    if now < (data c).toTime then some (data c).toTime else none
  else some (data c).fromTime

/-- A time is the minimum of the next events of some contacts, or `UINT64_MAX`. -/
structure IsNext (cs : List Addr) (time : UInt64) : Prop where
  le : ∀ c ∈ cs, ∀ e, nextEvent data now c = some e → time ≤ e
  event : time = 0xFFFFFFFFFFFFFFFF ∨ ∃ c ∈ cs, nextEvent data now c = some time

/-- The contact list is sorted by the times at which the contacts begin. -/
def Sorted (cs : List Addr) : Prop := cs.Pairwise fun a b => (data a).fromTime ≤ (data b).fromTime

/-! ## The end of contacts -/

variable {data now} {s : Manager} {c : Addr} {cs : List Addr}

/-- The contact of an entry has ended. -/
def expired (data : Addr → Contact) (now : UInt64) (info : ContactInfo) : Bool :=
  (data info.contact).toTime ≤ now

/-- **The downward loop** looks at every entry once: those that stay are shifted, and do not come
up again. -/
theorem removeLoop_spec {i : Nat} (hi : i ≤ s.currentContacts.length) (removed : List ContactInfo) :
    (removeLoop data now i s removed).1.currentContacts =
        (s.currentContacts.take i).filter (!expired data now ·) ++ s.currentContacts.drop i ∧
      ∀ x, (removeLoop data now i s removed).1.active x =
        (s.active x && !(s.currentContacts.take i).any
          fun info => expired data now info && info.contact = x) := by
  induction i generalizing s removed with
  | zero => simp [removeLoop]
  | succ i ih =>
      have hlt : i < s.currentContacts.length := hi
      have hget : s.currentContacts[i]? = some s.currentContacts[i] := List.getElem?_eq_getElem hlt
      have htake : s.currentContacts.take (i + 1) =
          s.currentContacts.take i ++ [s.currentContacts[i]] := by
        rw [List.take_add_one, hget]
        rfl
      rw [removeLoop, hget]
      dsimp only
      split
      · next hend =>
        have hexpired : expired data now s.currentContacts[i] = true := by
          simpa [expired] using hend
        have herase := List.eraseIdx_eq_take_drop_succ s.currentContacts i
        obtain ⟨hlist, hactive⟩ := ih (s := ⟨Function.update s.active s.currentContacts[i].contact
          false, s.currentContacts.eraseIdx i, s.nextContactTime⟩)
          (by simp only [List.length_eraseIdx_of_lt hlt]; omega)
          (removed ++ [s.currentContacts[i]])
        have htake' : (s.currentContacts.eraseIdx i).take i = s.currentContacts.take i := by
          rw [herase, List.take_append_of_le_length (by simp; omega), List.take_take, Nat.min_self]
        have hdrop' : (s.currentContacts.eraseIdx i).drop i = s.currentContacts.drop (i + 1) := by
          rw [herase, List.drop_append_of_le_length (by simp; omega), List.drop_eq_nil_of_le
            (by simp), List.nil_append]
        constructor
        · rw [hlist, htake', hdrop', htake, List.filter_append,
            List.filter_cons_of_neg (by simp [hexpired]), List.filter_nil, List.append_nil]
        · intro x
          rw [hactive x, htake', htake, List.any_append]
          by_cases hx : x = s.currentContacts[i].contact
          · subst hx
            simp [hexpired]
          · have hx' : ¬ s.currentContacts[i].contact = x := fun h => hx h.symm
            simp [Function.update_of_ne hx, hexpired, hx']
      · next hend =>
        have hstays : expired data now s.currentContacts[i] = false := by
          simpa [expired] using hend
        obtain ⟨hlist, hactive⟩ := ih (s := s) (by omega) removed
        constructor
        · rw [hlist, htake, List.drop_eq_getElem_cons hlt, List.filter_append,
            List.filter_cons_of_pos (by simp [hstays]), List.filter_nil, List.append_assoc]
          rfl
        · intro x
          rw [hactive x, htake, List.any_append]
          simp [hstays]

theorem current_removeExpired (s : Manager) : (removeExpiredContacts data now s).1.current =
    s.current.filter fun x => now < (data x).toTime := by
  have hspec := (@removeLoop_spec data now s _ (Nat.le_refl _) []).1
  rw [List.take_length, List.drop_length, List.append_nil] at hspec
  rw [Manager.current, Manager.current, removeExpiredContacts, hspec, List.filter_map]
  congr 2
  funext info
  simp only [expired, Function.comp]
  rw [Bool.eq_iff_iff]
  simp [UInt64.not_le]

theorem active_removeExpired (s : Manager) (x : Addr) :
    (removeExpiredContacts data now s).1.active x =
      (s.active x && !(x ∈ s.current ∧ (data x).toTime ≤ now)) := by
  have hspec := (@removeLoop_spec data now s _ (Nat.le_refl _) []).2 x
  rw [List.take_length] at hspec
  rw [removeExpiredContacts, hspec]
  congr 2
  rw [Bool.eq_iff_iff]
  simp only [List.any_eq_true, Bool.and_eq_true, decide_eq_true_eq, Manager.current, List.mem_map,
    expired]
  constructor
  · rintro ⟨info, hmem, hend, rfl⟩
    exact ⟨⟨info, hmem, rfl⟩, hend⟩
  · rintro ⟨⟨info, hmem, rfl⟩, hend⟩
    exact ⟨info, hmem, hend, rfl⟩

/-! ## The begin of contacts -/

/-- **An attempt.**  A contact that is not in the list becomes active, whether or not it can be
started. -/
theorem checkUpcoming_new {a : Attempt} (hnew : c ∉ s.current)
    (hroom : s.currentContacts.length < maxConcurrentContacts) :
    (checkUpcoming data a s c).1.current = s.current ++ (if a.Succeeds then [c] else []) ∧
      (checkUpcoming data a s c).1.active = Function.update s.active c true ∧
      (checkUpcoming data a s c).1.nextContactTime = s.nextContactTime := by
  have hinactive : contactActive s c = false := by
    simpa [contactActive] using hnew
  unfold checkUpcoming
  rw [hinactive, if_neg (by simp), if_neg (by omega)]
  obtain ⟨config, eid, addr⟩ := a
  cases config <;> cases eid <;> cases addr <;> simp [Attempt.Succeeds, Manager.current]

theorem checkUpcoming_current {a : Attempt} (h : c ∈ s.current) :
    (checkUpcoming data a s c).1 = s := by
  have hactive : contactActive s c = true := by
    simpa [contactActive] using h
  unfold checkUpcoming
  rw [if_pos hactive]

/-- What the loop over the contact list keeps. -/
structure Ready (all : List Addr) (s : Manager) : Prop where
  nodup : s.current.Nodup
  listed : ∀ x ∈ s.current, x ∈ all
  active : ∀ x ∈ s.current, s.active x = true

/-- There is always room in the array, and the counters do not overflow. -/
theorem Ready.room {all : List Addr} (h : Ready all s) (hlen : all.length ≤ 127) :
    s.currentContacts.length ≤ 127 := by
  have hsub := (h.nodup.subperm fun x hx => h.listed x hx).length_le
  rw [Manager.current, List.length_map] at hsub
  omega

theorem Ready.checkUpcoming {all : List Addr} (h : Ready all s) (hlen : all.length ≤ 127)
    (hc : c ∈ all) (a : Attempt) :
    Ready all (checkUpcoming data a s c).1 ∧
      (∀ x, x ∈ (checkUpcoming data a s c).1.current ↔ x ∈ s.current ∨ (x = c ∧ a.Succeeds)) ∧
      ∀ x, (checkUpcoming data a s c).1.active x = true ↔ s.active x = true ∨ x = c := by
  by_cases hmem : c ∈ s.current
  · rw [checkUpcoming_current hmem]
    refine ⟨h, fun x => ⟨.inl, ?_⟩, fun x => ⟨.inl, ?_⟩⟩
    · rintro (hx | ⟨rfl, -⟩)
      · exact hx
      · exact hmem
    · rintro (hx | rfl)
      · exact hx
      · exact h.active x hmem
  · have hroom := h.room hlen
    obtain ⟨hcurrent, hactive, -⟩ := @checkUpcoming_new data _ _ a hmem
      (by unfold maxConcurrentContacts; omega)
    have hmem' : ∀ x, x ∈ (ContactManager.checkUpcoming data a s c).1.current ↔
        x ∈ s.current ∨ (x = c ∧ a.Succeeds) := by
      intro x
      rw [hcurrent, List.mem_append]
      split <;> simp_all
    have hactive' : ∀ x, (ContactManager.checkUpcoming data a s c).1.active x = true ↔
        s.active x = true ∨ x = c := by
      intro x
      rw [hactive]
      by_cases hx : x = c <;> simp [hx]
    refine ⟨⟨?_, ?_, ?_⟩, hmem', hactive'⟩
    · rw [hcurrent]
      split
      · apply List.Nodup.append h.nodup (List.nodup_singleton c)
        simpa using hmem
      · simpa using h.nodup
    · intro x hx
      rcases (hmem' x).mp hx with hx | ⟨rfl, -⟩
      · exact h.listed x hx
      · exact hc
    · intro x hx
      rcases (hmem' x).mp hx with hx | ⟨rfl, -⟩
      · exact (hactive' x).mpr (.inl (h.active x hx))
      · exact (hactive' x).mpr (.inr rfl)

@[simp] theorem current_wakeUpAt (s : Manager) (time : UInt64) :
    (s.wakeUpAt time).current = s.current := by
  unfold Manager.wakeUpAt
  split <;> rfl

@[simp] theorem active_wakeUpAt (s : Manager) (time : UInt64) :
    (s.wakeUpAt time).active = s.active := by
  unfold Manager.wakeUpAt
  split <;> rfl

theorem Ready.wakeUpAt {all : List Addr} (h : Ready all s) (time : UInt64) :
    Ready all (s.wakeUpAt time) := by
  constructor
  · simpa using h.nodup
  · simpa using h.listed
  · simpa using h.active

/-- **The loop over the contact list** begins every contact whose time has come and that can be
started, and sets the flags of all whose time has come. -/
theorem processLoop_spec {all : List Addr} (hlen : all.length ≤ 127) {attempts : Nat → Attempt}
    {k : Nat} (hsorted : Sorted data cs) (hsub : ∀ x ∈ cs, x ∈ all) (hready : Ready all s)
    (added : List ContactInfo) :
    Ready all (processLoop data now attempts k cs s added).1 ∧
      (∀ x, x ∈ (processLoop data now attempts k cs s added).1.current ↔ x ∈ s.current ∨
        (Runs data now x ∧ ∃ i, cs[i]? = some x ∧ (attempts (k + i)).Succeeds)) ∧
      ∀ x, (processLoop data now attempts k cs s added).1.active x = true ↔
        s.active x = true ∨ (x ∈ cs ∧ Runs data now x) := by
  induction cs generalizing k s added with
  | nil => simpa [processLoop] using hready
  | cons c cs ih =>
      have hsorted' : Sorted data cs := (List.pairwise_cons.mp hsorted).2
      have hsub' : ∀ x ∈ cs, x ∈ all := fun x hx => hsub x (List.mem_cons_of_mem c hx)
      -- the entries of the list are the first one and those behind it
      have hentries : ∀ x, (∃ i, (c :: cs)[i]? = some x ∧ (attempts (k + i)).Succeeds) ↔
          (x = c ∧ (attempts k).Succeeds) ∨
            ∃ i, cs[i]? = some x ∧ (attempts (k + 1 + i)).Succeeds := by
        intro x
        constructor
        · rintro ⟨_ | i, hget, hsucc⟩
          · exact .inl ⟨(Option.some.inj hget).symm, hsucc⟩
          · exact .inr ⟨i, hget, by rwa [← Nat.add_assoc, Nat.add_right_comm] at hsucc⟩
        · rintro (⟨rfl, hsucc⟩ | ⟨i, hget, hsucc⟩)
          · exact ⟨0, rfl, hsucc⟩
          · exact ⟨i + 1, hget, by rwa [← Nat.add_assoc, Nat.add_right_comm]⟩
      rw [processLoop]
      split
      · next hfrom =>
        split
        · next hto =>
          have hruns : Runs data now c := ⟨hfrom, hto⟩
          obtain ⟨hready₁, hcurrent₁, hactive₁⟩ :=
            @Ready.checkUpcoming data _ _ _ hready hlen (hsub c List.mem_cons_self) (attempts k)
          obtain ⟨hready₂, hcurrent₂, hactive₂⟩ := ih (k := k + 1) hsorted' hsub'
            (hready₁.wakeUpAt (data c).toTime)
            (added ++ (checkUpcoming data (attempts k) s c).2.toList)
          refine ⟨hready₂, fun x => ?_, fun x => ?_⟩
          · dsimp only
            rw [hcurrent₂, current_wakeUpAt, hcurrent₁, hentries]
            constructor
            · rintro ((hx | ⟨rfl, hsucc⟩) | ⟨hx, hrest⟩)
              · exact .inl hx
              · exact .inr ⟨hruns, .inl ⟨rfl, hsucc⟩⟩
              · exact .inr ⟨hx, .inr hrest⟩
            · rintro (hx | ⟨hx, hfirst | hrest⟩)
              · exact .inl (.inl hx)
              · exact .inl (.inr hfirst)
              · exact .inr ⟨hx, hrest⟩
          · dsimp only
            rw [hactive₂, active_wakeUpAt, hactive₁, List.mem_cons]
            constructor
            · rintro ((hx | rfl) | ⟨hx, hrun⟩)
              · exact .inl hx
              · exact .inr ⟨.inl rfl, hruns⟩
              · exact .inr ⟨.inr hx, hrun⟩
            · rintro (hx | ⟨rfl | hx, hrun⟩)
              · exact .inl (.inl hx)
              · exact .inl (.inr rfl)
              · exact .inr ⟨hx, hrun⟩
        · next hto =>
          have hnot : ¬ Runs data now c := fun h => hto h.2
          obtain ⟨hready₂, hcurrent₂, hactive₂⟩ := ih (k := k + 1) hsorted' hsub' hready added
          refine ⟨hready₂, fun x => ?_, fun x => ?_⟩
          · rw [hcurrent₂, hentries]
            constructor
            · rintro (hx | ⟨hx, hrest⟩)
              · exact .inl hx
              · exact .inr ⟨hx, .inr hrest⟩
            · rintro (hx | ⟨hx, ⟨rfl, -⟩ | hrest⟩)
              · exact .inl hx
              · exact absurd hx hnot
              · exact .inr ⟨hx, hrest⟩
          · rw [hactive₂, List.mem_cons]
            constructor
            · rintro (hx | ⟨hx, hrun⟩)
              · exact .inl hx
              · exact .inr ⟨.inr hx, hrun⟩
            · rintro (hx | ⟨rfl | hx, hrun⟩)
              · exact .inl hx
              · exact absurd hrun hnot
              · exact .inr ⟨hx, hrun⟩
      · next hfrom =>
        -- the contacts behind this one do not begin before it
        have hnone : ∀ x ∈ c :: cs, ¬ Runs data now x := by
          intro x hx hrun
          apply hfrom
          rcases List.mem_cons.mp hx with rfl | hx
          · exact hrun.1
          · exact UInt64.le_trans ((List.pairwise_cons.mp hsorted).1 x hx) hrun.1
        refine ⟨hready.wakeUpAt _, fun x => ?_, fun x => ?_⟩
        · rw [current_wakeUpAt]
          refine ⟨.inl, ?_⟩
          rintro (hx | ⟨hx, i, hget, -⟩)
          · exact hx
          · exact absurd hx (hnone x (List.mem_of_getElem? hget))
        · rw [active_wakeUpAt]
          refine ⟨.inl, ?_⟩
          rintro (hx | ⟨hx, hrun⟩)
          · exact hx
          · exact absurd hrun (hnone x hx)

/-! ## The time of the next check -/

theorem next_wakeUpAt (s : Manager) (time : UInt64) :
    (s.wakeUpAt time).nextContactTime ≤ s.nextContactTime ∧
      (s.wakeUpAt time).nextContactTime ≤ time ∧
      ((s.wakeUpAt time).nextContactTime = s.nextContactTime ∨
        (s.wakeUpAt time).nextContactTime = time) := by
  unfold Manager.wakeUpAt
  split
  · next h => exact ⟨UInt64.le_of_lt h, UInt64.le_refl _, .inr rfl⟩
  · next h => exact ⟨UInt64.le_refl _, UInt64.not_lt.mp h, .inl rfl⟩

@[simp] theorem next_checkUpcoming (a : Attempt) (s : Manager) (c : Addr) :
    (checkUpcoming data a s c).1.nextContactTime = s.nextContactTime := by
  unfold checkUpcoming
  split
  · rfl
  · split
    · rfl
    · dsimp only
      split
      · rfl
      · split
        · rfl
        · split <;> rfl

/-- **The loop finds the next event**, although it stops at the first contact to come. -/
theorem next_processLoop {attempts : Nat → Attempt} {k : Nat} (hsorted : Sorted data cs)
    (added : List ContactInfo) :
    let time := (processLoop data now attempts k cs s added).1.nextContactTime
    time ≤ s.nextContactTime ∧
      (∀ c ∈ cs, ∀ e, nextEvent data now c = some e → time ≤ e) ∧
      (time = s.nextContactTime ∨ ∃ c ∈ cs, nextEvent data now c = some time) := by
  induction cs generalizing k s added with
  | nil => simp [processLoop]
  | cons c cs ih =>
      have hsorted' : Sorted data cs := (List.pairwise_cons.mp hsorted).2
      rw [processLoop]
      split
      · next hfrom =>
        split
        · next hto =>
          have hevent : nextEvent data now c = some (data c).toTime := by
            simp [nextEvent, hfrom, hto]
          set s₁ := (checkUpcoming data (attempts k) s c).1.wakeUpAt (data c).toTime with hs₁
          obtain ⟨hle, htime, hcase⟩ :=
            next_wakeUpAt (checkUpcoming data (attempts k) s c).1 (data c).toTime
          rw [← hs₁, next_checkUpcoming] at hle hcase
          rw [← hs₁] at htime
          obtain ⟨hle₂, hall, hcase₂⟩ := ih (k := k + 1) (s := s₁) hsorted'
            (added ++ (checkUpcoming data (attempts k) s c).2.toList)
          refine ⟨UInt64.le_trans hle₂ hle, ?_, ?_⟩
          · intro x hx e he
            rcases List.mem_cons.mp hx with rfl | hx
            · rw [hevent] at he
              obtain rfl := Option.some.inj he
              exact UInt64.le_trans hle₂ htime
            · exact hall x hx e he
          · rcases hcase₂ with h | ⟨x, hx, he⟩
            · rcases hcase with h' | h'
              · exact .inl (h.trans h')
              · exact .inr ⟨c, List.mem_cons_self, hevent.trans (congrArg some (h.trans h').symm)⟩
            · exact .inr ⟨x, List.mem_cons_of_mem c hx, he⟩
        · next hto =>
          have hevent : nextEvent data now c = none := by
            simp [nextEvent, hfrom, hto]
          obtain ⟨hle, hall, hcase⟩ := ih (k := k + 1) (s := s) hsorted' added
          refine ⟨hle, ?_, ?_⟩
          · intro x hx e he
            rcases List.mem_cons.mp hx with rfl | hx
            · rw [hevent] at he
              cases he
            · exact hall x hx e he
          · rcases hcase with h | ⟨x, hx, he⟩
            · exact .inl h
            · exact .inr ⟨x, List.mem_cons_of_mem c hx, he⟩
      · next hfrom =>
        obtain ⟨hle, htime, hcase⟩ := next_wakeUpAt s (data c).fromTime
        have hlater : ∀ x ∈ c :: cs, (data c).fromTime ≤ (data x).fromTime := by
          intro x hx
          rcases List.mem_cons.mp hx with rfl | hx
          · exact UInt64.le_refl _
          · exact (List.pairwise_cons.mp hsorted).1 x hx
        have hevent : ∀ x ∈ c :: cs, nextEvent data now x = some (data x).fromTime := by
          intro x hx
          have hx' : ¬ (data x).fromTime ≤ now := fun h =>
            hfrom (UInt64.le_trans (hlater x hx) h)
          simp [nextEvent, hx']
        refine ⟨hle, ?_, ?_⟩
        · intro x hx e he
          rw [hevent x hx] at he
          obtain rfl := Option.some.inj he
          exact UInt64.le_trans htime (hlater x hx)
        · rcases hcase with h | h
          · exact .inl h
          · have hfirst := hevent c List.mem_cons_self
            exact .inr ⟨c, List.mem_cons_self, hfirst.trans (congrArg some h.symm)⟩

/-! ## Runs -/

variable {contactList : List Addr} {checks : List Check} {k : Check}

/-- The flags that are set: those of the current contacts, and those of the contacts that could not
be started. -/
def Flagged (data : Addr → Contact) (contactList : List Addr) (checks : List Check) (s : Manager)
    (c : Addr) : Prop :=
  c ∈ s.current ∨ (c ∈ contactList ∧ Due data checks c ∧ ¬ Started data contactList checks c)

/-- What holds after every check, the last of which was made at the given time. -/
structure Inv (data : Addr → Contact) (contactList : List Addr) (checks : List Check)
    (now : UInt64) (s : Manager) : Prop where
  latest : ∀ k ∈ checks, k.now ≤ now
  nodup : s.current.Nodup
  current : ∀ c, c ∈ s.current ↔ Runs data now c ∧ Started data contactList checks c
  active : ∀ c, s.active c = true ↔ Flagged data contactList checks s c

theorem due_append : Due data (checks ++ [k]) c ↔ Due data checks c ∨ Runs data k.now c := by
  simp only [Due, List.mem_append, List.mem_singleton]
  constructor
  · rintro ⟨j, hj | rfl, hruns⟩
    · exact .inl ⟨j, hj, hruns⟩
    · exact .inr hruns
  · rintro (⟨j, hj, hruns⟩ | hruns)
    · exact ⟨j, .inl hj, hruns⟩
    · exact ⟨k, .inr rfl, hruns⟩

theorem started_append : Started data contactList (checks ++ [k]) c ↔
    Started data contactList checks c ∨
      (Runs data k.now c ∧ ∃ i, contactList[i]? = some c ∧ (k.attempts i).Succeeds) := by
  simp only [Started, List.mem_append, List.mem_singleton]
  constructor
  · rintro ⟨j, hj | rfl, hstarted⟩
    · exact .inl ⟨j, hj, hstarted⟩
    · exact .inr hstarted
  · rintro (⟨j, hj, hstarted⟩ | hstarted)
    · exact ⟨j, .inl hj, hstarted⟩
    · exact ⟨k, .inr rfl, hstarted⟩

theorem Started.mem (h : Started data contactList checks c) : c ∈ contactList := by
  obtain ⟨k, -, -, i, hget, -⟩ := h
  exact List.mem_of_getElem? hget

theorem Started.due (h : Started data contactList checks c) : Due data checks c := by
  obtain ⟨k, hk, hruns, -⟩ := h
  exact ⟨k, hk, hruns⟩

/-- The manager after the contacts that have ended were removed. -/
theorem Inv.ready (h : Inv data contactList checks now s) {later : UInt64} :
    Ready contactList (removeExpiredContacts data later s).1 := by
  constructor
  · rw [current_removeExpired]
    exact h.nodup.filter _
  · intro x hx
    rw [current_removeExpired] at hx
    exact ((h.current x).mp (List.mem_of_mem_filter hx)).2.mem
  · intro x hx
    rw [current_removeExpired, List.mem_filter] at hx
    have hto : ¬ (data x).toTime ≤ later := UInt64.not_le.mpr (by simpa using hx.2)
    rw [active_removeExpired, (h.active x).mpr (.inl hx.1)]
    simp [hto]

/-- **A check keeps the invariant.** -/
theorem Inv.check (h : Inv data contactList checks now s) (hlen : contactList.length ≤ 127)
    (hsorted : Sorted data contactList) (hlater : now ≤ k.now) :
    Inv data contactList (checks ++ [k]) k.now
      (checkForContacts data k.now contactList k.attempts s).1 := by
  have hready : Ready contactList { (removeExpiredContacts data k.now s).1 with
      nextContactTime := 0xFFFFFFFFFFFFFFFF } := ⟨h.ready.nodup, h.ready.listed, h.ready.active⟩
  obtain ⟨hready', hcurrent, hactive⟩ := @processLoop_spec data k.now _ _ _ hlen
    k.attempts 0 hsorted (fun x hx => hx) hready []
  simp only [Nat.zero_add] at hcurrent
  -- the contacts that are still there, and those that begin
  have hmem : ∀ x, x ∈ (checkForContacts data k.now contactList k.attempts s).1.current ↔
      Runs data k.now x ∧ Started data contactList (checks ++ [k]) x := by
    intro x
    refine (hcurrent x).trans ?_
    rw [started_append]
    have hstay : x ∈ (removeExpiredContacts data k.now s).1.current ↔
        Runs data k.now x ∧ Started data contactList checks x := by
      rw [current_removeExpired, List.mem_filter, h.current x]
      constructor
      · rintro ⟨⟨hruns, hstarted⟩, hto⟩
        exact ⟨⟨UInt64.le_trans hruns.1 hlater, by simpa using hto⟩, hstarted⟩
      · rintro ⟨hruns, hstarted⟩
        obtain ⟨j, hj, hdue⟩ := hstarted.due
        have hfrom := UInt64.le_trans hdue.1 (h.latest j hj)
        exact ⟨⟨⟨hfrom, UInt64.lt_of_le_of_lt hlater hruns.2⟩, hstarted⟩, by simpa using hruns.2⟩
    constructor
    · rintro (hx | ⟨hruns, hstarted⟩)
      · exact ⟨(hstay.mp hx).1, .inl (hstay.mp hx).2⟩
      · exact ⟨hruns, .inr ⟨hruns, hstarted⟩⟩
    · rintro ⟨hruns, hstarted | ⟨-, hstarted⟩⟩
      · exact .inl (hstay.mpr ⟨hruns, hstarted⟩)
      · exact .inr ⟨hruns, hstarted⟩
  refine ⟨?_, hready'.nodup, hmem, fun x => ?_⟩
  · intro j hj
    rcases List.mem_append.mp hj with hj | hj
    · exact UInt64.le_trans (h.latest j hj) hlater
    · obtain rfl := List.mem_singleton.mp hj
      exact UInt64.le_refl _
  · refine (hactive x).trans ?_
    have hkept : (removeExpiredContacts data k.now s).1.active x = true ↔
        Flagged data contactList checks s x ∧ ¬ (x ∈ s.current ∧ (data x).toTime ≤ k.now) := by
      rw [active_removeExpired, Bool.and_eq_true, h.active x, Bool.not_eq_true',
        decide_eq_false_iff_not]
    rw [Flagged, hmem x, due_append]
    constructor
    · rintro (hx | ⟨hlist, hruns⟩)
      · obtain ⟨hflag, hstays⟩ := hkept.mp hx
        rcases hflag with hcur | ⟨hlist, hdue, hnot⟩
        · have hto : k.now < (data x).toTime := UInt64.not_le.mp fun hle => hstays ⟨hcur, hle⟩
          obtain ⟨hruns, hstarted⟩ := (h.current x).mp hcur
          exact .inl ⟨⟨UInt64.le_trans hruns.1 hlater, hto⟩, started_append.mpr (.inl hstarted)⟩
        · by_cases hstarted : Started data contactList (checks ++ [k]) x
          · rcases started_append.mp hstarted with hbefore | hnow
            · exact absurd hbefore hnot
            · exact .inl ⟨hnow.1, hstarted⟩
          · exact .inr ⟨hlist, .inl hdue, hstarted⟩
      · by_cases hstarted : Started data contactList (checks ++ [k]) x
        · exact .inl ⟨hruns, hstarted⟩
        · exact .inr ⟨hlist, .inr hruns, hstarted⟩
    · rintro (⟨hruns, hstarted⟩ | ⟨hlist, hdue | hruns, hnot⟩)
      · exact .inr ⟨hstarted.mem, hruns⟩
      · have hbefore : ¬ Started data contactList checks x := fun hb =>
          hnot (started_append.mpr (.inl hb))
        refine .inl (hkept.mpr ⟨.inr ⟨hlist, hdue, hbefore⟩, ?_⟩)
        rintro ⟨hcur, -⟩
        exact hbefore ((h.current x).mp hcur).2
      · exact .inr ⟨hlist, hruns⟩

theorem history_append (contactList : List Addr) (checks : List Check) (k : Check) :
    history data contactList (checks ++ [k]) =
      (checkForContacts data k.now contactList k.attempts (history data contactList checks)).1 := by
  simp [history]

/-- **Every run.**  The times of the checks do not decrease. -/
theorem inv_history (hlen : contactList.length ≤ 127) (hsorted : Sorted data contactList)
    {now : UInt64} (htimes : checks.Pairwise fun a b => a.now ≤ b.now)
    (hlatest : ∀ k ∈ checks, k.now ≤ now) (hlast : ∀ k, checks.getLast? = some k → k.now = now) :
    Inv data contactList checks now (history data contactList checks) := by
  induction checks using List.reverseRecOn generalizing now with
  | nil =>
      refine ⟨hlatest, List.nodup_nil, ?_, ?_⟩
      · simp [history, init, Manager.current, Started]
      · simp [history, init, Manager.current, Flagged, Due]
  | append_singleton checks k ih =>
      obtain rfl := hlast k (by simp)
      rw [history_append]
      obtain ⟨hbefore, -, hle⟩ := List.pairwise_append.mp htimes
      have hle' : ∀ j ∈ checks, j.now ≤ k.now := fun j hj => hle j hj k (List.mem_singleton_self k)
      cases hcase : checks.getLast? with
      | none =>
          obtain rfl := List.getLast?_eq_none_iff.mp hcase
          have hinv := @ih k.now hbefore hle' (by simp)
          exact hinv.check hlen hsorted (UInt64.le_refl _)
      | some j =>
          have hj : j ∈ checks := List.mem_of_getLast? hcase
          have hmax : ∀ i ∈ checks, i.now ≤ j.now := by
            obtain ⟨init, hinit⟩ := List.getLast?_eq_some_iff.mp hcase
            intro i hi
            rw [hinit] at hi hbefore
            rcases List.mem_append.mp hi with hi | hi
            · exact (List.pairwise_append.mp hbefore).2.2 i hi j (List.mem_singleton_self j)
            · obtain rfl := List.mem_singleton.mp hi
              exact UInt64.le_refl _
          have hlast' : ∀ i, checks.getLast? = some i → i.now = j.now := by
            intro i hi
            rw [hcase] at hi
            exact congrArg Check.now (Option.some.inj hi).symm
          exact (ih hbefore hmax hlast').check hlen hsorted (hle' j hj)

/-- What the manager is for: the list of current contacts, the flags and the time of the next
check, after checks the last of which was made at the given time. -/
structure Tracked (data : Addr → Contact) (contactList : List Addr) (checks : List Check)
    (now : UInt64) (s : Manager) : Prop where
  nodup : s.current.Nodup
  current : ∀ c, c ∈ s.current ↔
    c ∈ contactList ∧ Runs data now c ∧ Started data contactList checks c
  active : ∀ c ∈ contactList, s.active c = true ↔ c ∈ s.current
  next : IsNext data now contactList s.nextContactTime

/-- The time of the next check is right after every check. -/
theorem isNext_check (hsorted : Sorted data contactList) (attempts : Nat → Attempt) (s : Manager) :
    IsNext data now contactList
      (checkForContacts data now contactList attempts s).1.nextContactTime := by
  obtain ⟨-, hall, hcase⟩ := @next_processLoop data now
    { (removeExpiredContacts data now s).1 with nextContactTime := 0xFFFFFFFFFFFFFFFF } _ attempts 0
    hsorted []
  exact ⟨hall, hcase⟩

/-- **The flags agree with the list of current contacts exactly when** every contact that was due in
one of the checks could be started in one of them.  Everything else holds after every check. -/
theorem active_exact (hlen : contactList.length ≤ 127) (hsorted : Sorted data contactList)
    (htimes : (checks ++ [k]).Pairwise fun a b => a.now ≤ b.now) :
    Tracked data contactList (checks ++ [k]) k.now (history data contactList (checks ++ [k])) ↔
      ∀ c ∈ contactList, Due data (checks ++ [k]) c →
        Started data contactList (checks ++ [k]) c := by
  have hlatest : ∀ j ∈ checks ++ [k], j.now ≤ k.now := by
    intro j hj
    rcases List.mem_append.mp hj with hj | hj
    · exact (List.pairwise_append.mp htimes).2.2 j hj k (List.mem_singleton_self k)
    · obtain rfl := List.mem_singleton.mp hj
      exact UInt64.le_refl _
  have hinv := @inv_history _ _ _ hlen hsorted k.now htimes hlatest (by simp)
  constructor
  · intro h c hc hdue
    by_contra hnot
    have hflag := (hinv.active c).mpr (.inr ⟨hc, hdue, hnot⟩)
    exact hnot ((hinv.current c).mp ((h.active c hc).mp hflag)).2
  · intro h
    refine ⟨hinv.nodup, fun c => ?_, fun c hc => ?_, ?_⟩
    · rw [hinv.current c]
      exact ⟨fun hx => ⟨hx.2.mem, hx⟩, And.right⟩
    · rw [hinv.active c, Flagged]
      refine ⟨?_, .inl⟩
      rintro (hx | ⟨-, hdue, hnot⟩)
      · exact hx
      · exact absurd (h c hc hdue) hnot
    · rw [history_append]
      exact isNext_check hsorted k.attempts _

/-- Two contacts that overlap. -/
def twoContacts (c : Addr) : Contact :=
  ⟨"dtn:a".toList, "mtcp:a".toList, if c = 0 then 0 else 5, if c = 0 then 10 else 20⟩

/-- The first one cannot be started in the first check, but in the second one. -/
theorem active_exact_retry :
    Tracked twoContacts [0, 1] [⟨3, fun _ => ⟨none, true, true⟩⟩,
      ⟨6, fun _ => ⟨some 1, true, true⟩⟩]
      6 (history twoContacts [0, 1]
        [⟨3, fun _ => ⟨none, true, true⟩⟩, ⟨6, fun _ => ⟨some 1, true, true⟩⟩]) := by
  refine (@active_exact _ _ [⟨3, fun _ => ⟨none, true, true⟩⟩] ⟨6, fun _ => ⟨some 1, true, true⟩⟩
    (by decide) ?_ ?_).mpr ?_
  · exact List.pairwise_cons.mpr ⟨by decide, List.pairwise_singleton _ _⟩
  · refine List.pairwise_cons.mpr ⟨?_, List.pairwise_singleton _ _⟩
    intro j hj
    obtain rfl := List.mem_singleton.mp hj
    decide
  · intro c hc _
    refine ⟨⟨6, fun _ => ⟨some 1, true, true⟩⟩, by simp, ?_, ?_⟩
    · rcases List.mem_pair.mp hc with rfl | rfl <;> exact ⟨by decide, by decide⟩
    · obtain ⟨i, hi⟩ := List.getElem?_of_mem hc
      exact ⟨i, hi, rfl, rfl, rfl⟩

/-- **A flag without a contact.**  The handle of the CLA cannot be obtained. -/
theorem active_without_contact :
    ¬ Tracked twoContacts [0] [⟨3, fun _ => ⟨none, true, true⟩⟩] 3
      (history twoContacts [0] [⟨3, fun _ => ⟨none, true, true⟩⟩]) := by
  intro h
  have hactive := h.active 0 (List.mem_singleton_self 0)
  revert hactive
  decide

end ContactManager
