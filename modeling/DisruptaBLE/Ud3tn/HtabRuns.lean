import DisruptaBLE.Ud3tn.SimpleHtab

/-!
# Runs of the hash table

Any sequence of calls of the hash table, between which its callers do what they like with strings of
their own.  `htab_finite_map` says that the table is a finite map from strings to values.
-/

namespace SimpleHtab

open PtrHeap
open EpidemicRouter (CStr)

/-! ## Definitions -/

/-- A call, with the address of the string that is its key. -/
inductive Call where
  | add (memory : Allocator) (key : Addr) (value : Ptr)
  | get (key : Addr)
  | getPair (key : Addr)
  | remove (key : Addr)
  | trunc

/-- The key of a call is a string in memory: one of the caller's, or one that the caller found in an
entry. -/
def Call.Live (t : Htab) : Call → Prop
  | .add _ key _ => ∃ text, t.strings.cells key = some text
  | .get key => ∃ text, t.strings.cells key = some text
  | .getPair key => ∃ text, t.strings.cells key = some text
  | .remove key => ∃ text, t.strings.cells key = some text
  | .trunc => True

/-- What a caller sees of a call: the text of the key and what is returned, and for a pointer to an
entry the text and the value that are read through it. -/
inductive Event where
  | add (text : CStr) (value : Ptr) (p : Ptr) (pair : Option (CStr × Ptr))
  | get (text : CStr) (value : Ptr)
  | getPair (text : CStr) (p : Ptr) (pair : Option (CStr × Ptr))
  | remove (text : CStr) (value : Ptr)
  | trunc
  deriving DecidableEq, Repr

/-- A call is made. -/
def exec (hashlittle : CStr → UInt32) (t : Htab) : Call → Except Fault (Event × Htab)
  | .add memory key value => do
      let text ← t.strings.load (some key)
      let (p, t) ← htabAdd hashlittle memory t key value
      pure (.add text value p (t.pairAt p), t)
  | .get key => do
      let text ← t.strings.load (some key)
      let value ← htabGet hashlittle t key
      pure (.get text value, t)
  | .getPair key => do
      let text ← t.strings.load (some key)
      let p ← htabGetPair hashlittle t key
      pure (.getPair text p (t.pairAt p), t)
  | .remove key => do
      let text ← t.strings.load (some key)
      let (value, t) ← htabRemove hashlittle t key
      pure (.remove text value, t)
  | .trunc => do
      let t ← htabTrunc t
      pure (.trunc, t)

/-- The callers create, overwrite and release strings, but not the table's copies of its keys. -/
structure CallerStep (t t' : Htab) : Prop where
  slotCount : t'.slotCount = t.slotCount
  elements : t'.elements = t.elements
  entries : t'.entries = t.entries
  copies : ∀ a e, t.entries.cells a = some e → t'.strings.cells e.key = t.strings.cells e.key

/-- A run of calls, with live keys. -/
inductive Run (hashlittle : CStr → UInt32) : Htab → List Event → Htab → Prop where
  | nil {t : Htab} : Run hashlittle t [] t
  | caller {t t₁ t' : Htab} {events : List Event} :
      CallerStep t t₁ → Run hashlittle t₁ events t' → Run hashlittle t events t'
  | call {t t₁ t' : Htab} {call : Call} {event : Event} {events : List Event} :
      call.Live t → exec hashlittle t call = .ok (event, t₁) → Run hashlittle t₁ events t' →
      Run hashlittle t (event :: events) t'

/-! ## The finite map -/

/-- A map from strings to values. -/
abbrev StringMap := CStr → Option Ptr

/-- The event that a finite map shows for a call.  `NULL` is returned where there is no value. -/
def Event.Meets (m : StringMap) : Event → Prop
  | .add text value p pair =>
      (p = none ↔ m text ≠ none) ∧ pair = if m text = none then some (text, value) else none
  | .get text value => value = (m text).getD none
  | .getPair text p pair => (p = none ↔ m text = none) ∧ pair = (m text).map (text, ·)
  | .remove text value => value = (m text).getD none
  | .trunc => True

/-- The map behind a call. -/
def Event.next (m : StringMap) : Event → StringMap
  | .add text value _ _ => if m text = none then Function.update m text (some value) else m
  | .get _ _ => m
  | .getPair _ _ _ => m
  | .remove text _ => Function.update m text none
  | .trunc => fun _ => none

/-- The events are those of a finite map that starts with `m`. -/
def MapRun : StringMap → List Event → Prop
  | _, [] => True
  | m, event :: events => event.Meets m ∧ MapRun (event.next m) events

/-! ## Steps -/

/-- The memory holds a finite map. -/
def HoldsMap (hashlittle : CStr → UInt32) (t : Htab) (m : StringMap) : Prop :=
  t.slotCount ≠ 0 ∧ ∃ T chains, Represents t T chains ∧ ∀ text, T.lookup hashlittle text = m text

section Steps

variable {hashlittle : CStr → UInt32} {t t' : Htab} {m : StringMap}

theorem HoldsMap.caller (h : HoldsMap hashlittle t m) (hstep : CallerStep t t') :
    HoldsMap hashlittle t' m := by
  obtain ⟨hpos, T, chains, hrep, hmap⟩ := h
  refine ⟨by rw [hstep.slotCount]; exact hpos, T, chains, ?_, hmap⟩
  refine ⟨by rw [hstep.slotCount]; exact hrep.count, by
    rw [hstep.slotCount, hstep.elements]; exact hrep.slots, ?_, ?_, ?_, ?_⟩
  · rw [hstep.elements, hstep.entries]
    exact hrep.seg
  · rw [hstep.slotCount]
    intro i hi
    refine (hrep.stores i hi).imp ?_
    intro a x hstore
    obtain ⟨e, he, hkey, hvalue⟩ := hstore
    exact ⟨e, by rw [hstep.entries]; exact he, (hstep.copies a e he).trans hkey, hvalue⟩
  · rw [hstep.slotCount]
    exact hrep.apart
  · rw [hstep.slotCount, hstep.entries]
    exact hrep.keys

/-- **One call**, of any kind, is one step of the map. -/
theorem HoldsMap.exec (h : HoldsMap hashlittle t m) {call : Call} (hlive : call.Live t) :
    ∃ event t', exec hashlittle t call = .ok (event, t') ∧ event.Meets m ∧
      HoldsMap hashlittle t' (event.next m) := by
  obtain ⟨hpos, T, chains, hrep, hmap⟩ := id h
  cases call with
  | add memory key value =>
      obtain ⟨text, hkey⟩ := hlive
      rw [SimpleHtab.exec, Heap.load_cell hkey, ok_bind]
      obtain ⟨hpresent, hadd⟩ | ⟨habsent, p, t', chains', hadd, hcount, hrep', hp, hpair⟩ :=
        htabAdd_spec hrep hpos memory value hkey
      · rw [hmap] at hpresent
        rw [hadd]
        refine ⟨_, t, rfl, ⟨iff_of_true rfl hpresent, ?_⟩, ?_⟩
        · rw [if_neg hpresent]
          rfl
        · rw [Event.next, if_neg hpresent]
          exact h
      · have hnone := habsent
        rw [hmap] at hnone
        rw [hadd]
        refine ⟨_, t', rfl, ⟨iff_of_false hp (not_not_intro hnone), ?_⟩, ?_⟩
        · rw [if_pos hnone]
          exact hpair
        · rw [Event.next, if_pos hnone]
          refine ⟨by rw [hcount]; exact hpos, _, chains', hrep', fun k => ?_⟩
          rw [EpidemicRouter.Htab.lookup_add, hmap, Function.update_apply]
  | get key =>
      obtain ⟨text, hkey⟩ := hlive
      rw [SimpleHtab.exec, Heap.load_cell hkey, ok_bind, htabGet_spec hrep hpos hkey]
      exact ⟨_, t, rfl, by rw [Event.Meets, hmap], h⟩
  | getPair key =>
      obtain ⟨text, hkey⟩ := hlive
      obtain ⟨p, hget, hp, hpair⟩ := @htabGetPair_spec hashlittle t T chains key text hrep hpos hkey
      rw [SimpleHtab.exec, Heap.load_cell hkey, ok_bind, hget]
      rw [hmap] at hp hpair
      exact ⟨_, t, rfl, ⟨hp, hpair⟩, h⟩
  | remove key =>
      obtain ⟨text, hkey⟩ := hlive
      rw [SimpleHtab.exec, Heap.load_cell hkey, ok_bind]
      obtain ⟨hnone, hremove⟩ | ⟨t', chains', value, hsome, hremove, hcount, hrep'⟩ :=
        @htabRemove_spec hashlittle t T chains key text hrep hpos hkey
      · rw [hmap] at hnone
        rw [hremove]
        refine ⟨_, t, rfl, by rw [Event.Meets, hnone]; rfl, ?_⟩
        rw [Event.next, Function.update_eq_self_iff.mpr hnone.symm]
        exact h
      · rw [hmap] at hsome
        rw [hremove]
        refine ⟨_, t', rfl, by rw [Event.Meets, hsome]; rfl, by rw [hcount]; exact hpos, _, chains',
          hrep', fun k => ?_⟩
        rw [EpidemicRouter.Htab.lookup_remove, hmap, Event.next, Function.update_apply]
  | trunc =>
      obtain ⟨t', T', chains', htrunc, hcount, hrep', hempty⟩ :=
        @htabTrunc_spec hashlittle t T chains hrep hpos
      rw [SimpleHtab.exec, htrunc]
      exact ⟨_, t', rfl, trivial, by rw [hcount]; exact hpos, T', chains', hrep', hempty⟩

end Steps

/-! ## Runs -/

section Runs

variable {hashlittle : CStr → UInt32} {t t' : Htab} {m : StringMap} {events : List Event}

theorem HoldsMap.run (h : HoldsMap hashlittle t m) (hrun : Run hashlittle t events t') :
    MapRun m events ∧ ∃ m', HoldsMap hashlittle t' m' := by
  induction hrun generalizing m with
  | nil => exact ⟨trivial, m, h⟩
  | caller hstep _ ih => exact ih (h.caller hstep)
  | call hlive hexec _ ih =>
      obtain ⟨event, t₁, hexec', hmeets, hnext⟩ := h.exec hlive
      rw [hexec] at hexec'
      cases hexec'
      obtain ⟨hrest, hfinal⟩ := ih hnext
      exact ⟨⟨hmeets, hrest⟩, hfinal⟩

theorem holdsMap_alloc {slotCount : UInt16} (hpos : slotCount ≠ 0) :
    ∃ t, htabAlloc slotCount = .ok t ∧ HoldsMap hashlittle t fun _ => none := by
  have halloc : htabAlloc slotCount =
      .ok ⟨slotCount, List.replicate slotCount.toNat none, Heap.empty, Heap.empty⟩ := by
    rw [htabAlloc, assertC_of (decide_eq_true hpos)]
    rfl
  exact ⟨_, halloc, hpos, _, _, represents_alloc halloc, fun _ => rfl⟩

end Runs

/-- **The hash table is a finite map.**  For every number of slots but zero and every hash, whatever
calls are made with live keys, the callers see of them what a finite map from strings to values
shows, and no call with a live key goes wrong. -/
theorem htab_finite_map (hashlittle : CStr → UInt32) {slotCount : UInt16} (hpos : slotCount ≠ 0) :
    ∃ t₀, htabAlloc slotCount = .ok t₀ ∧ ∀ events t, Run hashlittle t₀ events t →
      MapRun (fun _ => none) events ∧
        ∀ call : Call, call.Live t → ∃ event t', exec hashlittle t call = .ok (event, t') := by
  obtain ⟨t₀, halloc, hmap⟩ := @holdsMap_alloc hashlittle slotCount hpos
  refine ⟨t₀, halloc, fun events t hrun => ?_⟩
  obtain ⟨hevents, m, hfinal⟩ := hmap.run hrun
  refine ⟨hevents, fun call hlive => ?_⟩
  obtain ⟨event, t', hexec, -, -⟩ := hfinal.exec hlive
  exact ⟨event, t', hexec⟩

/-- The caller's strings "a" and "b" at the addresses 0 and 1. -/
def demoStrings : Heap CStr := (Heap.empty.set 0 "a".toList).set 1 "b".toList

/-- Two keys in the only slot: both are added, the first one once only, and the first is removed. -/
theorem htab_finite_map_two :
    ∃ t, Run (fun _ => 0) ⟨1, [none], Heap.empty, Heap.empty⟩
        [.add "a".toList (some 7) (some 0) (some ("a".toList, some 7)),
          .add "a".toList (some 8) none none,
          .add "b".toList (some 9) (some 1) (some ("b".toList, some 9)),
          .remove "a".toList (some 7), .get "b".toList (some 9)] t ∧
      ∃ event t', exec (fun _ => 0) t (.get 0) = .ok (event, t') := by
  have hcaller : CallerStep ⟨1, [none], Heap.empty, Heap.empty⟩
      ⟨1, [none], Heap.empty, demoStrings⟩ :=
    ⟨rfl, rfl, rfl, fun a e he => by cases he⟩
  obtain ⟨t₀, halloc, hruns⟩ := htab_finite_map (fun _ => 0) (show (1 : UInt16) ≠ 0 by decide)
  obtain rfl := Except.ok.inj halloc
  have hrun : ∃ t, Run (fun _ => 0) ⟨1, [none], Heap.empty, Heap.empty⟩
      [.add "a".toList (some 7) (some 0) (some ("a".toList, some 7)),
        .add "a".toList (some 8) none none,
        .add "b".toList (some 9) (some 1) (some ("b".toList, some 9)),
        .remove "a".toList (some 7), .get "b".toList (some 9)] t ∧
      ∃ text, t.strings.cells 0 = some text := by
    exact ⟨_, .caller hcaller
      (@Run.call _ _ _ _ (.add topAllocator 0 (some 7)) _ _ ⟨_, rfl⟩ rfl
      (@Run.call _ _ _ _ (.add topAllocator 0 (some 8)) _ _ ⟨_, rfl⟩ rfl
      (@Run.call _ _ _ _ (.add topAllocator 1 (some 9)) _ _ ⟨_, rfl⟩ rfl
      (@Run.call _ _ _ _ (.remove 0) _ _ ⟨_, rfl⟩ rfl
      (@Run.call _ _ _ _ (.get 1) _ _ ⟨_, rfl⟩ rfl .nil))))), _, rfl⟩
  obtain ⟨t, hrun, hlive⟩ := hrun
  exact ⟨t, hrun, (hruns _ t hrun).2 (.get 0) hlive⟩

end SimpleHtab
