import DisruptaBLE.Epidemic.Htab
import DisruptaBLE.Lib.Chain

/-!
# The hash table in memory

`components/ud3tn/simplehtab.c` with its entries, its copies of the keys and the strings of its
callers in memory.  Functions find an entry by the address of the pointer that leads to it (`Link`),
and change the table through that pointer.

`Represents` connects the memory with the table of lists of `Epidemic/Htab`: each operation does
there what its name says, so that the keys in one slot do not get into each other's way.
-/

namespace SimpleHtab

open PtrHeap
open EpidemicRouter (CStr)

/-! ## Definitions -/

/-- `struct htab_entrylist`.  A value is a `void *`. -/
structure EntryList where
  key : Addr
  value : Ptr
  next : Ptr
  deriving DecidableEq, Repr

/-- `struct htab`, and the memory behind it: the entries, and all strings, those of the callers
included. -/
structure Htab where
  slotCount : UInt16
  elements : List Ptr
  entries : Heap EntryList
  strings : Heap CStr

/-- A `struct htab_entrylist **`: one of the slots, or the link of an entry. -/
inductive Link where
  | slot (i : Nat)
  | next (a : Addr)
  deriving DecidableEq, Repr

/-- Where `malloc` finds room for an entry and for a string. -/
structure Allocator where
  entry : Heap EntryList → Addr
  entry_fresh : ∀ h : Heap EntryList, h.cells (entry h) = none
  string : Heap CStr → Addr
  string_fresh : ∀ h : Heap CStr, h.cells (string h) = none

/-- Allocation behind everything that was ever used. -/
def topAllocator : Allocator where
  entry h := h.bound
  entry_fresh h := h.free_above _ (Nat.le_refl _)
  string h := h.bound
  string_fresh h := h.free_above _ (Nat.le_refl _)

/-- `htab_alloc`. -/
def htabAlloc (slotCount : UInt16) : Except Fault Htab := do
  assertC (slotCount ≠ 0)
  pure ⟨slotCount, List.replicate slotCount.toNat none, Heap.empty, Heap.empty⟩

namespace Htab

/-- `*link`. -/
def follow (t : Htab) : Link → Except Fault Ptr
  | .slot i =>
      match t.elements[i]? with
      | some p => .ok p
      | none => .error .dangling
  | .next a => do
      let e ← t.entries.load (some a)
      pure e.next

/-- `*link = p`. -/
def redirect (t : Htab) (link : Link) (p : Ptr) : Except Fault Htab :=
  match link with
  | .slot i =>
      if i < t.elements.length then .ok { t with elements := t.elements.set i p }
      else .error .dangling
  | .next a => do
      let entries ← t.entries.modify (some a) fun e => { e with next := p }
      pure { t with entries }

/-- The comparison of an entry with a key. -/
def matchesKey (t : Htab) (comparePtrOnly : Bool) (key : Addr) (e : EntryList) :
    Except Fault Bool :=
  if e.key = key then .ok true
  else if comparePtrOnly then .ok false
  else do
    let stored ← t.strings.load (some e.key)
    let text ← t.strings.load (some key)
    pure (decide (stored = text))

/-- The loops of `get_elist_ptr_by_hash`. -/
def findLoop (t : Htab) (comparePtrOnly : Bool) (key : Addr) :
    Nat → Link → Except Fault (Option Link)
  | 0, _ => .error .diverged
  | fuel + 1, link => do
      match ← t.follow link with
      | none => pure none
      | some a =>
          let e ← t.entries.load (some a)
          if ← t.matchesKey comparePtrOnly key e then pure (some link)
          else findLoop t comparePtrOnly key fuel (.next a)

/-- `get_elist_ptr_by_hash`. -/
def getElistPtrByHash (t : Htab) (hash : Nat) (key : Addr) (comparePtrOnly : Bool) :
    Except Fault (Option Link) :=
  t.findLoop comparePtrOnly key (t.entries.bound + 1) (.slot hash)

/-- The loop of `htab_add_known` to the end of a chain. -/
def lastLink (t : Htab) : Nat → Link → Except Fault Link
  | 0, _ => .error .diverged
  | fuel + 1, link => do
      match ← t.follow link with
      | none => pure link
      | some a => lastLink t fuel (.next a)

end Htab

/-- `strncpy(copy, text, n)`, which has no terminator if the text takes all `n` bytes. -/
def strncpy (text : CStr) (n : Nat) : Except Fault CStr :=
  if text.length < n then .ok text else .error .dangling

/-- `htab_add_known`. -/
def htabAddKnown (memory : Allocator) (t : Htab) (key : Addr) (hash : UInt16) (keyLength : Nat)
    (valptr : Ptr) (comparePtrOnly : Bool) : Except Fault (Ptr × Htab) := do
  assertC (t.slotCount ≠ 0)
  let shash := (hash % t.slotCount).toNat
  match ← t.getElistPtrByHash shash key comparePtrOnly with
  | some _ => pure (none, t)
  | none =>
      let newElem := memory.entry t.entries
      let newKey := memory.string t.strings
      let text ← t.strings.load (some key)
      let copy ← strncpy text (keyLength + 1)
      let t := { t with
        entries := t.entries.set newElem ⟨newKey, valptr, none⟩
        strings := t.strings.set newKey copy }
      let link ← t.lastLink (t.entries.bound + 1) (.slot shash)
      let t ← t.redirect link (some newElem)
      pure (some newElem, t)

/-- `htab_get_known_pair`. -/
def htabGetKnownPair (t : Htab) (key : Addr) (hash : UInt16) (comparePtrOnly : Bool) :
    Except Fault Ptr := do
  assertC (t.slotCount ≠ 0)
  match ← t.getElistPtrByHash (hash % t.slotCount).toNat key comparePtrOnly with
  | none => pure none
  | some link => t.follow link

/-- `htab_get_known`. -/
def htabGetKnown (t : Htab) (key : Addr) (hash : UInt16) (comparePtrOnly : Bool) :
    Except Fault Ptr := do
  assertC (t.slotCount ≠ 0)
  match ← t.getElistPtrByHash (hash % t.slotCount).toNat key comparePtrOnly with
  | none => pure none
  | some link =>
      let e ← t.entries.load (← t.follow link)
      pure e.value

/-- `htab_remove_known`. -/
def htabRemoveKnown (t : Htab) (key : Addr) (hash : UInt16) (comparePtrOnly : Bool) :
    Except Fault (Ptr × Htab) := do
  assertC (t.slotCount ≠ 0)
  match ← t.getElistPtrByHash (hash % t.slotCount).toNat key comparePtrOnly with
  | none => pure (none, t)
  | some link =>
      let p ← t.follow link
      let e ← t.entries.load p
      let strings ← t.strings.release (some e.key)
      let entries ← t.entries.release p
      let t ← { t with entries, strings }.redirect link e.next
      pure (e.value, t)

/-- The inner loop of `htab_trunc`. -/
def truncChain : Nat → Ptr → Htab → Except Fault Htab
  | 0, _, _ => .error .diverged
  | _ + 1, none, t => .ok t
  | fuel + 1, some a, t => do
      let e ← t.entries.load (some a)
      let strings ← t.strings.release (some e.key)
      let entries ← t.entries.release (some a)
      truncChain fuel e.next { t with entries, strings }

/-- The outer loop of `htab_trunc`, from the slot `i` on. -/
def truncSlots : Nat → Nat → Htab → Except Fault Htab
  | 0, _, t => .ok t
  | n + 1, i, t => do
      let cur ← t.follow (.slot i)
      let t ← truncChain (t.entries.bound + 1) cur t
      let t ← t.redirect (.slot i) none
      truncSlots n (i + 1) t

/-- `htab_trunc`. -/
def htabTrunc (t : Htab) : Except Fault Htab := truncSlots t.slotCount.toNat 0 t

section Entries

variable (hashlittle : CStr → UInt32)

/-- `htab_add`. -/
def htabAdd (memory : Allocator) (t : Htab) (key : Addr) (valptr : Ptr) :
    Except Fault (Ptr × Htab) := do
  let text ← t.strings.load (some key)
  htabAddKnown memory t key (hashlittle text).toUInt16 text.length valptr false

/-- `htab_get`. -/
def htabGet (t : Htab) (key : Addr) : Except Fault Ptr := do
  let text ← t.strings.load (some key)
  htabGetKnown t key (hashlittle text).toUInt16 false

/-- `htab_get_pair`. -/
def htabGetPair (t : Htab) (key : Addr) : Except Fault Ptr := do
  let text ← t.strings.load (some key)
  htabGetKnownPair t key (hashlittle text).toUInt16 false

/-- `htab_remove`. -/
def htabRemove (t : Htab) (key : Addr) : Except Fault (Ptr × Htab) := do
  let text ← t.strings.load (some key)
  htabRemoveKnown t key (hashlittle text).toUInt16 false

end Entries

/-! ## Links -/

section Links

variable {t : Htab} {p q r : Ptr} {l l₁ l₂ : List Addr}

/-- The link behind the cells `l` of a chain that starts at `link`. -/
def linkAfter (link : Link) : List Addr → Link
  | [] => link
  | a :: l => linkAfter (.next a) l

theorem linkAfter_snoc (link : Link) (l : List Addr) (a : Addr) :
    linkAfter link (l ++ [a]) = .next a := by
  induction l generalizing link with
  | nil => rfl
  | cons b l ih => exact ih (.next b)

theorem follow_next {a : Addr} {e : EntryList} (h : t.entries.cells a = some e) :
    t.follow (.next a) = .ok e.next := by
  rw [Htab.follow, Heap.load_cell h]
  rfl

theorem follow_slot {i : Nat} (h : t.elements[i]? = some p) : t.follow (.slot i) = .ok p := by
  rw [Htab.follow, h]

theorem follow_linkAfter {link : Link} (hlink : t.follow link = .ok p)
    (hseg : IsSeg t.entries EntryList.next p l q) : t.follow (linkAfter link l) = .ok q := by
  induction l generalizing link p with
  | nil =>
      obtain rfl : p = q := hseg
      exact hlink
  | cons a l ih =>
      obtain ⟨rfl, e, he, hrest⟩ := hseg
      exact ih (follow_next he) hrest

/-- The end of a chain is found. -/
theorem lastLink_eq {fuel : Nat} {link : Link} (hlink : t.follow link = .ok p)
    (hseg : IsSeg t.entries EntryList.next p l none) (hfuel : l.length < fuel) :
    t.lastLink fuel link = .ok (linkAfter link l) := by
  induction l generalizing fuel link p with
  | nil =>
      obtain rfl : p = none := hseg
      obtain ⟨fuel, rfl⟩ := Nat.exists_eq_succ_of_ne_zero (Nat.ne_of_gt hfuel)
      rw [Htab.lastLink, hlink]
      rfl
  | cons a l ih =>
      obtain ⟨rfl, e, he, hrest⟩ := hseg
      obtain ⟨fuel, rfl⟩ := Nat.exists_eq_succ_of_ne_zero (Nat.ne_of_gt (Nat.zero_lt_of_lt hfuel))
      rw [Htab.lastLink, hlink]
      exact ih (follow_next he) hrest (Nat.lt_of_succ_lt_succ hfuel)

/-- What a write through a link of the chain of the slot `i` changes: where the chain goes on behind
the cells `l`. -/
structure Redirected (t : Htab) (i : Nat) (l : List Addr) (r : Ptr) (t' : Htab) : Prop where
  slotCount : t'.slotCount = t.slotCount
  strings : t'.strings = t.strings
  length : t'.elements.length = t.elements.length
  seg : ∃ p, t'.elements[i]? = some p ∧ IsSeg t'.entries EntryList.next p l r
  others : ∀ j, j ≠ i → t'.elements[j]? = t.elements[j]?
  kept : ∀ a, a ∉ l → t'.entries.cells a = t.entries.cells a
  content : ∀ a e, t.entries.cells a = some e →
    ∃ e', t'.entries.cells a = some e' ∧ e'.key = e.key ∧ e'.value = e.value

theorem redirect_spec {i : Nat} (hi : t.elements[i]? = some p)
    (hseg : IsSeg t.entries EntryList.next p l q) (hnodup : l.Nodup) (r : Ptr) :
    ∃ t', t.redirect (linkAfter (.slot i) l) r = .ok t' ∧ Redirected t i l r t' := by
  obtain ⟨hlt, -⟩ := List.getElem?_eq_some_iff.mp hi
  obtain rfl | ⟨m, b, rfl⟩ := List.eq_nil_or_concat' l
  · refine ⟨_, if_pos hlt, rfl, rfl, List.length_set, ⟨r, ?_, rfl⟩, ?_, fun _ _ => rfl,
      fun a e he => ⟨e, he, rfl, rfl⟩⟩
    · exact List.getElem?_set_self hlt
    · intro j hj
      exact List.getElem?_set_ne (Ne.symm hj)
  · obtain ⟨e, he⟩ := hseg.live (List.mem_append_right _ (List.mem_singleton_self b))
    have hb : b ∉ m := fun hmem =>
      (List.nodup_append.mp hnodup).2.2 b hmem b (List.mem_singleton_self b) rfl
    rw [linkAfter_snoc, Htab.redirect, Heap.modify_cell he]
    refine ⟨_, rfl, rfl, rfl, rfl, ⟨p, hi, hseg.redirect hb rfl⟩, fun _ _ => rfl, ?_, ?_⟩
    · intro a ha
      have hne : a ≠ b := by
        intro heq
        obtain rfl := heq
        exact ha (List.mem_append_right _ (List.mem_singleton_self a))
      exact Heap.cells_set_ne _ hne _
    · intro a f hf
      by_cases hab : a = b
      · subst hab
        obtain rfl : e = f := Option.some.inj (he.symm.trans hf)
        exact ⟨_, Heap.cells_set_self _ _ _, rfl, rfl⟩
      · exact ⟨f, (Heap.cells_set_ne _ hab _).trans hf, rfl, rfl⟩

end Links

/-! ## What a chain stores -/

section Chains

variable {t t' : Htab} {p : Ptr} {l : List Addr} {xs : List (CStr × Ptr)} {text : CStr}

/-- An entry with this key and value. -/
def Htab.Stores (t : Htab) (a : Addr) (x : CStr × Ptr) : Prop :=
  ∃ e, t.entries.cells a = some e ∧ t.strings.cells e.key = some x.1 ∧ e.value = x.2

/-- How a search through a chain ends. -/
inductive Found (text : CStr) (link : Link) (l : List Addr) (xs : List (CStr × Ptr)) :
    Option Link → Prop where
  | absent : (∀ x ∈ xs, x.1 ≠ text) → Found text link l xs none
  | entry {l₁ l₂ : List Addr} {a : Addr} {xs₁ xs₂ : List (CStr × Ptr)} {v : Ptr} :
      l = l₁ ++ a :: l₂ → xs = xs₁ ++ (text, v) :: xs₂ → l₁.length = xs₁.length →
      (∀ x ∈ xs₁, x.1 ≠ text) → Found text link l xs (some (linkAfter link l₁))

/-- The pointers need not be compared: equal ones lead to equal texts. -/
theorem matchesKey_eq {key : Addr} {e : EntryList} {stored : CStr}
    (hkey : t.strings.cells key = some text) (he : t.strings.cells e.key = some stored) :
    t.matchesKey false key e = .ok (decide (stored = text)) := by
  unfold Htab.matchesKey
  by_cases hptr : e.key = key
  · rw [hptr, hkey] at he
    rw [if_pos hptr, Option.some.inj he, decide_eq_true rfl]
  · rw [if_neg hptr, if_neg Bool.false_ne_true, Heap.load_cell he, Heap.load_cell hkey]
    rfl

theorem findLoop_spec {key : Addr} (hkey : t.strings.cells key = some text) {fuel : Nat}
    {link : Link} (hlink : t.follow link = .ok p) (hseg : IsSeg t.entries EntryList.next p l none)
    (hstores : List.Forall₂ t.Stores l xs) (hfuel : l.length < fuel) :
    ∃ r, t.findLoop false key fuel link = .ok r ∧ Found text link l xs r := by
  induction hstores generalizing fuel link p with
  | nil =>
      obtain rfl : p = none := hseg
      obtain ⟨fuel, rfl⟩ := Nat.exists_eq_succ_of_ne_zero (Nat.ne_of_gt hfuel)
      rw [Htab.findLoop, hlink]
      exact ⟨none, rfl, .absent fun x hx => absurd hx List.not_mem_nil⟩
  | @cons a x l xs hx _ ih =>
      obtain ⟨rfl, e, he, hrest⟩ := hseg
      obtain ⟨fuel, rfl⟩ := Nat.exists_eq_succ_of_ne_zero (Nat.ne_of_gt (Nat.zero_lt_of_lt hfuel))
      obtain ⟨e', he', hstored, hvalue⟩ := hx
      obtain rfl : e = e' := Option.some.inj (he.symm.trans he')
      rw [Htab.findLoop, hlink, ok_bind]
      dsimp only
      rw [Heap.load_cell he, ok_bind, matchesKey_eq hkey hstored, ok_bind]
      by_cases htext : x.1 = text
      · rw [if_pos (decide_eq_true htext)]
        refine ⟨_, rfl, .entry (show a :: l = [] ++ a :: l from rfl)
          (show x :: xs = [] ++ (text, x.2) :: xs from ?_) rfl
          fun y hy => absurd hy List.not_mem_nil⟩
        rw [← htext]
        rfl
      · rw [if_neg (by simpa using htext)]
        obtain ⟨r, hr, hfound⟩ := ih (follow_next he) hrest (Nat.lt_of_succ_lt_succ hfuel)
        refine ⟨r, hr, ?_⟩
        cases hfound with
        | absent hnone =>
            refine .absent fun y hy => ?_
            obtain rfl | hy := List.mem_cons.mp hy
            · exact htext
            · exact hnone y hy
        | @entry l₁ l₂ b xs₁ xs₂ v hl hxs hlength hnone =>
            have hlink' : linkAfter (.next a) l₁ = linkAfter link (a :: l₁) := rfl
            rw [hlink']
            refine .entry (show a :: l = (a :: l₁) ++ b :: l₂ from congrArg (a :: ·) hl)
              (show x :: xs = (x :: xs₁) ++ (text, v) :: xs₂ from congrArg (x :: ·) hxs)
              (congrArg Nat.succ hlength) fun y hy => ?_
            obtain rfl | hy := List.mem_cons.mp hy
            · exact htext
            · exact hnone y hy

end Chains

/-! ## The table of lists -/

/-- The memory holds a table of lists, each in a chain of its slot.  No two entries share a copy of
a key. -/
structure Represents (t : Htab) (T : EpidemicRouter.Htab Ptr) (chains : Nat → List Addr) :
    Prop where
  count : T.slotCount = t.slotCount.toNat
  slots : t.elements.length = t.slotCount.toNat
  seg : ∀ i p, t.elements[i]? = some p → IsSeg t.entries EntryList.next p (chains i) none
  stores : ∀ i < t.slotCount.toNat, List.Forall₂ t.Stores (chains i) (T.elements i)
  apart : ∀ i < t.slotCount.toNat, ∀ j < t.slotCount.toNat, ∀ a,
    a ∈ chains i → a ∈ chains j → i = j
  keys : ∀ i < t.slotCount.toNat, ∀ j < t.slotCount.toNat, ∀ a ∈ chains i, ∀ b ∈ chains j,
    ∀ e f, t.entries.cells a = some e → t.entries.cells b = some f → e.key = f.key → a = b

/-- A table that was just allocated. -/
theorem represents_alloc {slotCount : UInt16} {t : Htab} (h : htabAlloc slotCount = .ok t) :
    Represents t (EpidemicRouter.Htab.init slotCount.toNat) fun _ => [] := by
  obtain ⟨_, -, ht⟩ := bind_eq_ok.mp h
  obtain rfl := Except.ok.inj ht
  refine ⟨rfl, List.length_replicate, ?_, fun _ _ => .nil, ?_, ?_⟩
  · intro i p hp
    exact (List.eq_of_mem_replicate (List.mem_of_getElem? hp))
  · intro i _ j _ a ha
    exact absurd ha List.not_mem_nil
  · intro i _ j _ a ha
    exact absurd ha List.not_mem_nil

section Operations

variable {t t' : Htab} {T : EpidemicRouter.Htab Ptr} {chains : Nat → List Addr} {i : Nat}

theorem Represents.slot (h : Represents t T chains) (hi : i < t.slotCount.toNat) :
    ∃ p, t.elements[i]? = some p ∧ IsSeg t.entries EntryList.next p (chains i) none := by
  have hlt : i < t.elements.length := h.slots ▸ hi
  exact ⟨_, List.getElem?_eq_getElem hlt, h.seg i _ (List.getElem?_eq_getElem hlt)⟩

/-- The search for a key in its slot. -/
theorem Represents.find (h : Represents t T chains) (hi : i < t.slotCount.toNat) {key : Addr}
    {text : CStr} (hkey : t.strings.cells key = some text) :
    ∃ r, t.getElistPtrByHash i key false = .ok r ∧
      Found text (.slot i) (chains i) (T.elements i) r := by
  obtain ⟨p, hp, hseg⟩ := h.slot hi
  exact findLoop_spec hkey (follow_slot hp) hseg (h.stores i hi)
    (Nat.lt_succ_of_le hseg.length_le)

/-- Another chain in one slot. -/
theorem Represents.replace (h : Represents t T chains) {l : List Addr} {xs : List (CStr × Ptr)}
    (hxs : (xs.map Prod.fst).Nodup) (hcount : t'.slotCount = t.slotCount)
    (hlength : t'.elements.length = t.elements.length)
    (hothers : ∀ j, j ≠ i → t'.elements[j]? = t.elements[j]?)
    (hkept : ∀ j < t.slotCount.toNat, j ≠ i → ∀ a ∈ chains j, ∀ e,
      t.entries.cells a = some e →
        t'.entries.cells a = some e ∧ t'.strings.cells e.key = t.strings.cells e.key)
    (hseg : ∀ p, t'.elements[i]? = some p → IsSeg t'.entries EntryList.next p l none)
    (hstores : List.Forall₂ t'.Stores l xs)
    (hapart : ∀ j < t.slotCount.toNat, j ≠ i → ∀ a ∈ l, a ∉ chains j)
    (hown : ∀ a ∈ l, ∀ b ∈ l, ∀ e f, t'.entries.cells a = some e → t'.entries.cells b = some f →
      e.key = f.key → a = b)
    (hforeign : ∀ j < t.slotCount.toNat, j ≠ i → ∀ a ∈ l, ∀ b ∈ chains j, ∀ e f,
      t'.entries.cells a = some e → t.entries.cells b = some f → e.key ≠ f.key) :
    Represents t' (T.setChain i xs hxs) (Function.update chains i l) := by
  have hchain : ∀ j, j ≠ i → Function.update chains i l j = chains j := fun j hj =>
    Function.update_of_ne hj _ _
  have hlist : ∀ j, j ≠ i → (T.setChain i xs hxs).elements j = T.elements j := fun j hj => if_neg hj
  have hback : ∀ j < t.slotCount.toNat, j ≠ i → ∀ a ∈ chains j, ∀ e,
      t'.entries.cells a = some e → t.entries.cells a = some e := by
    intro j hj hji a ha e he
    obtain ⟨p, hp, hs⟩ := h.slot hj
    obtain ⟨f, hf⟩ := hs.live ha
    obtain ⟨hf', -⟩ := hkept j hj hji a ha f hf
    rw [hf, ← hf', he]
  refine ⟨by rw [hcount]; exact h.count, by rw [hcount, hlength]; exact h.slots, ?_, ?_, ?_, ?_⟩
  · intro j p hp
    by_cases hji : j = i
    · subst hji
      rw [Function.update_self]
      exact hseg p hp
    · rw [hothers j hji] at hp
      rw [hchain j hji]
      have hj : j < t.slotCount.toNat := by
        rw [← h.slots]
        exact (List.getElem?_eq_some_iff.mp hp).1
      exact (h.seg j p hp).frame fun a ha e he => ⟨e, (hkept j hj hji a ha e he).1, rfl⟩
  · intro j hj
    rw [hcount] at hj
    by_cases hji : j = i
    · subst hji
      rw [Function.update_self, show (T.setChain j xs hxs).elements j = xs from if_pos rfl]
      exact hstores
    · rw [hchain j hji, hlist j hji]
      have hboth := (List.forall₂_and_left (chains j) (T.elements j)).mpr
        ⟨fun a ha => ha, h.stores j hj⟩
      refine hboth.imp ?_
      intro a x hmem
      obtain ⟨ha, e, he, hstored, hvalue⟩ := hmem
      obtain ⟨he', hstring⟩ := hkept j hj hji a ha e he
      exact ⟨e, he', hstring.trans hstored, hvalue⟩
  · intro j hj k hk a hja hka
    rw [hcount] at hj hk
    by_cases hji : j = i
    · by_cases hki : k = i
      · exact hji.trans hki.symm
      · subst hji
        rw [Function.update_self] at hja
        rw [hchain k hki] at hka
        exact absurd hka (hapart k hk hki a hja)
    · rw [hchain j hji] at hja
      by_cases hki : k = i
      · subst hki
        rw [Function.update_self] at hka
        exact absurd hja (hapart j hj hji a hka)
      · rw [hchain k hki] at hka
        exact h.apart j hj k hk a hja hka
  · intro j hj k hk a hja b hkb e f he hf hkey
    rw [hcount] at hj hk
    by_cases hji : j = i
    · subst hji
      rw [Function.update_self] at hja
      by_cases hki : k = j
      · subst hki
        rw [Function.update_self] at hkb
        exact hown a hja b hkb e f he hf hkey
      · rw [hchain k hki] at hkb
        exact absurd hkey (hforeign k hk hki a hja b hkb e f he (hback k hk hki b hkb f hf))
    · rw [hchain j hji] at hja
      have he' := hback j hj hji a hja e he
      by_cases hki : k = i
      · subst hki
        rw [Function.update_self] at hkb
        exact absurd hkey.symm (hforeign j hj hji b hkb a hja f e hf he')
      · rw [hchain k hki] at hkb
        exact h.keys j hj k hk a hja b hkb e f he' (hback k hk hki b hkb f hf) hkey

/-- An entry of the chain of the slot `i`, with the parts of the chain before and behind it. -/
structure Hit (t : Htab) (T : EpidemicRouter.Htab Ptr) (chains : Nat → List Addr) (i : Nat)
    (text : CStr) (link : Link) (l₁ l₂ : List Addr) (xs₁ xs₂ : List (CStr × Ptr)) (a : Addr)
    (e : EntryList) : Prop where
  chain : chains i = l₁ ++ a :: l₂
  list : T.elements i = xs₁ ++ (text, e.value) :: xs₂
  first : ∀ x ∈ xs₁, x.1 ≠ text
  before : List.Forall₂ t.Stores l₁ xs₁
  behind : List.Forall₂ t.Stores l₂ xs₂
  cell : t.entries.cells a = some e
  key : t.strings.cells e.key = some text
  link_eq : link = linkAfter (.slot i) l₁
  seg : ∃ p, t.elements[i]? = some p ∧ IsSeg t.entries EntryList.next p l₁ (some a)
  rest : IsSeg t.entries EntryList.next e.next l₂ none

theorem Represents.hit (h : Represents t T chains) (hi : i < t.slotCount.toNat) {text : CStr}
    {link : Link} (hfound : Found text (.slot i) (chains i) (T.elements i) (some link)) :
    ∃ l₁ l₂ xs₁ xs₂ a e, Hit t T chains i text link l₁ l₂ xs₁ xs₂ a e := by
  obtain ⟨p, hp, hseg⟩ := h.slot hi
  have hstores := h.stores i hi
  generalize hr : some link = r at hfound
  cases hfound with
  | absent hnone => cases hr
  | @entry l₁ l₂ a xs₁ xs₂ v hl hxs hlength hfirst =>
      rw [hl] at hseg
      rw [hl, hxs] at hstores
      obtain ⟨q, hbefore, rfl, e, he, hrest⟩ := IsSeg.append.mp hseg
      have htake := List.forall₂_take xs₁.length hstores
      have hdrop := List.forall₂_drop xs₁.length hstores
      rw [List.take_left, ← hlength, List.take_left] at htake
      rw [List.drop_left, ← hlength, List.drop_left] at hdrop
      cases hdrop with
      | cons hstore hbehind =>
          obtain ⟨f, hf, hkey, hvalue⟩ := hstore
          obtain rfl : e = f := Option.some.inj (he.symm.trans hf)
          exact ⟨l₁, l₂, xs₁, xs₂, a, e, hl, by rw [hxs, hvalue], hfirst, htake, hbehind, he, hkey,
            Option.some.inj hr, ⟨p, hp, hbefore⟩, hrest⟩

theorem Hit.follow {text : CStr} {link : Link} {l₁ l₂ : List Addr} {xs₁ xs₂ : List (CStr × Ptr)}
    {a : Addr} {e : EntryList} (h : Hit t T chains i text link l₁ l₂ xs₁ xs₂ a e) :
    t.follow link = .ok (some a) := by
  obtain ⟨p, hp, hseg⟩ := h.seg
  rw [h.link_eq]
  exact follow_linkAfter (follow_slot hp) hseg

end Operations

/-! ## Looking up -/

section Lookups

variable {hashlittle : CStr → UInt32} {t : Htab} {T : EpidemicRouter.Htab Ptr}
  {chains : Nat → List Addr} {key : Addr} {text : CStr}

/-- The key and the value of an entry, which a caller of `htab_get_pair` reads through the
pointer. -/
def Htab.pairAt (t : Htab) (p : Ptr) : Option (CStr × Ptr) := do
  let e ← t.entries.cells (← p)
  let text ← t.strings.cells e.key
  pure (text, e.value)

theorem Represents.slot_eq (h : Represents t T chains) (text : CStr) :
    ((hashlittle text).toUInt16 % t.slotCount).toNat = T.slot hashlittle text := by
  rw [UInt16.toNat_mod, EpidemicRouter.Htab.slot, h.count]

theorem Represents.slot_lt (h : Represents t T chains) (hpos : t.slotCount ≠ 0) (text : CStr) :
    T.slot hashlittle text < t.slotCount.toNat := by
  rw [EpidemicRouter.Htab.slot, h.count]
  apply Nat.mod_lt
  exact Nat.pos_of_ne_zero fun h0 => hpos (UInt16.toNat_inj.mp h0)

theorem lookup_of_absent
    (h : ∀ x ∈ T.elements (T.slot hashlittle text), x.1 ≠ text) :
    T.lookup hashlittle text = none := by
  rw [EpidemicRouter.Htab.lookup_eq_none, List.mem_map]
  intro hfound
  obtain ⟨x, hx, hkey⟩ := hfound
  exact h x hx hkey

theorem Hit.lookup {link : Link} {l₁ l₂ : List Addr} {xs₁ xs₂ : List (CStr × Ptr)} {a : Addr}
    {e : EntryList}
    (h : Hit t T chains (T.slot hashlittle text) text link l₁ l₂ xs₁ xs₂ a e) :
    T.lookup hashlittle text = some e.value := by
  have hnone : xs₁.find? (·.1 = text) = none := by
    rw [List.find?_eq_none]
    intro x hx
    simpa using h.first x hx
  rw [EpidemicRouter.Htab.lookup, h.list, List.find?_append, hnone]
  simp

/-- The search for a key: it ends at the entry that the table of lists has for it. -/
theorem Represents.search (h : Represents t T chains) (hpos : t.slotCount ≠ 0)
    (hkey : t.strings.cells key = some text) :
    (T.lookup hashlittle text = none ∧
      t.getElistPtrByHash ((hashlittle text).toUInt16 % t.slotCount).toNat key false =
        .ok none) ∨
    ∃ link l₁ l₂ xs₁ xs₂ a e,
      t.getElistPtrByHash ((hashlittle text).toUInt16 % t.slotCount).toNat key false =
        .ok (some link) ∧
      Hit t T chains (T.slot hashlittle text) text link l₁ l₂ xs₁ xs₂ a e := by
  have hlt : T.slot hashlittle text < t.slotCount.toNat := h.slot_lt hpos text
  obtain ⟨r, hr, hfound⟩ := h.find hlt hkey
  rw [h.slot_eq]
  cases r with
  | none =>
      left
      generalize hr' : (none : Option Link) = r at hfound
      cases hfound with
      | absent hnone => exact ⟨lookup_of_absent hnone, hr⟩
      | entry => cases hr'
  | some link =>
      right
      obtain ⟨l₁, l₂, xs₁, xs₂, a, e, hhit⟩ := h.hit hlt hfound
      exact ⟨link, l₁, l₂, xs₁, xs₂, a, e, hr, hhit⟩

theorem assertC_slotCount (hpos : t.slotCount ≠ 0) :
    assertC (decide (t.slotCount ≠ 0)) = .ok () := assertC_of (decide_eq_true hpos)

/-- **`htab_get`** returns the value under the key, or `NULL`. -/
theorem htabGet_spec (h : Represents t T chains) (hpos : t.slotCount ≠ 0)
    (hkey : t.strings.cells key = some text) :
    htabGet hashlittle t key = .ok ((T.lookup hashlittle text).getD none) := by
  rw [htabGet, Heap.load_cell hkey, ok_bind, htabGetKnown, assertC_slotCount hpos, ok_bind]
  obtain ⟨hlookup, hsearch⟩ | ⟨link, l₁, l₂, xs₁, xs₂, a, e, hsearch, hhit⟩ :=
    h.search hpos hkey
  · rw [hsearch, hlookup]
    rfl
  · rw [hsearch, ok_bind, hhit.lookup]
    dsimp only
    rw [hhit.follow, ok_bind, Heap.load_cell hhit.cell]
    rfl

/-- **`htab_get_pair`** returns the entry of the key, or `NULL`. -/
theorem htabGetPair_spec (h : Represents t T chains) (hpos : t.slotCount ≠ 0)
    (hkey : t.strings.cells key = some text) :
    ∃ p, htabGetPair hashlittle t key = .ok p ∧ (p = none ↔ T.lookup hashlittle text = none) ∧
      t.pairAt p = (T.lookup hashlittle text).map (text, ·) := by
  rw [htabGetPair, Heap.load_cell hkey, ok_bind, htabGetKnownPair, assertC_slotCount hpos, ok_bind]
  obtain ⟨hlookup, hsearch⟩ | ⟨link, l₁, l₂, xs₁, xs₂, a, e, hsearch, hhit⟩ :=
    h.search hpos hkey
  · rw [hsearch, hlookup]
    exact ⟨none, rfl, iff_of_true rfl rfl, rfl⟩
  · rw [hsearch, hhit.lookup]
    refine ⟨some a, hhit.follow, iff_of_false nofun nofun, ?_⟩
    simp [Htab.pairAt, hhit.cell, hhit.key]

end Lookups

/-! ## Adding -/

section Adding

variable {hashlittle : CStr → UInt32} {t t₁ t' : Htab} {T : EpidemicRouter.Htab Ptr}
  {chains : Nat → List Addr} {key : Addr} {text : CStr} {i : Nat}

/-- An entry of a chain, which lives and has a key that lives. -/
theorem Represents.live (h : Represents t T chains) (hi : i < t.slotCount.toNat) {a : Addr}
    (ha : a ∈ chains i) :
    ∃ e text, t.entries.cells a = some e ∧ t.strings.cells e.key = some text := by
  obtain ⟨j, hj, rfl⟩ := List.mem_iff_getElem.mp ha
  have hget := (h.stores i hi).get hj ((h.stores i hi).length_eq ▸ hj)
  obtain ⟨e, he, hkey, -⟩ := hget
  exact ⟨e, _, he, hkey⟩

theorem Represents.nodup (h : Represents t T chains) (hi : i < t.slotCount.toNat) :
    (chains i).Nodup := by
  obtain ⟨p, -, hseg⟩ := h.slot hi
  exact hseg.nodup

/-- Entries of the chain of a slot, which keep their keys. -/
structure KeptKeys (t t' : Htab) (chain l : List Addr) : Prop where
  mem : ∀ a ∈ l, a ∈ chain
  key : ∀ a ∈ l, ∀ e, t'.entries.cells a = some e →
    ∃ e₀, t.entries.cells a = some e₀ ∧ e₀.key = e.key

theorem Represents.keptKeys_inj (h : Represents t T chains) (hi : i < t.slotCount.toNat)
    {l : List Addr} (hkept : KeptKeys t t' (chains i) l) {a b : Addr} (ha : a ∈ l) (hb : b ∈ l)
    {e f : EntryList} (he : t'.entries.cells a = some e) (hf : t'.entries.cells b = some f)
    (hsame : e.key = f.key) : a = b := by
  obtain ⟨e₀, he₀, hkeyE⟩ := hkept.key a ha e he
  obtain ⟨f₀, hf₀, hkeyF⟩ := hkept.key b hb f hf
  exact h.keys i hi i hi a (hkept.mem a ha) b (hkept.mem b hb) e₀ f₀ he₀ hf₀
    (by rw [hkeyE, hkeyF, hsame])

theorem Represents.keptKeys_ne (h : Represents t T chains) (hi : i < t.slotCount.toNat)
    {l : List Addr} (hkept : KeptKeys t t' (chains i) l) {j : Nat} (hj : j < t.slotCount.toNat)
    (hji : j ≠ i) {a b : Addr} (ha : a ∈ l) (hb : b ∈ chains j) {e f : EntryList}
    (he : t'.entries.cells a = some e) (hf : t.entries.cells b = some f) : e.key ≠ f.key := by
  intro hsame
  obtain ⟨e₀, he₀, hkeyE⟩ := hkept.key a ha e he
  obtain rfl := h.keys i hi j hj a (hkept.mem a ha) b hb e₀ f he₀ hf (by rw [hkeyE, hsame])
  exact hji (h.apart j hj i hi a hb (hkept.mem a ha))

/-- What `htab_add_known` writes before it links the new entry. -/
def Htab.withEntry (memory : Allocator) (t : Htab) (text : CStr) (value : Ptr) : Htab :=
  { t with
    entries := t.entries.set (memory.entry t.entries) ⟨memory.string t.strings, value, none⟩
    strings := t.strings.set (memory.string t.strings) text }

theorem withEntry_cells (memory : Allocator) (value : Ptr) {a : Addr} {e : EntryList}
    (ha : t.entries.cells a = some e) :
    (t.withEntry memory text value).entries.cells a = some e := by
  refine (Heap.cells_set_ne _ ?_ _).trans ha
  intro heq
  obtain rfl := heq
  rw [memory.entry_fresh] at ha
  cases ha

theorem withEntry_strings (memory : Allocator) (value : Ptr) {k : Addr} {stored : CStr}
    (hk : t.strings.cells k = some stored) :
    (t.withEntry memory text value).strings.cells k = some stored := by
  refine (Heap.cells_set_ne _ ?_ _).trans hk
  intro heq
  obtain rfl := heq
  rw [memory.string_fresh] at hk
  cases hk

/-- The table behind the last step of `htab_add_known`. -/
theorem Represents.add (h : Represents t T chains) (hpos : t.slotCount ≠ 0) (memory : Allocator)
    (value : Ptr) (habsent : T.lookup hashlittle text = none)
    (hlinked : Redirected (t.withEntry memory text value) (T.slot hashlittle text)
      (chains (T.slot hashlittle text)) (some (memory.entry t.entries)) t') :
    Represents t' (T.add hashlittle text value habsent)
        (Function.update chains (T.slot hashlittle text)
          (chains (T.slot hashlittle text) ++ [memory.entry t.entries])) ∧
      t'.pairAt (some (memory.entry t.entries)) = some (text, value) ∧
      ∀ k stored, t.strings.cells k = some stored → t'.strings.cells k = some stored := by
  have hi : T.slot hashlittle text < t.slotCount.toNat := h.slot_lt hpos text
  have hnew : ∀ j < t.slotCount.toNat, memory.entry t.entries ∉ chains j := by
    intro j hj hmem
    obtain ⟨e, _, he, -⟩ := h.live hj hmem
    rw [memory.entry_fresh] at he
    cases he
  have hstrings : ∀ k stored, t.strings.cells k = some stored →
      t'.strings.cells k = some stored := by
    intro k stored hk
    rw [hlinked.strings]
    exact withEntry_strings memory value hk
  have hcell : t'.entries.cells (memory.entry t.entries) =
      some ⟨memory.string t.strings, value, none⟩ := by
    rw [hlinked.kept _ (hnew _ hi)]
    exact Heap.cells_set_self _ _ _
  have hkey : t'.strings.cells (memory.string t.strings) = some text := by
    rw [hlinked.strings]
    exact Heap.cells_set_self _ _ _
  -- the key and the value of an old entry stay
  have hold : ∀ a e, t.entries.cells a = some e →
      ∃ e', t'.entries.cells a = some e' ∧ e'.key = e.key ∧ e'.value = e.value :=
    fun a e he => hlinked.content a e (withEntry_cells memory value he)
  have hfreshKey : ∀ j < t.slotCount.toNat, ∀ a ∈ chains j, ∀ e, t'.entries.cells a = some e →
      e.key ≠ memory.string t.strings := by
    intro j hj a ha e he hsame
    obtain ⟨f, stored, hf, hstored⟩ := h.live hj ha
    obtain ⟨e', he', hkey', -⟩ := hold a f hf
    obtain rfl : e = e' := Option.some.inj (he.symm.trans he')
    rw [← hkey', hsame, memory.string_fresh] at hstored
    cases hstored
  have hkeptKeys : KeptKeys t t' (chains (T.slot hashlittle text))
      (chains (T.slot hashlittle text)) := by
    refine ⟨fun a ha => ha, fun a ha e he => ?_⟩
    obtain ⟨e₀, _, he₀, -⟩ := h.live hi ha
    obtain ⟨e', he', hkeyE, -⟩ := hold a e₀ he₀
    obtain rfl : e = e' := Option.some.inj (he.symm.trans he')
    exact ⟨e₀, he₀, hkeyE.symm⟩
  refine ⟨?_, ?_, hstrings⟩
  · refine h.replace _ hlinked.slotCount hlinked.length hlinked.others ?_ ?_ ?_ ?_ ?_ ?_
    · intro j hj hji a ha e he
      have hnot : a ∉ chains (T.slot hashlittle text) := fun hmem =>
        hji (h.apart j hj _ hi a ha hmem)
      obtain ⟨f, stored, hf, hstored⟩ := h.live hj ha
      obtain rfl : e = f := Option.some.inj (he.symm.trans hf)
      rw [hlinked.kept a hnot, hstored]
      exact ⟨withEntry_cells memory value he, hstrings _ _ hstored⟩
    · intro p hp
      obtain ⟨q, hq, hseg⟩ := hlinked.seg
      obtain rfl : p = q := Option.some.inj (hp.symm.trans hq)
      exact IsSeg.append.mpr ⟨_, hseg, rfl, _, hcell, rfl⟩
    · refine List.rel_append ?_ (.cons ⟨_, hcell, hkey, rfl⟩ .nil)
      refine (h.stores _ hi).imp ?_
      intro a x hstore
      obtain ⟨e, he, hstored, hvalue⟩ := hstore
      obtain ⟨e', he', hkey', hvalue'⟩ := hold a e he
      exact ⟨e', he', by rw [hkey']; exact hstrings _ _ hstored, hvalue'.trans hvalue⟩
    · intro j hj hji a ha hmem
      obtain ha | ha := List.mem_append.mp ha
      · exact hji (h.apart j hj _ hi a hmem ha)
      · exact hnew j hj (List.mem_singleton.mp ha ▸ hmem)
    · intro a ha b hb e f he hf hsame
      obtain ha | ha := List.mem_append.mp ha
      · obtain hb | hb := List.mem_append.mp hb
        · exact h.keptKeys_inj hi hkeptKeys ha hb he hf hsame
        · obtain rfl := List.mem_singleton.mp hb
          obtain rfl : f = _ := Option.some.inj (hf.symm.trans hcell)
          exact absurd hsame (hfreshKey _ hi a ha e he)
      · obtain rfl := List.mem_singleton.mp ha
        obtain rfl : e = _ := Option.some.inj (he.symm.trans hcell)
        obtain hb | hb := List.mem_append.mp hb
        · exact absurd hsame.symm (hfreshKey _ hi b hb f hf)
        · exact (List.mem_singleton.mp hb).symm
    · intro j hj hji a ha b hb e f he hf
      obtain ha | ha := List.mem_append.mp ha
      · exact h.keptKeys_ne hi hkeptKeys hj hji ha hb he hf
      · obtain rfl := List.mem_singleton.mp ha
        obtain rfl : e = _ := Option.some.inj (he.symm.trans hcell)
        obtain ⟨f', hf', hkeyF, -⟩ := hold b f hf
        intro hsame
        exact hfreshKey j hj b hb f' hf' (by rw [hkeyF, ← hsame])
  · simp [Htab.pairAt, hcell, hkey]

/-- **`htab_add`** adds the value if there is none under the key, and fails otherwise. -/
theorem htabAdd_spec (h : Represents t T chains) (hpos : t.slotCount ≠ 0) (memory : Allocator)
    (value : Ptr) (hkey : t.strings.cells key = some text) :
    (T.lookup hashlittle text ≠ none ∧
      htabAdd hashlittle memory t key value = .ok (none, t)) ∨
    ∃ (habsent : T.lookup hashlittle text = none) (p : Ptr) (t' : Htab)
      (chains' : Nat → List Addr),
      htabAdd hashlittle memory t key value = .ok (p, t') ∧ t'.slotCount = t.slotCount ∧
        Represents t' (T.add hashlittle text value habsent) chains' ∧ p ≠ none ∧
        t'.pairAt p = some (text, value) := by
  have hi : T.slot hashlittle text < t.slotCount.toNat := h.slot_lt hpos text
  rw [htabAdd, Heap.load_cell hkey, ok_bind, htabAddKnown, assertC_slotCount hpos, ok_bind]
  dsimp only
  obtain ⟨hlookup, hsearch⟩ | ⟨link, l₁, l₂, xs₁, xs₂, a, e, hsearch, hhit⟩ :=
    h.search hpos hkey
  · right
    obtain ⟨p, hp, hseg⟩ := h.slot hi
    have hseg' : IsSeg (t.withEntry memory text value).entries EntryList.next p
        (chains (T.slot hashlittle text)) none :=
      hseg.frame fun a _ e he => ⟨e, withEntry_cells memory value he, rfl⟩
    have hlast := @lastLink_eq (t.withEntry memory text value) p _ _ _ (follow_slot hp) hseg'
      (Nat.lt_succ_of_le hseg'.length_le)
    obtain ⟨t', ht', hlinked⟩ := redirect_spec (t := t.withEntry memory text value) hp hseg'
      hseg.nodup (some (memory.entry t.entries))
    obtain ⟨hrep, hpair, -⟩ := h.add hpos memory value hlookup hlinked
    refine ⟨hlookup, some (memory.entry t.entries), t', _, ?_, hlinked.slotCount, hrep,
      Option.some_ne_none _, hpair⟩
    rw [hsearch, ok_bind]
    dsimp only
    rw [Heap.load_cell hkey, ok_bind, strncpy, if_pos (Nat.lt_succ_self _), ok_bind]
    rw [h.slot_eq]
    show ((t.withEntry memory text value).lastLink
      ((t.withEntry memory text value).entries.bound + 1) _ >>= fun link =>
        (t.withEntry memory text value).redirect link (some (memory.entry t.entries)) >>= fun t' =>
          pure (some (memory.entry t.entries), t')) = _
    rw [hlast, ok_bind, ht', ok_bind]
    rfl
  · left
    rw [hsearch, hhit.lookup]
    exact ⟨nofun, rfl⟩

end Adding

/-! ## Removing -/

section Removing

variable {hashlittle : CStr → UInt32} {t t' : Htab} {T : EpidemicRouter.Htab Ptr}
  {chains : Nat → List Addr} {key : Addr} {text : CStr}

/-- The memory without an entry and its key. -/
def Htab.without (t : Htab) (a : Addr) (e : EntryList) : Htab :=
  { t with entries := t.entries.erase a, strings := t.strings.erase e.key }

theorem Hit.list_erase {i : Nat} {link : Link} {l₁ l₂ : List Addr} {xs₁ xs₂ : List (CStr × Ptr)}
    {a : Addr} {e : EntryList} (h : Hit t T chains i text link l₁ l₂ xs₁ xs₂ a e) :
    (T.elements i).eraseP (·.1 = text) = xs₁ ++ xs₂ := by
  rw [h.list, List.eraseP_append_right]
  · rw [List.eraseP_cons_of_pos (by simp)]
  · intro x hx
    simpa using h.first x hx

/-- The table behind the last step of `htab_remove_known`. -/
theorem Represents.remove (h : Represents t T chains)
    (hi : T.slot hashlittle text < t.slotCount.toNat) {link : Link} {l₁ l₂ : List Addr}
    {xs₁ xs₂ : List (CStr × Ptr)} {a : Addr} {e : EntryList}
    (hhit : Hit t T chains (T.slot hashlittle text) text link l₁ l₂ xs₁ xs₂ a e)
    (hunlinked : Redirected (t.without a e) (T.slot hashlittle text) l₁ e.next t') :
    Represents t' (T.remove hashlittle text)
      (Function.update chains (T.slot hashlittle text) (l₁ ++ l₂)) := by
  have hnodup := h.nodup hi
  have hin : ∀ b ∈ l₁ ++ l₂, b ∈ chains (T.slot hashlittle text) ∧ b ≠ a := by
    rw [hhit.chain] at hnodup
    intro b hb
    have hparts := List.nodup_middle.mp hnodup
    refine ⟨?_, fun hba => (List.nodup_cons.mp hparts).1 (hba ▸ hb)⟩
    rw [hhit.chain]
    exact (List.mem_append.mp hb).elim (fun h => List.mem_append_left _ h)
      fun h => List.mem_append_right _ (List.mem_cons_of_mem _ h)
  have ha : a ∈ chains (T.slot hashlittle text) := by
    rw [hhit.chain]
    exact List.mem_append_right _ List.mem_cons_self
  -- the entries other than `a` keep their keys, and these stay alive
  have hkeep : ∀ b f stored, b ≠ a → t.entries.cells b = some f →
      t.strings.cells f.key = some stored → f.key ≠ e.key →
      ∃ f', t'.entries.cells b = some f' ∧ f'.key = f.key ∧ f'.value = f.value ∧
        t'.strings.cells f.key = some stored := by
    intro b f stored hba hf hstored hne
    have hf' : (t.without a e).entries.cells b = some f :=
      (Heap.cells_erase_ne _ hba).trans hf
    obtain ⟨f', hcell, hkey', hvalue⟩ := hunlinked.content b f hf'
    refine ⟨f', hcell, hkey', hvalue, ?_⟩
    rw [hunlinked.strings]
    exact (Heap.cells_erase_ne _ hne).trans hstored
  have hother : ∀ j < t.slotCount.toNat, ∀ b ∈ chains j, b ≠ a → ∀ f,
      t.entries.cells b = some f → f.key ≠ e.key := by
    intro j hj b hb hba f hf hsame
    exact hba (h.keys j hj _ hi b hb a ha f e hf hhit.cell hsame)
  have hstored : ∀ b ∈ l₁ ++ l₂, ∀ x, t.Stores b x → t'.Stores b x := by
    intro b hb x hstore
    obtain ⟨f, hf, hkey', hvalue⟩ := hstore
    obtain ⟨hmem, hba⟩ := hin b hb
    obtain ⟨f', hcell, hsame, hvalue', hstring⟩ :=
      hkeep b f x.1 hba hf hkey' (hother _ hi b hmem hba f hf)
    exact ⟨f', hcell, by rw [hsame]; exact hstring, hvalue'.trans hvalue⟩
  have hcells : KeptKeys t t' (chains (T.slot hashlittle text)) (l₁ ++ l₂) := by
    refine ⟨fun b hb => (hin b hb).1, fun b hb f hf => ?_⟩
    obtain ⟨hmem, hba⟩ := hin b hb
    obtain ⟨f₀, stored, hf₀, hstring⟩ := h.live hi hmem
    obtain ⟨f', hcell, hsame, -⟩ :=
      hkeep b f₀ stored hba hf₀ hstring (hother _ hi b hmem hba f₀ hf₀)
    obtain rfl : f = f' := Option.some.inj (hf.symm.trans hcell)
    exact ⟨f₀, hf₀, hsame.symm⟩
  have hnodupList : ((xs₁ ++ xs₂).map Prod.fst).Nodup := by
    rw [← hhit.list_erase]
    exact (T.distinct _).sublist (List.eraseP_sublist.map _)
  have hremove : T.remove hashlittle text =
      T.setChain (T.slot hashlittle text) (xs₁ ++ xs₂) hnodupList := by
    unfold EpidemicRouter.Htab.remove
    congr 1
    exact hhit.list_erase
  rw [hremove]
  refine h.replace _ hunlinked.slotCount hunlinked.length hunlinked.others ?_ ?_ ?_ ?_ ?_ ?_
  · intro j hj hji b hb f hf
    have hba : b ≠ a := by
      intro heq
      obtain rfl := heq
      exact hji (h.apart j hj _ hi b hb ha)
    have hnot : b ∉ l₁ := fun hmem =>
      hji (h.apart j hj _ hi b hb (hin b (List.mem_append_left _ hmem)).1)
    rw [hunlinked.kept b hnot, hunlinked.strings]
    exact ⟨(Heap.cells_erase_ne _ hba).trans hf,
      Heap.cells_erase_ne _ (hother j hj b hb hba f hf)⟩
  · intro p hp
    obtain ⟨q, hq, hseg⟩ := hunlinked.seg
    obtain rfl : p = q := Option.some.inj (hp.symm.trans hq)
    refine IsSeg.append.mpr ⟨_, hseg, hhit.rest.frame_eq fun b hb => ?_⟩
    obtain ⟨hmem, hba⟩ := hin b (List.mem_append_right _ hb)
    have hnot : b ∉ l₁ := by
      rw [hhit.chain] at hnodup
      intro hb₁
      exact (List.nodup_append.mp hnodup).2.2 b hb₁ b (List.mem_cons_of_mem _ hb) rfl
    rw [hunlinked.kept b hnot]
    exact Heap.cells_erase_ne _ hba
  · have hboth := List.rel_append hhit.before hhit.behind
    have hmem := (List.forall₂_and_left (l₁ ++ l₂) (xs₁ ++ xs₂)).mpr ⟨fun b hb => hb, hboth⟩
    exact hmem.imp fun b x hbx => hstored b hbx.1 x hbx.2
  · intro j hj hji b hb hmem
    exact hji (h.apart j hj _ hi b hmem (hin b hb).1)
  · intro b hb c hc f g hf hg hsame
    exact h.keptKeys_inj hi hcells hb hc hf hg hsame
  · intro j hj hji b hb c hc f g hf hg
    exact h.keptKeys_ne hi hcells hj hji hb hc hf hg

/-- **`htab_remove`** returns the value under the key and takes its entry out, if there is one. -/
theorem htabRemove_spec (h : Represents t T chains) (hpos : t.slotCount ≠ 0)
    (hkey : t.strings.cells key = some text) :
    (T.lookup hashlittle text = none ∧ htabRemove hashlittle t key = .ok (none, t)) ∨
    ∃ (t' : Htab) (chains' : Nat → List Addr) (value : Ptr),
      T.lookup hashlittle text = some value ∧ htabRemove hashlittle t key = .ok (value, t') ∧
        t'.slotCount = t.slotCount ∧ Represents t' (T.remove hashlittle text) chains' := by
  have hi : T.slot hashlittle text < t.slotCount.toNat := h.slot_lt hpos text
  rw [htabRemove, Heap.load_cell hkey, ok_bind, htabRemoveKnown, assertC_slotCount hpos, ok_bind]
  obtain ⟨hlookup, hsearch⟩ | ⟨link, l₁, l₂, xs₁, xs₂, a, e, hsearch, hhit⟩ :=
    h.search hpos hkey
  · left
    rw [hsearch]
    exact ⟨hlookup, rfl⟩
  · right
    obtain ⟨p, hp, hseg⟩ := hhit.seg
    have hnodup := h.nodup hi
    rw [hhit.chain] at hnodup
    have hseg' : IsSeg (t.without a e).entries EntryList.next p l₁ (some a) := by
      refine hseg.frame_eq fun b hb => Heap.cells_erase_ne _ ?_
      intro heq
      obtain rfl := heq
      exact (List.nodup_append.mp hnodup).2.2 b hb b List.mem_cons_self rfl
    obtain ⟨t', ht', hunlinked⟩ := @redirect_spec (t.without a e) p _ l₁ _ hp hseg'
      (List.nodup_append.mp hnodup).1 e.next
    refine ⟨t', _, e.value, hhit.lookup, ?_, hunlinked.slotCount, h.remove hi hhit hunlinked⟩
    rw [hsearch, ok_bind]
    dsimp only
    rw [hhit.follow, ok_bind, Heap.load_cell hhit.cell, ok_bind, Heap.release_cell hhit.key,
      ok_bind, Heap.release_cell hhit.cell, ok_bind, hhit.link_eq]
    show ((t.without a e).redirect (linkAfter (.slot _) l₁) e.next >>= fun t => pure (e.value, t)) =
      _
    rw [ht', ok_bind]
    rfl

end Removing

/-! ## Emptying -/

section Emptying

variable {hashlittle : CStr → UInt32} {t t' : Htab} {T : EpidemicRouter.Htab Ptr}
  {chains : Nat → List Addr} {i : Nat}

/-- What the release of the entries `l` leaves. -/
structure Released (t : Htab) (l : List Addr) (t' : Htab) : Prop where
  slotCount : t'.slotCount = t.slotCount
  elements : t'.elements = t.elements
  kept : ∀ b, b ∉ l → t'.entries.cells b = t.entries.cells b
  strings : ∀ k, (∀ a ∈ l, ∀ e, t.entries.cells a = some e → e.key ≠ k) →
    t'.strings.cells k = t.strings.cells k

theorem truncChain_spec {l : List Addr} {xs : List (CStr × Ptr)} {p : Ptr} {fuel : Nat}
    (hseg : IsSeg t.entries EntryList.next p l none) (hnodup : l.Nodup)
    (hstores : List.Forall₂ t.Stores l xs)
    (hkeys : ∀ a ∈ l, ∀ b ∈ l, ∀ e f, t.entries.cells a = some e → t.entries.cells b = some f →
      e.key = f.key → a = b) (hfuel : l.length < fuel) :
    ∃ t', truncChain fuel p t = .ok t' ∧ Released t l t' := by
  induction l generalizing t xs p fuel with
  | nil =>
      obtain rfl : p = none := hseg
      obtain ⟨fuel, rfl⟩ := Nat.exists_eq_succ_of_ne_zero (Nat.ne_of_gt hfuel)
      exact ⟨t, rfl, rfl, rfl, fun _ _ => rfl, fun _ _ => rfl⟩
  | cons a l ih =>
      obtain ⟨rfl, e, he, hrest⟩ := hseg
      obtain ⟨fuel, rfl⟩ := Nat.exists_eq_succ_of_ne_zero (Nat.ne_of_gt (Nat.zero_lt_of_lt hfuel))
      obtain ⟨ha, hnodup'⟩ := List.nodup_cons.mp hnodup
      cases hstores with
      | @cons _ x _ xs hstore hstores =>
          obtain ⟨e', he', hkey, -⟩ := hstore
          obtain rfl : e = e' := Option.some.inj (he.symm.trans he')
          have hne : ∀ b ∈ l, b ≠ a := fun b hb hba => ha (hba ▸ hb)
          have hback : ∀ b, b ≠ a → (t.without a e).entries.cells b = t.entries.cells b :=
            fun b hb => Heap.cells_erase_ne _ hb
          have hapart : ∀ b ∈ l, ∀ f, t.entries.cells b = some f → f.key ≠ e.key := by
            intro b hb f hf hsame
            exact hne b hb (hkeys b (List.mem_cons_of_mem _ hb) a List.mem_cons_self f e hf he
              hsame)
          have hstores' : List.Forall₂ (t.without a e).Stores l xs := by
            have hmem := (List.forall₂_and_left l xs).mpr ⟨fun b hb => hb, hstores⟩
            refine hmem.imp ?_
            intro b x hstore
            obtain ⟨hb, f, hf, hstored, hvalue⟩ := hstore
            exact ⟨f, (hback b (hne b hb)).trans hf,
              (Heap.cells_erase_ne _ (hapart b hb f hf)).trans hstored, hvalue⟩
          obtain ⟨t', ht', hreleased⟩ := @ih (t.without a e) xs e.next fuel
            (hrest.frame_eq fun b hb => hback b (hne b hb)) hnodup' hstores'
            (fun b hb c hc f g hf hg => hkeys b (List.mem_cons_of_mem _ hb) c
              (List.mem_cons_of_mem _ hc) f g ((hback b (hne b hb)).symm.trans hf)
              ((hback c (hne c hc)).symm.trans hg))
            (Nat.lt_of_succ_lt_succ hfuel)
          refine ⟨t', ?_, hreleased.slotCount, hreleased.elements, ?_, ?_⟩
          · rw [truncChain, Heap.load_cell he, ok_bind, Heap.release_cell hkey, ok_bind,
              Heap.release_cell he, ok_bind]
            exact ht'
          · intro b hb
            rw [List.mem_cons, not_or] at hb
            exact (hreleased.kept b hb.2).trans (hback b hb.1)
          · intro k hk
            have hek : k ≠ e.key := (hk a List.mem_cons_self e he).symm
            refine (hreleased.strings k fun b hb f hf => ?_).trans (Heap.cells_erase_ne _ hek)
            exact hk b (List.mem_cons_of_mem _ hb) f ((hback b (hne b hb)).symm.trans hf)

/-- One slot is emptied. -/
theorem Represents.emptySlot (h : Represents t T chains) (hi : i < t.slotCount.toNat) {t₁ : Htab}
    (hreleased : Released t (chains i) t₁) :
    Represents { t₁ with elements := t₁.elements.set i none } (T.setChain i [] List.nodup_nil)
      (Function.update chains i []) := by
  refine h.replace _ hreleased.slotCount ?_ ?_ ?_ ?_ .nil ?_ ?_ ?_
  · rw [List.length_set, hreleased.elements]
  · intro j hj
    rw [List.getElem?_set_ne (Ne.symm hj), hreleased.elements]
  · intro j hj hji a ha e he
    refine ⟨(hreleased.kept a fun hmem => hji (h.apart j hj i hi a ha hmem)).trans he,
      hreleased.strings _ fun b hb f hf hsame => ?_⟩
    obtain rfl := h.keys i hi j hj b hb a ha f e hf he hsame
    exact hji (h.apart j hj i hi b ha hb)
  · intro p hp
    have hlt : i < t₁.elements.length := by
      rw [hreleased.elements, h.slots]
      exact hi
    rw [List.getElem?_set_self hlt] at hp
    exact (Option.some.inj hp).symm
  · intro j _ _ a ha
    exact absurd ha List.not_mem_nil
  · intro a ha
    exact absurd ha List.not_mem_nil
  · intro j _ _ a ha
    exact absurd ha List.not_mem_nil

theorem truncSlots_spec (h : Represents t T chains) {n : Nat} (hn : i + n = t.slotCount.toNat) :
    ∃ t' T' chains', truncSlots n i t = .ok t' ∧ t'.slotCount = t.slotCount ∧
      Represents t' T' chains' ∧ (∀ j, i ≤ j → j < t.slotCount.toNat → T'.elements j = []) ∧
      ∀ j, j < i → T'.elements j = T.elements j := by
  induction n generalizing t T chains i with
  | zero =>
      refine ⟨t, T, chains, rfl, rfl, h, fun j hij hj => ?_, fun _ _ => rfl⟩
      omega
  | succ n ih =>
      have hi : i < t.slotCount.toNat := by
        omega
      obtain ⟨p, hp, hseg⟩ := h.slot hi
      obtain ⟨t₁, ht₁, hreleased⟩ := truncChain_spec hseg hseg.nodup (h.stores i hi)
        (fun a ha b hb e f => h.keys i hi i hi a ha b hb e f) (Nat.lt_succ_of_le hseg.length_le)
      have hlt : i < t₁.elements.length := by
        rw [hreleased.elements, h.slots]
        exact hi
      have hcount : { t₁ with elements := t₁.elements.set i none }.slotCount = t.slotCount :=
        hreleased.slotCount
      obtain ⟨t', T', chains', ht', hcount', hrep, hempty, hbefore⟩ :=
        ih (h.emptySlot hi hreleased) (i := i + 1) (by rw [hcount]; omega)
      refine ⟨t', T', chains', ?_, hcount'.trans hcount, hrep, ?_, ?_⟩
      · rw [truncSlots, follow_slot hp, ok_bind, ht₁, ok_bind, Htab.redirect, if_pos hlt, ok_bind]
        exact ht'
      · intro j hij hj
        obtain rfl | hlt' := Nat.eq_or_lt_of_le hij
        · exact (hbefore i (Nat.lt_succ_self i)).trans (if_pos rfl)
        · exact hempty j hlt' (by rw [hcount]; exact hj)
      · intro j hj
        exact (hbefore j (by omega)).trans (if_neg (Nat.ne_of_lt hj))

/-- **`htab_trunc`** takes all entries out. -/
theorem htabTrunc_spec (h : Represents t T chains) (hpos : t.slotCount ≠ 0) :
    ∃ t' T' chains', htabTrunc t = .ok t' ∧ t'.slotCount = t.slotCount ∧
      Represents t' T' chains' ∧ ∀ text, T'.lookup hashlittle text = none := by
  obtain ⟨t', T', chains', ht', hcount, hrep, hempty, -⟩ :=
    truncSlots_spec h (Nat.zero_add t.slotCount.toNat)
  refine ⟨t', T', chains', ht', hcount, hrep, fun text => ?_⟩
  have hslot : T'.slot hashlittle text < t'.slotCount.toNat :=
    hrep.slot_lt (by rw [hcount]; exact hpos) text
  apply lookup_of_absent
  rw [hempty _ (Nat.zero_le _) (by rw [← hcount]; exact hslot)]
  exact fun x hx => absurd hx List.not_mem_nil

end Emptying

end SimpleHtab
