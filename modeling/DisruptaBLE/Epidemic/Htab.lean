import DisruptaBLE.Lib.Heap
import Mathlib.Data.List.Nodup

/-!
# C strings and the hash table

`strstr` and the chained hash table of `components/ud3tn/simplehtab.c`.  The
chain of a slot is a list here, and the hash of a key is a parameter: nothing
below depends on which function it is.

`lookup_add` and `lookup_remove` say that the table is a finite map, whatever
keys share a slot.
-/

namespace EpidemicRouter

open PtrHeap

/-- A C string, without its terminator. -/
abbrev CStr := List Char

/-- `strstr(s, sub) != NULL`. -/
def strstr : CStr → CStr → Bool
  | [], sub => sub.isEmpty
  | c :: s, sub => sub.isPrefixOf (c :: s) || strstr s sub

/-- `struct htab`: the chains of the slots.  No chain has a key twice. -/
structure Htab (ν : Type) where
  slotCount : Nat
  elements : Nat → List (CStr × ν)
  distinct : ∀ i, ((elements i).map Prod.fst).Nodup

variable {ν : Type} (hash : CStr → UInt32)

namespace Htab

/-- `htab_init`. -/
def init (slotCount : Nat) : Htab ν := ⟨slotCount, fun _ => [], fun _ => List.nodup_nil⟩

/-- `hash % tab->slot_count`, the hash having been cut to 16 bits. -/
def slot (t : Htab ν) (key : CStr) : Nat := (hash key).toUInt16.toNat % t.slotCount

/-- The value in the chain of the key, as `get_elist_ptr_by_hash` finds it. -/
def lookup (t : Htab ν) (key : CStr) : Option ν :=
  ((t.elements (t.slot hash key)).find? (·.1 = key)).map Prod.snd

theorem lookup_eq_none {t : Htab ν} {key : CStr} :
    t.lookup hash key = none ↔ key ∉ (t.elements (t.slot hash key)).map Prod.fst := by
  simp only [lookup, Option.map_eq_none_iff, List.find?_eq_none, decide_eq_true_eq,
    List.mem_map, not_exists, not_and]

/-- The table with another chain in one slot. -/
def setChain (t : Htab ν) (i : Nat) (chain : List (CStr × ν))
    (h : (chain.map Prod.fst).Nodup) : Htab ν where
  slotCount := t.slotCount
  elements j := if j = i then chain else t.elements j
  distinct j := by
    by_cases hj : j = i
    · simpa [hj] using h
    · simpa [hj] using t.distinct j

/-- Append an entry to the chain of a key that has none. -/
def add (t : Htab ν) (key : CStr) (val : ν) (h : t.lookup hash key = none) : Htab ν :=
  t.setChain (t.slot hash key) (t.elements (t.slot hash key) ++ [(key, val)]) (by
    rw [List.map_append, List.map_cons, List.map_nil]
    exact List.Nodup.append (t.distinct _) (List.nodup_singleton _)
      (by simpa using (lookup_eq_none hash).mp h))

/-- Take the entry of a key out of its chain. -/
def remove (t : Htab ν) (key : CStr) : Htab ν :=
  t.setChain (t.slot hash key) ((t.elements (t.slot hash key)).eraseP (·.1 = key))
    ((t.distinct _).sublist (List.eraseP_sublist.map _))

@[simp] theorem slotCount_add (t : Htab ν) (key : CStr) (val : ν)
    (h : t.lookup hash key = none) : (t.add hash key val h).slotCount = t.slotCount := rfl

@[simp] theorem slotCount_remove (t : Htab ν) (key : CStr) :
    (t.remove hash key).slotCount = t.slotCount := rfl

@[simp] theorem lookup_init (n : Nat) (key : CStr) :
    (init n : Htab ν).lookup hash key = none := rfl

theorem lookup_add (t : Htab ν) (key : CStr) (val : ν) (h : t.lookup hash key = none)
    (k : CStr) :
    (t.add hash key val h).lookup hash k = if k = key then some val else t.lookup hash k := by
  have hslot : (t.add hash key val h).slot hash k = t.slot hash k := rfl
  rw [lookup, hslot, lookup]
  by_cases hk : k = key
  · subst hk
    have hnone : (t.elements (t.slot hash k)).find? (·.1 = k) = none := by
      simpa [lookup] using h
    simp [add, setChain, List.find?_append, hnone]
  · have hk' : ¬ key = k := fun h => hk h.symm
    by_cases hs : t.slot hash k = t.slot hash key
    · simp [add, setChain, hs, hk, hk', List.find?_append]
    · simp [add, setChain, hs, hk]

theorem find?_eraseP_self {l : List (CStr × ν)} {key : CStr}
    (h : (l.map Prod.fst).Nodup) : (l.eraseP (·.1 = key)).find? (·.1 = key) = none := by
  induction l with
  | nil => rfl
  | cons e l ih =>
      rw [List.map_cons, List.nodup_cons] at h
      by_cases he : e.1 = key
      · have hnot : ∀ x ∈ l, ¬ x.1 = key := fun x hx hkey =>
          h.1 (List.mem_map.mpr ⟨x, hx, by rw [hkey, he]⟩)
        simpa [he, List.find?_eq_none] using hnot
      · simpa [he] using ih h.2

theorem find?_eraseP_other {l : List (CStr × ν)} {key k : CStr} (hk : k ≠ key) :
    (l.eraseP (·.1 = key)).find? (·.1 = k) = l.find? (·.1 = k) := by
  induction l with
  | nil => rfl
  | cons e l ih =>
      by_cases he : e.1 = key
      · have hek : ¬ e.1 = k := fun h => hk (h.symm.trans he)
        rw [List.eraseP_cons_of_pos (by simpa using he),
          List.find?_cons_of_neg (by simpa using hek)]
      · by_cases hek : e.1 = k
        · simp [hek, hk]
        · simpa [he, hek] using ih

theorem lookup_remove (t : Htab ν) (key k : CStr) :
    (t.remove hash key).lookup hash k = if k = key then none else t.lookup hash k := by
  have hslot : (t.remove hash key).slot hash k = t.slot hash k := rfl
  rw [lookup, hslot, lookup]
  by_cases hk : k = key
  · subst hk
    simp only [remove, setChain, if_true, find?_eraseP_self (t.distinct _), Option.map_none]
  · by_cases hs : t.slot hash k = t.slot hash key
    · simp only [remove, setChain, hs, if_true, find?_eraseP_other hk, if_neg hk]
    · simp only [remove, setChain, if_neg hs, if_neg hk]

/-- Write the value of a key through the pointer in its entry. -/
def update (t : Htab ν) (key : CStr) (val : ν) : Htab ν :=
  t.setChain (t.slot hash key)
    ((t.elements (t.slot hash key)).map fun x => if x.1 = key then (key, val) else x) (by
      have hkeys : ∀ l : List (CStr × ν),
          (l.map fun x => if x.1 = key then (key, val) else x).map Prod.fst = l.map Prod.fst := by
        intro l
        rw [List.map_map]
        apply List.map_congr_left
        intro x _
        by_cases hx : x.1 = key <;> simp [hx]
      rw [hkeys]
      exact t.distinct _)

@[simp] theorem slotCount_update (t : Htab ν) (key : CStr) (val : ν) :
    (t.update hash key val).slotCount = t.slotCount := rfl

theorem find?_update_self {l : List (CStr × ν)} {key : CStr} {val : ν} :
    (l.map fun x => if x.1 = key then (key, val) else x).find? (·.1 = key) =
      (l.find? (·.1 = key)).map fun _ => (key, val) := by
  induction l with
  | nil => rfl
  | cons e l ih =>
      by_cases he : e.1 = key
      · simp [he]
      · simpa [he] using ih

theorem find?_update_other {l : List (CStr × ν)} {key k : CStr} {val : ν} (hk : k ≠ key) :
    (l.map fun x => if x.1 = key then (key, val) else x).find? (·.1 = k) =
      l.find? (·.1 = k) := by
  induction l with
  | nil => rfl
  | cons e l ih =>
      by_cases he : e.1 = key
      · have hek : ¬ e.1 = k := fun h => hk (h.symm.trans he)
        have hkk : ¬ key = k := fun h => hk h.symm
        simpa [he, hek, hkk] using ih
      · by_cases hek : e.1 = k
        · simp [hek, hk]
        · simpa [he, hek] using ih

theorem lookup_update (t : Htab ν) (key : CStr) (val : ν) (k : CStr) :
    (t.update hash key val).lookup hash k =
      if k = key then (t.lookup hash key).map fun _ => val else t.lookup hash k := by
  have hslot : (t.update hash key val).slot hash k = t.slot hash k := rfl
  rw [lookup, hslot, lookup, lookup]
  by_cases hk : k = key
  · subst hk
    simp only [update, setChain, if_true, find?_update_self, Option.map_map]
    rfl
  · by_cases hs : t.slot hash k = t.slot hash key
    · simp only [update, setChain, hs, if_true, find?_update_other hk, if_neg hk]
    · simp only [update, setChain, if_neg hs, if_neg hk]

end Htab

/-- `htab_get`. -/
def htabGet (t : Htab ν) (key : CStr) : Except Fault (Option ν) := do
  assertC (t.slotCount ≠ 0)
  pure (t.lookup hash key)

/-- `htab_add`: the table with the new entry, or `none` if the key is there. -/
def htabAdd (t : Htab ν) (key : CStr) (val : ν) : Except Fault (Option (Htab ν)) := do
  assertC (t.slotCount ≠ 0)
  pure (if h : t.lookup hash key = none then some (t.add hash key val h) else none)

/-- `htab_remove`. -/
def htabRemove (t : Htab ν) (key : CStr) : Except Fault (Htab ν) := do
  assertC (t.slotCount ≠ 0)
  pure (t.remove hash key)

end EpidemicRouter
