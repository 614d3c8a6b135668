import DisruptaBLE.Lib.Heap

/-!
# Singly linked lists in memory

`IsSeg h next p l q` says that following the link `next` from the pointer `p`
visits the cells `l` in this order and then meets the pointer `q`.  A list that
ends is a segment that ends in `NULL`; a program that walks it reads the cells
of `l` and no others.

A segment that ends in `NULL` cannot visit a cell twice (`IsSeg.nodup`), so a
loop that follows it ends within the bound of the heap (`IsSeg.length_le`).
-/

namespace PtrHeap

universe u

variable {α : Type u} {h h' : Heap α} {next : α → Ptr}

/-- Following `next` from `p` visits the cells `l` and then meets `q`. -/
def IsSeg (h : Heap α) (next : α → Ptr) : Ptr → List Addr → Ptr → Prop
  | p, [], q => p = q
  | p, a :: l, q => p = some a ∧ ∃ v, h.cells a = some v ∧ IsSeg h next (next v) l q

namespace IsSeg

theorem append {p q : Ptr} {l m : List Addr} :
    IsSeg h next p (l ++ m) q ↔ ∃ r, IsSeg h next p l r ∧ IsSeg h next r m q := by
  induction l generalizing p with
  | nil =>
      constructor
      · intro hm
        exact ⟨p, rfl, hm⟩
      · intro hm
        obtain ⟨r, hr, hm⟩ := hm
        obtain rfl : p = r := hr
        exact hm
  | cons a l ih =>
      constructor
      · intro hs
        obtain ⟨hp, v, hv, hrest⟩ := hs
        obtain ⟨r, hl, hm⟩ := ih.mp hrest
        exact ⟨r, ⟨hp, v, hv, hl⟩, hm⟩
      · intro hs
        obtain ⟨r, ⟨hp, v, hv, hl⟩, hm⟩ := hs
        exact ⟨hp, v, hv, ih.mpr ⟨r, hl, hm⟩⟩

theorem live {p q : Ptr} {l : List Addr} (hs : IsSeg h next p l q) {a : Addr} (ha : a ∈ l) :
    ∃ v, h.cells a = some v := by
  induction l generalizing p with
  | nil => cases ha
  | cons b l ih =>
      obtain ⟨_, v, hv, hrest⟩ := hs
      rcases List.mem_cons.mp ha with rfl | ha
      · exact ⟨v, hv⟩
      · exact ih hrest ha

/-- A list in memory is determined by the pointer to its first cell. -/
theorem unique {p : Ptr} {l m : List Addr} (hl : IsSeg h next p l none)
    (hm : IsSeg h next p m none) : l = m := by
  induction l generalizing p m with
  | nil =>
      obtain rfl : p = none := hl
      cases m with
      | nil => rfl
      | cons b m => exact absurd hm.1 (by simp)
  | cons a l ih =>
      obtain ⟨rfl, v, hv, hrest⟩ := hl
      cases m with
      | nil => exact absurd hm (by simp [IsSeg])
      | cons b m =>
          obtain ⟨hab, w, hw, hrest'⟩ := hm
          obtain rfl : a = b := Option.some.inj hab
          obtain rfl : v = w := Option.some.inj (hv.symm.trans hw)
          rw [ih hrest hrest']

/-- **Acyclicity.**  A list that ends visits no cell twice. -/
theorem nodup {p : Ptr} {l : List Addr} (hs : IsSeg h next p l none) : l.Nodup := by
  induction l generalizing p with
  | nil => exact List.nodup_nil
  | cons a l ih =>
      obtain ⟨rfl, v, hv, hrest⟩ := id hs
      refine List.nodup_cons.mpr ⟨?_, ih hrest⟩
      intro ha
      obtain ⟨l₁, l₂, rfl⟩ := List.append_of_mem ha
      obtain ⟨r, _, hr, w, hw, htail⟩ := append.mp hrest
      have hsame : a :: (l₁ ++ a :: l₂) = a :: l₂ := unique hs ⟨rfl, w, hw, htail⟩
      have hlen := congrArg List.length hsame
      simp only [List.length_cons, List.length_append] at hlen
      omega

theorem length_le {p : Ptr} {l : List Addr} (hs : IsSeg h next p l none) :
    l.length ≤ h.bound := by
  apply Heap.length_le_bound_of_nodup hs.nodup
  intro a ha
  obtain ⟨v, hv⟩ := hs.live ha
  simp [hv]

/-- **Frame.**  A segment depends only on the links of its own cells. -/
theorem frame {p q : Ptr} {l : List Addr} (hs : IsSeg h next p l q)
    (hsame : ∀ a ∈ l, ∀ v, h.cells a = some v → ∃ v', h'.cells a = some v' ∧ next v' = next v) :
    IsSeg h' next p l q := by
  induction l generalizing p with
  | nil => exact hs
  | cons a l ih =>
      obtain ⟨hp, v, hv, hrest⟩ := hs
      obtain ⟨v', hv', hnext⟩ := hsame a List.mem_cons_self v hv
      refine ⟨hp, v', hv', ?_⟩
      rw [hnext]
      exact ih hrest fun b hb => hsame b (List.mem_cons_of_mem _ hb)

theorem frame_eq {p q : Ptr} {l : List Addr} (hs : IsSeg h next p l q)
    (hsame : ∀ a ∈ l, h'.cells a = h.cells a) : IsSeg h' next p l q :=
  hs.frame fun a ha v hv => ⟨v, (hsame a ha).trans hv, rfl⟩

/-- The last link of a nonempty segment may be redirected. -/
theorem redirect {p q r : Ptr} {l : List Addr} {a : Addr} {w : α}
    (hs : IsSeg h next p (l ++ [a]) q) (ha : a ∉ l) (hw : next w = r) :
    IsSeg (h.set a w) next p (l ++ [a]) r := by
  obtain ⟨m, hl, rfl, _⟩ := append.mp hs
  refine append.mpr ⟨some a, hl.frame_eq ?_, rfl, w, by simp, hw⟩
  intro b hb
  have hba : b ≠ a := fun h => ha (h ▸ hb)
  simp [hba]

end IsSeg

end PtrHeap
