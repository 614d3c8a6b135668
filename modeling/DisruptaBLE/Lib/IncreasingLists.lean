import Mathlib.Data.List.Sort
import Mathlib.Data.List.Perm.Basic

/-!
# Lists with increasing keys

Lists whose entries have strictly increasing keys, and the join of two of them in one sweep: all
entries of the first list, and those entries of the second one whose key is new.
-/

namespace IncreasingLists

universe u v

variable {α : Type u} {κ : Type v} [LinearOrder κ] {key : α → κ} {k : κ} {x y : α} {a b l : List α}

/-- Strictly increasing in the key. -/
def Increasing (key : α → κ) (l : List α) : Prop := l.Pairwise fun x y => key x < key y

theorem Increasing.filter (h : Increasing key l) (p : α → Bool) : Increasing key (l.filter p) :=
  List.Pairwise.sublist List.filter_sublist h

theorem increasing_cons :
    Increasing key (x :: l) ↔ (∀ y ∈ l, key x < key y) ∧ Increasing key l := List.pairwise_cons

/-- No two entries have one key. -/
theorem Increasing.eq_of_key_eq (h : Increasing key l) (hx : x ∈ l) (hy : y ∈ l)
    (hk : key x = key y) : x = y := by
  induction l with
  | nil => cases hx
  | cons z l ih =>
      obtain ⟨hlt, hl⟩ := increasing_cons.1 h
      rcases List.mem_cons.mp hx with rfl | hxl
      · rcases List.mem_cons.mp hy with rfl | hyl
        · rfl
        · exact absurd hk (hlt y hyl).ne
      · rcases List.mem_cons.mp hy with rfl | hyl
        · exact absurd hk (hlt x hxl).ne'
        · exact ih hl hxl hyl

/-- A head above `k` leaves nothing below it. -/
theorem Increasing.filter_lt_of_head (h : Increasing key (x :: l)) (hx : k ≤ key x) :
    (x :: l).filter (key · < k) = [] := by
  rw [List.filter_eq_nil_iff]
  intro y hy
  have hxy : key x ≤ key y := by
    rcases List.mem_cons.mp hy with rfl | hy
    · exact le_rfl
    · exact ((increasing_cons.1 h).1 y hy).le
  simpa using hx.trans hxy

/-- With its head, all of the list is above `k`. -/
theorem Increasing.lt_of_head (h : Increasing key (x :: l)) (hx : k < key x) (hy : y ∈ x :: l) :
    k < key y := by
  rcases List.mem_cons.mp hy with rfl | hy
  · exact hx
  · exact hx.trans ((increasing_cons.1 h).1 y hy)

theorem Increasing.filter_gt_of_head (h : Increasing key (x :: l)) (hx : k < key x) :
    (x :: l).filter (k < key ·) = x :: l :=
  List.filter_eq_self.mpr fun _ hy => by simpa using h.lt_of_head hx hy

/-- Above the key of the head lies the tail. -/
theorem Increasing.filter_gt_head (h : Increasing key (x :: l)) (hx : key x = k) :
    (x :: l).filter (k < key ·) = l := by
  rw [List.filter_cons_of_neg (by simpa using hx.le), List.filter_eq_self]
  intro y hy
  simpa [← hx] using (increasing_cons.1 h).1 y hy

/-- What is looked for above `k` is found in the entries above `k`. -/
theorem find?_filter_gt (p : α → Bool) (hp : ∀ y ∈ b, p y = true → k < key y) :
    (b.filter (k < key ·)).find? p = b.find? p := by
  induction b with
  | nil => rfl
  | cons y b ih =>
      have hrest := ih fun z hz => hp z (List.mem_cons_of_mem y hz)
      by_cases hk : k < key y
      · rw [List.filter_cons_of_pos (by simpa using hk), List.find?_cons, List.find?_cons, hrest]
      · have hno : p y = false := by
          by_contra h
          exact hk (hp y List.mem_cons_self (by simpa using h))
        rw [List.filter_cons_of_neg (by simpa using hk), List.find?_cons, hno, hrest]

/-! ## The join -/

/-- The entries of `a`, and those of `b` with new keys, each at its place. -/
def join (key : α → κ) : List α → List α → List α
  | [], b => b
  | x :: a, b => b.filter (key · < key x) ++ x :: join key a (b.filter (key x < key ·))

/-- The entries of `b` whose key is not one of `a`. -/
def fresh (key : α → κ) (a b : List α) : List α := b.filter fun y => ∀ x ∈ a, key x ≠ key y

theorem mem_fresh : y ∈ fresh key a b ↔ y ∈ b ∧ ∀ x ∈ a, key x ≠ key y := by
  simp [fresh]

@[simp] theorem fresh_nil_left : fresh key [] b = b := by
  simp [fresh]

@[simp] theorem fresh_nil_right : fresh key a [] = [] := rfl

/-- What is new beside `x :: a` lies before `x`, or behind it and is new beside `a`. -/
theorem fresh_cons (ha : Increasing key (x :: a)) :
    (fresh key (x :: a) b).Perm
      (b.filter (key · < key x) ++ fresh key a (b.filter (key x < key ·))) := by
  obtain ⟨hx, -⟩ := increasing_cons.1 ha
  have hbefore : (fresh key (x :: a) b).filter (key · < key x) = b.filter (key · < key x) := by
    rw [fresh, List.filter_filter]
    refine List.filter_congr fun y _ => ?_
    by_cases hy : key y < key x
    · have hnew : ∀ z ∈ x :: a, key z ≠ key y := by
        intro z hz
        rcases List.mem_cons.mp hz with rfl | hz
        · exact hy.ne'
        · exact (hy.trans (hx z hz)).ne'
      simp only [hy, decide_true, Bool.true_and, decide_eq_true hnew]
    · simp [hy]
  have hbehind : (fresh key (x :: a) b).filter (fun y => !decide (key y < key x)) =
      fresh key a (b.filter (key x < key ·)) := by
    rw [fresh, fresh, List.filter_filter, List.filter_filter]
    refine List.filter_congr fun y _ => ?_
    rw [← decide_not, ← Bool.decide_and, ← Bool.decide_and, decide_eq_decide, not_lt,
      List.forall_mem_cons, ← and_assoc, ← lt_iff_le_and_ne, and_comm]
  calc fresh key (x :: a) b
      _ |>.Perm _ := (List.filter_append_perm (key · < key x) _).symm
      _ |>.Perm _ := by rw [hbefore, hbehind]

theorem join_perm (ha : Increasing key a) : (join key a b).Perm (a ++ fresh key a b) := by
  induction a generalizing b with
  | nil => simp [join]
  | cons x a ih =>
      have hrest := ih (increasing_cons.1 ha).2 (b := b.filter (key x < key ·))
      have hmove : (b.filter (key · < key x) ++
          (a ++ fresh key a (b.filter (key x < key ·)))).Perm
          (a ++ (b.filter (key · < key x) ++ fresh key a (b.filter (key x < key ·)))) :=
        List.perm_append_comm_assoc _ _ _
      rw [join]
      refine List.perm_middle.trans (List.Perm.cons x ?_)
      refine (hrest.append_left _).trans (hmove.trans ?_)
      exact (fresh_cons ha).symm.append_left a

theorem mem_join (ha : Increasing key a) : y ∈ join key a b ↔ y ∈ a ∨ y ∈ fresh key a b := by
  rw [(join_perm ha).mem_iff, List.mem_append]

theorem join_increasing (ha : Increasing key a) (hb : Increasing key b) :
    Increasing key (join key a b) := by
  induction a generalizing b with
  | nil => exact hb
  | cons x a ih =>
      obtain ⟨hx, ha⟩ := increasing_cons.1 ha
      have hbefore : ∀ y ∈ b.filter (key · < key x), key y < key x := fun y hy => by
        simpa using (List.mem_filter.mp hy).2
      have hbehind : ∀ z ∈ join key a (b.filter (key x < key ·)), key x < key z := by
        intro z hz
        rcases (mem_join ha).1 hz with hz | hz
        · exact hx z hz
        · simpa using (List.mem_filter.mp (mem_fresh.1 hz).1).2
      rw [join]
      refine List.pairwise_append.2 ⟨hb.filter _, ?_, ?_⟩
      · exact increasing_cons.2 ⟨hbehind, ih ha (hb.filter _)⟩
      · intro y hy z hz
        rcases List.mem_cons.mp hz with rfl | hz
        · exact hbefore y hy
        · exact (hbefore y hy).trans (hbehind z hz)

end IncreasingLists
