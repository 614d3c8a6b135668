import Mathlib.Data.List.Basic

/-!
# Words with a terminator

A list of words is written down as the words one after the other, each with a terminator that
occurs in none of them.  The number of terminators is the number of words (`count_wire`), and the
words can be read back (`wire_append_eq_wire`).
-/

namespace Terminated

universe u

variable {α : Type u} {t : α}

/-- A word without its terminator. -/
abbrev Word (t : α) : Type u := { w : List α // t ∉ w }

/-- The word with its terminator. -/
def Word.closed (w : Word t) : List α := w.1 ++ [t]

/-- The words one after the other. -/
def wire (words : List (Word t)) : List α := words.flatMap Word.closed

@[simp] theorem wire_nil : wire ([] : List (Word t)) = [] := rfl

@[simp] theorem wire_cons (w : Word t) (words : List (Word t)) :
    wire (w :: words) = w.closed ++ wire words := rfl

@[simp] theorem Word.length_closed (w : Word t) : w.closed.length = w.1.length + 1 := by
  simp [closed]

/-- Every list is a list of words and a rest without terminator. -/
theorem exists_words (t : α) (xs : List α) :
    ∃ (words : List (Word t)) (tail : List α), xs = wire words ++ tail ∧ t ∉ tail := by
  induction xs with
  | nil => exact ⟨[], [], rfl, List.not_mem_nil⟩
  | cons x xs ih =>
      obtain ⟨words, tail, rfl, htail⟩ := ih
      by_cases hx : x = t
      · subst hx
        exact ⟨⟨[], List.not_mem_nil⟩ :: words, tail, rfl, htail⟩
      · cases words with
        | nil =>
            refine ⟨[], x :: tail, rfl, ?_⟩
            rw [List.mem_cons, not_or]
            exact ⟨Ne.symm hx, htail⟩
        | cons w words =>
            have hw : t ∉ x :: w.1 := by
              rw [List.mem_cons, not_or]
              exact ⟨Ne.symm hx, w.2⟩
            exact ⟨⟨x :: w.1, hw⟩ :: words, tail, rfl, htail⟩

variable [BEq α] [LawfulBEq α]

theorem Word.count_closed (w : Word t) : w.closed.count t = 1 := by
  simp [closed, List.count_eq_zero.mpr w.2]

theorem count_wire (words : List (Word t)) : (wire words).count t = words.length := by
  induction words with
  | nil => rfl
  | cons w words ih =>
      rw [wire_cons, List.count_append, w.count_closed, ih, List.length_cons]
      omega

/-- The first terminator is the one of the first word. -/
theorem findIdx_closed (w : Word t) (xs : List α) :
    (w.closed ++ xs).findIdx? (· == t) = some w.1.length := by
  have hnone : w.1.findIdx? (· == t) = none := by
    rw [List.findIdx?_eq_none_iff]
    intro x hx
    refine beq_eq_false_iff_ne.mpr ?_
    intro heq
    obtain rfl := heq
    exact w.2 hx
  simp [Word.closed, List.findIdx?_append, hnone, List.findIdx?_cons]

/-- The first word and what follows it can be told apart. -/
theorem closed_append_inj {w w' : Word t} {xs ys : List α} (h : w.closed ++ xs = w'.closed ++ ys) :
    w = w' ∧ xs = ys := by
  have hlength : w.1.length = w'.1.length := by
    have hfirst := findIdx_closed w xs
    rw [h, findIdx_closed] at hfirst
    exact (Option.some.inj hfirst).symm
  obtain ⟨hw, hxs⟩ := List.append_inj h (by simp [hlength])
  exact ⟨Subtype.ext (List.append_cancel_right hw), hxs⟩

/-- A list of words leaves no rest. -/
theorem wire_append_eq_wire {words words' : List (Word t)} {tail : List α} (htail : t ∉ tail) :
    wire words ++ tail = wire words' ↔ words' = words ∧ tail = [] := by
  constructor
  · intro h
    induction words generalizing words' with
    | nil =>
        have hcount : words'.length = 0 := by
          rw [← count_wire, ← h]
          exact List.count_eq_zero.mpr htail
        obtain rfl := List.length_eq_zero_iff.mp hcount
        exact ⟨rfl, h⟩
    | cons w words ih =>
        cases words' with
        | nil => simp [Word.closed] at h
        | cons w' words' =>
            rw [wire_cons, wire_cons, List.append_assoc] at h
            obtain ⟨rfl, hrest⟩ := closed_append_inj h
            obtain ⟨rfl, hnil⟩ := ih hrest
            exact ⟨rfl, hnil⟩
  · intro heq
    obtain ⟨rfl, rfl⟩ := heq
    rw [List.append_nil]

end Terminated
