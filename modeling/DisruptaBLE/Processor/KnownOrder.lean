import DisruptaBLE.Processor.KnownRuns

/-!
# The order of the known bundle list

`components/ud3tn/known_bundle_list.c` as a component of its own: any sequence of its
four operations that change the list.

Removal looks only at the head of the list.  It is exact because the list is ordered
by deadline (`known_list_order`), and the order rests on the search of
`add_if_not_exists`, which stops at the first entry with a later deadline.  That
search may also end at an entry for the same bundle; then the list does not change.

The deadline of a bundle is read from the clock twice, once for the search and once
for the new entry.  The two agree if the bundle has a creation timestamp.
-/

namespace BundleProcessor

/-! ## Operations -/

/-- `known_bundle_list_pop_before`: the entry that is returned, and the list after it. -/
def knownBundleListPopBefore (known : List KnownEntry) (before : UInt64) :
    Option KnownEntry × List KnownEntry :=
  match known with
  | [] => (none, [])
  | e :: es => if e.deadline < before then (some e, es) else (none, e :: es)

/-- `add_if_not_exists`, where the clock says `now` during the search and `later` when
the entry is created. -/
def addIfNotExistsBetween (now later : UInt64) (mem : Option Nat) (b : Bundle) (asParent : Bool) :
    List KnownEntry → Bool × List KnownEntry
  | [] => (false, if mem.isSome then [createEntry later b asParent] else [])
  | e :: es =>
      if asParent && isReassembledParent b e then (true, e :: es)
      else if !asParent && bundleIsEqual b e.uniqueIdentifier then (true, e :: es)
      else if bundleGetExpirationTimeS now b < e.deadline then
        (false, if mem.isSome then createEntry later b asParent :: e :: es else e :: es)
      else
        let (found, es) := addIfNotExistsBetween now later mem b asParent es
        (found, e :: es)

/-- The operations that change the list.  An addition meets a clock and the memory for an
entry. -/
inductive KnownOp where
  /-- `known_bundle_list_add` -/
  | add (now later : UInt64) (mem : Option Nat) (b : Bundle)
  /-- `known_bundle_list_add_reassembled_parent` -/
  | addReassembledParent (now later : UInt64) (mem : Option Nat) (b : Bundle)
  /-- `known_bundle_list_pop_before` -/
  | popBefore (before : UInt64)
  /-- `known_bundle_list_remove_before` -/
  | removeBefore (before : UInt64)

namespace KnownOp

/-- One operation. -/
def run (known : List KnownEntry) : KnownOp → List KnownEntry
  | .add now later mem b => (addIfNotExistsBetween now later mem b false known).2
  | .addReassembledParent now later mem b => (addIfNotExistsBetween now later mem b true known).2
  | .popBefore before => (knownBundleListPopBefore known before).2
  | .removeBefore before => knownBundleListRemoveBefore known before

/-- The bundles that are added have a creation timestamp. -/
def Timestamped : KnownOp → Prop
  | .add _ _ _ b => b.creationTimestampMs ≠ 0
  | .addReassembledParent _ _ _ b => b.creationTimestampMs ≠ 0
  | _ => True

/-- What an operation may do to a list: an addition leaves the list or inserts one entry,
popping takes the first entry if it is due, and removal takes exactly those that are
due. -/
def Exact (l l' : List KnownEntry) : KnownOp → Prop
  | .add _ later _ b => l' = l ∨ ∃ before after, l = before ++ after ∧
      l' = before ++ createEntry later b false :: after
  | .addReassembledParent _ later _ b => l' = l ∨ ∃ before after, l = before ++ after ∧
      l' = before ++ createEntry later b true :: after
  | .popBefore before => (l' = l ∧ ∀ e ∈ l, ¬ e.deadline < before) ∨
      ∃ e, e.deadline < before ∧ l = e :: l'
  | .removeBefore before => l' = l.filter fun e => ¬ e.deadline < before

end KnownOp

/-- The list after some operations, from `known_bundle_list_create` on. -/
def knownRun (ops : List KnownOp) : List KnownEntry := ops.foldl KnownOp.run []

/-- The list is ordered by deadline. -/
def KnownSorted (known : List KnownEntry) : Prop :=
  known.Pairwise fun e e' => e.deadline ≤ e'.deadline

/-! ## Removal -/

section Removal

variable {l : List KnownEntry}

/-- `known_bundle_list_remove_before` pops until nothing is due. -/
theorem knownBundleListRemoveBefore_pop (l : List KnownEntry) (before : UInt64) :
    knownBundleListRemoveBefore l before =
      match knownBundleListPopBefore l before with
      | (none, l) => l
      | (some _, l) => knownBundleListRemoveBefore l before := by
  cases l with
  | nil => rfl
  | cons e es =>
      unfold knownBundleListPopBefore knownBundleListRemoveBefore
      dsimp only
      by_cases hdue : e.deadline < before
      · rw [if_pos hdue, List.dropWhile_cons_of_pos (by simpa using hdue)]
      · rw [if_neg hdue, List.dropWhile_cons_of_neg (by simpa using hdue)]

/-- In an ordered list nothing is due behind an entry that is not. -/
theorem KnownSorted.not_due {e : KnownEntry} {es : List KnownEntry}
    (h : KnownSorted (e :: es)) {before : UInt64} (hdue : ¬ e.deadline < before) :
    ∀ e' ∈ e :: es, ¬ e'.deadline < before := by
  have hfirst : before ≤ e.deadline := UInt64.not_lt.mp hdue
  intro e' he'
  rw [UInt64.not_lt]
  rcases List.mem_cons.mp he' with rfl | hmem
  · exact hfirst
  · exact UInt64.le_trans hfirst ((List.pairwise_cons.mp h).1 e' hmem)

/-- **Removal is exact** on an ordered list. -/
theorem removeBefore_eq_filter (h : KnownSorted l) (before : UInt64) :
    knownBundleListRemoveBefore l before = l.filter fun e => ¬ e.deadline < before := by
  unfold knownBundleListRemoveBefore
  induction l with
  | nil => rfl
  | cons e es ih =>
      by_cases hdue : e.deadline < before
      · rw [List.dropWhile_cons_of_pos (by simpa using hdue),
          List.filter_cons_of_neg (by simpa using hdue)]
        exact ih (List.pairwise_cons.mp h).2
      · rw [List.dropWhile_cons_of_neg (by simpa using hdue)]
        have hnone := h.not_due hdue
        rw [List.filter_eq_self.mpr]
        intro e' he'
        simpa using hnone e' he'

/-- The popped entry is the first one, and it is due. -/
theorem popBefore_exact (h : KnownSorted l) (before : UInt64) :
    ((knownBundleListPopBefore l before).2 = l ∧ ∀ e ∈ l, ¬ e.deadline < before) ∨
      ∃ e, e.deadline < before ∧ l = e :: (knownBundleListPopBefore l before).2 := by
  cases l with
  | nil => exact Or.inl ⟨rfl, by simp⟩
  | cons e es =>
      unfold knownBundleListPopBefore
      dsimp only
      by_cases hdue : e.deadline < before
      · rw [if_pos hdue]
        exact Or.inr ⟨e, hdue, rfl⟩
      · rw [if_neg hdue]
        exact Or.inl ⟨rfl, h.not_due hdue⟩

end Removal

/-! ## Insertion -/

section Insertion

variable {b : Bundle} {l : List KnownEntry}

/-- With a creation timestamp, the deadline does not depend on the clock. -/
theorem expiration_timestamped (hb : b.creationTimestampMs ≠ 0) (now later : UInt64) :
    bundleGetExpirationTimeS now b = bundleGetExpirationTimeS later b := by
  unfold bundleGetExpirationTimeS
  rw [if_pos hb, if_pos hb]

/-- **An addition** leaves the list, or it inserts the entry behind those that are due no
later and before one that is due later. -/
theorem addIfNotExistsBetween_spec (now later : UInt64) (mem : Option Nat) (b : Bundle)
    (asParent : Bool) (l : List KnownEntry) :
    (addIfNotExistsBetween now later mem b asParent l).2 = l ∨
      ∃ before after, l = before ++ after ∧
        (addIfNotExistsBetween now later mem b asParent l).2 =
          before ++ createEntry later b asParent :: after ∧
        (∀ e ∈ before, ¬ bundleGetExpirationTimeS now b < e.deadline) ∧
        ∀ e ∈ after.head?, bundleGetExpirationTimeS now b < e.deadline := by
  induction l with
  | nil =>
      unfold addIfNotExistsBetween
      cases mem with
      | none => exact Or.inl rfl
      | some _ => exact Or.inr ⟨[], [], rfl, rfl, by simp, by simp⟩
  | cons e es ih =>
      unfold addIfNotExistsBetween
      split
      · exact Or.inl rfl
      split
      · exact Or.inl rfl
      split
      · next hearlier =>
        cases mem with
        | none => exact Or.inl rfl
        | some _ =>
            apply Or.inr
            exact ⟨[], e :: es, rfl, rfl, by simp, by simpa using hearlier⟩
      · next hlater =>
        rcases ih with hsame | ⟨before, after, rfl, hins, hbefore, hafter⟩
        · apply Or.inl
          exact congrArg (e :: ·) hsame
        · apply Or.inr
          refine ⟨e :: before, after, rfl, congrArg (e :: ·) hins, ?_, hafter⟩
          intro e' he'
          rcases List.mem_cons.mp he' with rfl | hmem
          · exact hlater
          · exact hbefore e' hmem

/-- **An addition keeps the order.** -/
theorem KnownSorted.add (h : KnownSorted l) (hb : b.creationTimestampMs ≠ 0) (now later : UInt64)
    (mem : Option Nat) (asParent : Bool) :
    KnownSorted (addIfNotExistsBetween now later mem b asParent l).2 := by
  rcases addIfNotExistsBetween_spec now later mem b asParent l with
    hsame | ⟨before, after, rfl, hins, hbefore, hafter⟩
  · rw [hsame]
    exact h
  · rw [hins]
    obtain ⟨hb₁, hb₂, hcross⟩ := List.pairwise_append.mp h
    have hdeadline : (createEntry later b asParent).deadline = bundleGetExpirationTimeS now b :=
      expiration_timestamped hb later now
    -- what stands behind the new entry is due no earlier than the first of it
    have hrest : ∀ e ∈ after, bundleGetExpirationTimeS now b ≤ e.deadline := by
      cases after with
      | nil => simp
      | cons first rest =>
          have hfirst : bundleGetExpirationTimeS now b ≤ first.deadline :=
            UInt64.le_of_lt (hafter first rfl)
          intro e he
          rcases List.mem_cons.mp he with rfl | hmem
          · exact hfirst
          · exact UInt64.le_trans hfirst ((List.pairwise_cons.mp hb₂).1 e hmem)
    apply List.pairwise_append.mpr
    refine ⟨hb₁, List.pairwise_cons.mpr ⟨?_, hb₂⟩, ?_⟩
    · intro e he
      rw [hdeadline]
      exact hrest e he
    · intro e he e' he'
      rcases List.mem_cons.mp he' with rfl | hmem
      · rw [hdeadline]
        exact UInt64.not_lt.mp (hbefore e he)
      · exact hcross e he e' hmem

end Insertion

/-! ## Runs -/

/-- One operation does what it may do. -/
theorem KnownOp.exact_run {l : List KnownEntry} (h : KnownSorted l) (op : KnownOp) :
    op.Exact l (op.run l) := by
  cases op with
  | add now later mem b =>
      rcases addIfNotExistsBetween_spec now later mem b false l with
        hsame | ⟨before, after, hl, hins, -⟩
      · exact Or.inl hsame
      · exact Or.inr ⟨before, after, hl, hins⟩
  | addReassembledParent now later mem b =>
      rcases addIfNotExistsBetween_spec now later mem b true l with
        hsame | ⟨before, after, hl, hins, -⟩
      · exact Or.inl hsame
      · exact Or.inr ⟨before, after, hl, hins⟩
  | popBefore before => exact popBefore_exact h before
  | removeBefore before => exact removeBefore_eq_filter h before

/-- One operation keeps the order. -/
theorem KnownSorted.run {l : List KnownEntry} (h : KnownSorted l) {op : KnownOp}
    (hop : op.Timestamped) : KnownSorted (op.run l) := by
  cases op with
  | add now later mem b => exact h.add hop now later mem false
  | addReassembledParent now later mem b => exact h.add hop now later mem true
  | popBefore before =>
      rcases popBefore_exact h before with ⟨hsame, -⟩ | ⟨e, -, hl⟩
      · change KnownSorted (knownBundleListPopBefore l before).2
        rw [hsame]
        exact h
      · rw [hl] at h
        exact (List.pairwise_cons.mp h).2
  | removeBefore before => exact List.Pairwise.sublist (List.dropWhile_sublist _) h

/-- The order holds after any operations. -/
theorem knownSorted_knownRun {ops : List KnownOp} (hops : ∀ op ∈ ops, op.Timestamped) :
    KnownSorted (knownRun ops) := by
  unfold knownRun
  have hnil : KnownSorted [] := List.Pairwise.nil
  generalize [] = l at hnil
  induction ops generalizing l with
  | nil => exact hnil
  | cons op ops ih =>
      rw [List.foldl_cons]
      apply ih
      · intro op' hop'
        exact hops op' (List.mem_cons_of_mem _ hop')
      · exact hnil.run (hops op List.mem_cons_self)

/-- **The known bundle list stays ordered.**  After any sequence of operations on bundles with a
creation timestamp the list is ordered by deadline, and every further operation does exactly what
it may do: no entry disappears unless it is popped or removed, and removal takes the entries that
are due and leaves the others in their order. -/
theorem known_list_order (ops : List KnownOp) (hops : ∀ op ∈ ops, op.Timestamped) :
    KnownSorted (knownRun ops) ∧
      ∀ op : KnownOp, op.Exact (knownRun ops) (knownRun (ops ++ [op])) := by
  have hsorted := knownSorted_knownRun hops
  refine ⟨hsorted, fun op => ?_⟩
  unfold knownRun
  rw [List.foldl_append]
  exact op.exact_run hsorted

/-- Two bundles are recorded, of which the second is due first. -/
def lettersRecorded : List KnownOp :=
  [.add 10 11 (some 0) (letter 1 60000), .add 12 12 (some 0) (letter 2 45000)]

/-- Removal in between takes one of them. -/
theorem known_list_order_letters :
    (knownRun lettersRecorded).map (·.deadline) = [50, 65] ∧
    KnownSorted (knownRun lettersRecorded) ∧
      (knownRun (lettersRecorded ++ [.removeBefore 60])).map (·.deadline) = [65] := by
  have hops : ∀ op ∈ lettersRecorded, op.Timestamped := by
    unfold lettersRecorded
    simp [KnownOp.Timestamped, letter, note]
  obtain ⟨hsorted, hexact⟩ := known_list_order lettersRecorded hops
  have hrest : knownRun (lettersRecorded ++ [.removeBefore 60]) =
      (knownRun lettersRecorded).filter fun e => ¬ e.deadline < 60 := hexact (.removeBefore 60)
  refine ⟨by decide, hsorted, ?_⟩
  rw [hrest]
  decide

end BundleProcessor
