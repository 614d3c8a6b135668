import DisruptaBLE.Processor.Handlers

/-!
# The list of known bundles

The list is ordered by deadline, and `add_if_not_exists` stops its search at the first
entry with a later deadline.  So it finds an entry only if the deadline of the bundle
agrees with that of the entry.  `KnownSound D` says that the deadlines follow from the
source, the creation timestamp and the sequence number, by a function `D`; then the
search is exact, and no two entries stand for the same bundle.
-/

namespace BundleProcessor

/-! ## Decisions -/

/-- The answer of `bundle_record_add_and_check_known`. -/
def alreadyKnown (env : Env) (known : List KnownEntry) (b : Bundle) : Bool :=
  bundleGetExpirationTimeS env.now b < env.now ||
    (addIfNotExists env.now none b false (knownBundleListRemoveBefore known env.now)).1

/-- Whether the original bundle of a fragment is known, once the fragment is recorded:
a fragment may itself be taken for it. -/
def parentKnown (env : Env) (known : List KnownEntry) (b : Bundle) : Bool :=
  (createEntry env.now b false :: knownBundleListRemoveBefore known env.now).any
    (isReassembledParent b)

/-- Whether there is an entry for the original bundle of a fragment, when the fragment is
recorded. -/
def originalHeld (env : Env) (known : List KnownEntry) (b : Bundle) : Bool :=
  (knownBundleListRemoveBefore known env.now).any (isReassembledParent b)

section Decisions

variable {b : Bundle}

theorem addIfNotExists_found (now : UInt64) (mem : Option Nat) (asParent : Bool)
    (l : List KnownEntry) :
    (addIfNotExists now mem b asParent l).1 = (addIfNotExists now none b asParent l).1 := by
  induction l with
  | nil => rfl
  | cons e es ih =>
      unfold addIfNotExists
      split
      · rfl
      split
      · rfl
      split
      · rfl
      · exact ih

/-- The retention constraints do not matter for the list. -/
theorem addIfNotExists_ret (now : UInt64) (mem : Option Nat) (asParent : Bool)
    (ret : RetConstraints) (l : List KnownEntry) :
    addIfNotExists now mem { b with ret } asParent l = addIfNotExists now mem b asParent l := by
  induction l with
  | nil => rfl
  | cons e es ih =>
      unfold addIfNotExists
      rw [ih]
      rfl

theorem mem_addIfNotExists {now : UInt64} {mem : Option Nat} {asParent : Bool}
    {l : List KnownEntry} {e : KnownEntry}
    (he : e ∈ (addIfNotExists now mem b asParent l).2) :
    e ∈ createEntry now b asParent :: l := by
  induction l with
  | nil =>
      unfold addIfNotExists at he
      split at he
      · exact he
      · cases he
  | cons x xs ih =>
      unfold addIfNotExists at he
      split at he
      · exact List.mem_cons_of_mem _ he
      split at he
      · exact List.mem_cons_of_mem _ he
      split at he
      · split at he
        · exact he
        · exact List.mem_cons_of_mem _ he
      · rcases List.mem_cons.mp he with rfl | he
        · simp
        · have hmem := ih he
          simp only [List.mem_cons] at hmem ⊢
          tauto

/-- Entries stay when a bundle is recorded. -/
theorem subset_addIfNotExists (now : UInt64) (mem : Option Nat) (b : Bundle) (asParent : Bool)
    (l : List KnownEntry) : l ⊆ (addIfNotExists now mem b asParent l).2 := by
  induction l with
  | nil => simp
  | cons x xs ih =>
      unfold addIfNotExists
      split
      · exact List.Subset.refl _
      split
      · exact List.Subset.refl _
      split
      · dsimp only
        split
        · exact List.subset_cons_self _ _
        · exact List.Subset.refl _
      · exact List.cons_subset_cons x ih

/-- **`bundle_record_add_and_check_known`**. -/
theorem bundleRecordAddAndCheckKnown_spec (env : Env) (s : Processor) (b : Bundle) :
    ∃ mem n, bundleRecordAddAndCheckKnown env s b = (alreadyKnown env s.known b,
      { s with
        known :=
          if bundleGetExpirationTimeS env.now b < env.now then
            knownBundleListRemoveBefore s.known env.now
          else (addIfNotExists env.now mem b false
            (knownBundleListRemoveBefore s.known env.now)).2
        requests := n }) := by
  unfold bundleRecordAddAndCheckKnown alreadyKnown
  by_cases hexp : bundleGetExpirationTimeS env.now b < env.now
  · refine ⟨none, s.requests, ?_⟩
    simp only [hexp, if_true, decide_true, Bool.true_or]
  · refine ⟨env.malloc s.requests, s.requests + 1, ?_⟩
    simp only [hexp, if_false, malloc, decide_false, Bool.false_or]
    rw [← addIfNotExists_found env.now (env.malloc s.requests)]

end Decisions

/-! ## The order of the list -/

/-- What the fragments of a bundle have in common. -/
structure Lineage where
  protocolVersion : UInt8
  source : CStr
  creationTimestampMs : UInt64
  sequenceNumber : UInt64
  deriving DecidableEq, Repr

def Bundle.lineage (b : Bundle) : Lineage :=
  ⟨b.protocolVersion, b.source, b.creationTimestampMs, b.sequenceNumber⟩

def UniqueIdentifier.lineage (id : UniqueIdentifier) : Lineage :=
  ⟨id.protocolVersion, id.source, id.creationTimestampMs, id.sequenceNumber⟩

/-- A bundle with a creation timestamp, which expires when `D` says. -/
def Punctual (D : Lineage → UInt64) (b : Bundle) : Prop :=
  b.creationTimestampMs ≠ 0 ∧ ∀ now, bundleGetExpirationTimeS now b = D b.lineage

/-- The list is ordered, and its entries are distinct. -/
structure KnownSound (D : Lineage → UInt64) (known : List KnownEntry) : Prop where
  sorted : known.Pairwise fun e e' => e.deadline ≤ e'.deadline
  distinct : known.Pairwise fun e e' => e.uniqueIdentifier ≠ e'.uniqueIdentifier
  punctual : ∀ e ∈ known, e.deadline = D e.uniqueIdentifier.lineage

section Order

variable {D : Lineage → UInt64} {b : Bundle} {l : List KnownEntry}

theorem knownSound_nil : KnownSound D [] := ⟨.nil, .nil, by simp⟩

theorem KnownSound.sublist {l' : List KnownEntry} (h : KnownSound D l) (hsub : l'.Sublist l) :
    KnownSound D l' :=
  ⟨h.sorted.sublist hsub, h.distinct.sublist hsub, fun e he => h.punctual e (hsub.subset he)⟩

theorem KnownSound.removeBefore (h : KnownSound D l) (before : UInt64) :
    KnownSound D (knownBundleListRemoveBefore l before) := h.sublist (List.dropWhile_sublist _)

theorem KnownSound.tail {e : KnownEntry} (h : KnownSound D (e :: l)) : KnownSound D l :=
  h.sublist (List.sublist_cons_self _ _)

theorem bundleIsEqual_iff (b : Bundle) (id : UniqueIdentifier) :
    bundleIsEqual b id = true ↔ id = bundleGetUniqueIdentifier b := by
  cases id
  simp only [bundleIsEqual, bundleIsEqualParent, bundleGetUniqueIdentifier, Bool.and_eq_true,
    decide_eq_true_eq, UniqueIdentifier.mk.injEq]
  constructor
  · rintro ⟨⟨⟨⟨⟨rfl, rfl⟩, rfl⟩, rfl⟩, rfl⟩, rfl⟩
    simp
  · rintro ⟨rfl, rfl, rfl, rfl, rfl, rfl⟩
    simp

/-- The test of the search: the entry is the one that would be created. -/
theorem search_iff (now : UInt64) (b : Bundle) (asParent : Bool) (e : KnownEntry) :
    ((asParent && isReassembledParent b e) = true ∨
      (!asParent && bundleIsEqual b e.uniqueIdentifier) = true) ↔
    e.uniqueIdentifier = (createEntry now b asParent).uniqueIdentifier := by
  cases asParent with
  | false =>
      simp only [Bool.false_and, Bool.false_eq_true, Bool.not_false, Bool.true_and, false_or,
        createEntry, if_false]
      exact bundleIsEqual_iff b _
  | true =>
      obtain ⟨⟨⟩, deadline⟩ := e
      simp only [Bool.true_and, Bool.not_true, Bool.false_and, Bool.false_eq_true, or_false,
        createEntry, if_true, isReassembledParent, bundleIsEqualParent, Bool.and_eq_true,
        decide_eq_true_eq, bundleGetUniqueIdentifier, UniqueIdentifier.mk.injEq]
      constructor
      · rintro ⟨⟨⟨⟨⟨rfl, rfl⟩, rfl⟩, rfl⟩, rfl⟩, rfl⟩
        simp
      · rintro ⟨rfl, rfl, rfl, rfl, rfl, rfl⟩
        simp

theorem lineage_createEntry (now : UInt64) (b : Bundle) (asParent : Bool) :
    (createEntry now b asParent).uniqueIdentifier.lineage = b.lineage := by
  cases asParent with
  | false => rfl
  | true => rfl

theorem deadline_createEntry (hb : Punctual D b) (now : UInt64) (asParent : Bool) :
    (createEntry now b asParent).deadline = D b.lineage := hb.2 now

/-- An entry for the bundle has its deadline. -/
theorem KnownSound.deadline_eq (h : KnownSound D l) {e : KnownEntry} (he : e ∈ l) {now : UInt64}
    {asParent : Bool}
    (heq : e.uniqueIdentifier = (createEntry now b asParent).uniqueIdentifier) :
    e.deadline = D b.lineage := by
  rw [h.punctual e he, heq, lineage_createEntry]

/-- The rounds of the search. -/
theorem addIfNotExists_cons (now : UInt64) (mem : Option Nat) (b : Bundle) (asParent : Bool)
    (e : KnownEntry) (es : List KnownEntry) :
    (e.uniqueIdentifier = (createEntry now b asParent).uniqueIdentifier ∧
      addIfNotExists now mem b asParent (e :: es) = (true, e :: es)) ∨
    (e.uniqueIdentifier ≠ (createEntry now b asParent).uniqueIdentifier ∧
      bundleGetExpirationTimeS now b < e.deadline ∧
      addIfNotExists now mem b asParent (e :: es) =
        (false, if mem.isSome then createEntry now b asParent :: e :: es else e :: es)) ∨
    (e.uniqueIdentifier ≠ (createEntry now b asParent).uniqueIdentifier ∧
      ¬ bundleGetExpirationTimeS now b < e.deadline ∧
      addIfNotExists now mem b asParent (e :: es) =
        ((addIfNotExists now mem b asParent es).1,
          e :: (addIfNotExists now mem b asParent es).2)) := by
  have hsearch := search_iff now b asParent e
  rw [addIfNotExists]
  by_cases hp : (asParent && isReassembledParent b e) = true
  · rw [if_pos hp]
    exact Or.inl ⟨hsearch.mp (Or.inl hp), rfl⟩
  rw [if_neg hp]
  by_cases he : (!asParent && bundleIsEqual b e.uniqueIdentifier) = true
  · rw [if_pos he]
    exact Or.inl ⟨hsearch.mp (Or.inr he), rfl⟩
  rw [if_neg he]
  have hne : e.uniqueIdentifier ≠ (createEntry now b asParent).uniqueIdentifier := by
    intro heq
    exact (hsearch.mpr heq).elim hp he
  by_cases hlt : bundleGetExpirationTimeS now b < e.deadline
  · rw [if_pos hlt]
    exact Or.inr (Or.inl ⟨hne, hlt, rfl⟩)
  · rw [if_neg hlt]
    exact Or.inr (Or.inr ⟨hne, hlt, rfl⟩)

/-- **The list stays sound** when a bundle is recorded. -/
theorem KnownSound.add (h : KnownSound D l) (hb : Punctual D b) (now : UInt64)
    (mem : Option Nat) (asParent : Bool) :
    KnownSound D (addIfNotExists now mem b asParent l).2 := by
  induction l with
  | nil =>
      unfold addIfNotExists
      split
      · refine ⟨List.pairwise_singleton _ _, List.pairwise_singleton _ _, ?_⟩
        intro e he
        obtain rfl := List.mem_singleton.mp he
        rw [deadline_createEntry hb, lineage_createEntry]
      · exact knownSound_nil
  | cons e es ih =>
      rcases addIfNotExists_cons now mem b asParent e es with
        ⟨_, hrun⟩ | ⟨hne, hlt, hrun⟩ | ⟨hne, hnlt, hrun⟩
      · rw [hrun]
        exact h
      · rw [hrun]
        dsimp only
        split
        · rw [hb.2] at hlt
          have hle : D b.lineage ≤ e.deadline := UInt64.le_of_lt hlt
          refine ⟨List.pairwise_cons.mpr ⟨?_, h.sorted⟩,
            List.pairwise_cons.mpr ⟨?_, h.distinct⟩, ?_⟩
          · intro e' he'
            rw [deadline_createEntry hb]
            rcases List.mem_cons.mp he' with rfl | hmem
            · exact hle
            · exact UInt64.le_trans hle ((List.pairwise_cons.mp h.sorted).1 e' hmem)
          · intro e' he' heq
            have hdl := h.deadline_eq he' heq.symm
            rcases List.mem_cons.mp he' with rfl | hmem
            · exact hne heq.symm
            · have hle' := (List.pairwise_cons.mp h.sorted).1 e' hmem
              rw [hdl] at hle'
              exact absurd hlt (by simpa using hle')
          · intro e' he'
            rcases List.mem_cons.mp he' with rfl | hmem
            · rw [deadline_createEntry hb, lineage_createEntry]
            · exact h.punctual e' hmem
        · exact h
      · rw [hrun]
        have hrest := ih h.tail
        have hmem : ∀ e' ∈ (addIfNotExists now mem b asParent es).2,
            e' = createEntry now b asParent ∨ e' ∈ es := fun e' he' =>
          List.mem_cons.mp (mem_addIfNotExists he')
        rw [hb.2] at hnlt
        refine ⟨List.pairwise_cons.mpr ⟨?_, hrest.sorted⟩,
          List.pairwise_cons.mpr ⟨?_, hrest.distinct⟩, ?_⟩
        · intro e' he'
          rcases hmem e' he' with rfl | hes
          · rw [deadline_createEntry hb]
            simpa using hnlt
          · exact (List.pairwise_cons.mp h.sorted).1 e' hes
        · intro e' he'
          rcases hmem e' he' with rfl | hes
          · exact hne
          · exact (List.pairwise_cons.mp h.distinct).1 e' hes
        · intro e' he'
          rcases List.mem_cons.mp he' with rfl | hes
          · exact h.punctual _ List.mem_cons_self
          · exact hrest.punctual e' hes

end Order

end BundleProcessor
