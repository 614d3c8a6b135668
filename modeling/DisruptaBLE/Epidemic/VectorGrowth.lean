import DisruptaBLE.Epidemic.SummaryVector

/-!
# How summary vectors grow

Entries are added one by one, and a vector that is full doubles its capacity, which is
a 32-bit number.  Doubling leads from a capacity `c` to `c * 2 ^ j` as long as that is
below 2³² and the memory is granted.  There are three ways in which adding `n` entries
ends: it succeeds (`addEntries_eq_some_iff`); a request for memory is refused, or the
capacity is zero and stays so; or the capacity wraps around, and the entries are copied
behind the end of the new memory (`addEntries_eq_error_iff`).

`summary_vector_growth_iff` applies this to the vectors of the three constructors.
-/

namespace EpidemicRouter

open PtrHeap

/-! ## Definitions -/

/-- Several calls of `summary_vector_add_entry_by_copy`, up to the first that fails. -/
def addEntries (malloc : Nat → Bool) :
    List SvEntry → SummaryVector → Except Fault (Option SummaryVector)
  | [], sv => .ok (some sv)
  | entry :: entries, sv => do
      match ← summaryVectorAddEntryByCopy malloc sv entry with
      | none => pure none
      | some sv => addEntries malloc entries sv

/-- Served requests lead from a capacity to one with room for a number of entries. -/
def GrowthServed (malloc : Nat → Bool) (capacity count : Nat) : Prop :=
  ∃ j, count ≤ capacity * 2 ^ j ∧ capacity * 2 ^ j < 2 ^ 32 ∧
    ∀ i < j, malloc (capacity * 2 ^ (i + 1) * svEntrySize) = true

/-- Served requests lead to a capacity that is too small for a number of entries and
wraps around when it is doubled. -/
def GrowthOverruns (malloc : Nat → Bool) (capacity count : Nat) : Prop :=
  ∃ j, capacity * 2 ^ j < count ∧ 2 ^ 31 ≤ capacity * 2 ^ j ∧ capacity * 2 ^ j < 2 ^ 32 ∧
    (∀ i < j, malloc (capacity * 2 ^ (i + 1) * svEntrySize) = true) ∧
    malloc ((capacity * 2 ^ (j + 1) - 2 ^ 32) * svEntrySize) = true

/-- Every call succeeds: the vector holds the previous entries and the new one behind them,
and there is room for them in its memory. -/
def AddsSucceed (malloc : Nat → Bool) : List SvEntry → SummaryVector → Prop
  | [], _ => True
  | entry :: entries, sv => ∃ sv', summaryVectorAddEntryByCopy malloc sv entry = .ok (some sv') ∧
      sv'.entries = sv.entries ++ [entry] ∧ sv'.entries.length ≤ sv'.capacity.toNat ∧
      AddsSucceed malloc entries sv'

/-! ## One entry -/

section Steps

variable {malloc : Nat → Bool}

/-- What one addition can do. -/
inductive AddResult (malloc : Nat → Bool) (sv : SummaryVector) (entry : SvEntry) :
    Except Fault (Option SummaryVector) → Prop where
  | stored {sv' : SummaryVector} : sv.entries.length < sv.capacity.toNat →
      sv'.entries = sv.entries ++ [entry] → sv'.capacity = sv.capacity →
      AddResult malloc sv entry (.ok (some sv'))
  | grown {sv' : SummaryVector} : sv.entries.length = sv.capacity.toNat →
      0 < sv.capacity.toNat → sv.capacity.toNat * 2 < 2 ^ 32 →
      malloc (sv.capacity.toNat * 2 * svEntrySize) = true →
      sv'.entries = sv.entries ++ [entry] → sv'.capacity.toNat = sv.capacity.toNat * 2 →
      AddResult malloc sv entry (.ok (some sv'))
  | refused : sv.entries.length = sv.capacity.toNat →
      (sv.capacity.toNat = 0 ∨
        malloc (sv.capacity.toNat * 2 % 2 ^ 32 * svEntrySize) = false) →
      AddResult malloc sv entry (.ok none)
  | overrun : sv.entries.length = sv.capacity.toNat → 2 ^ 31 ≤ sv.capacity.toNat →
      malloc ((sv.capacity.toNat * 2 - 2 ^ 32) * svEntrySize) = true →
      AddResult malloc sv entry (.error .dangling)

theorem toNat_double (capacity : UInt32) :
    (capacity * 2).toNat = capacity.toNat * 2 % 2 ^ 32 := UInt32.toNat_mul _ _

/-- **One addition.** -/
theorem summaryVectorAddEntryByCopy_result (malloc : Nat → Bool) (sv : SummaryVector)
    (entry : SvEntry) :
    AddResult malloc sv entry (summaryVectorAddEntryByCopy malloc sv entry) := by
  have hcap : sv.capacity.toNat < 2 ^ 32 := sv.capacity.toNat_lt
  have hfits := sv.fits
  unfold summaryVectorAddEntryByCopy
  by_cases hfull : sv.length = sv.capacity
  · rw [if_pos hfull]
    rw [SummaryVector.length_eq_iff] at hfull
    unfold summaryVectorIncreaseSize
    dsimp only
    cases hmem : malloc ((sv.capacity * 2).toNat * svEntrySize) with
    | false =>
        rw [toNat_double] at hmem
        have hnone : ¬ sv.entries.length < sv.capacity.toNat := by omega
        rw [Bool.not_false, if_pos rfl, ok_bind, dif_neg hnone]
        exact .refused hfull (Or.inr hmem)
    | true =>
        rw [toNat_double] at hmem
        rw [Bool.not_true, if_neg (by decide)]
        by_cases hwrap : 2 ^ 31 ≤ sv.capacity.toNat
        · have hmod : sv.capacity.toNat * 2 % 2 ^ 32 = sv.capacity.toNat * 2 - 2 ^ 32 := by omega
          have hshort : ¬ sv.entries.length ≤ (sv.capacity * 2).toNat := by
            rw [toNat_double]
            omega
          rw [hmod] at hmem
          rw [dif_neg hshort]
          exact .overrun hfull hwrap hmem
        · have hmod : sv.capacity.toNat * 2 % 2 ^ 32 = sv.capacity.toNat * 2 := by omega
          have hroom : sv.entries.length ≤ (sv.capacity * 2).toNat := by
            rw [toNat_double]
            omega
          rw [hmod] at hmem
          rw [dif_pos hroom, ok_bind]
          dsimp only
          by_cases hzero : sv.capacity.toNat = 0
          · have hnone : ¬ sv.entries.length < (sv.capacity * 2).toNat := by
              rw [toNat_double]
              omega
            rw [dif_neg hnone]
            exact .refused hfull (Or.inl hzero)
          · have hspace : sv.entries.length < (sv.capacity * 2).toNat := by
              rw [toNat_double]
              omega
            rw [dif_pos hspace]
            apply AddResult.grown hfull (by omega) (by omega) hmem
            · rfl
            · exact (toNat_double _).trans hmod
  · rw [if_neg hfull]
    rw [SummaryVector.length_eq_iff] at hfull
    have hspace : sv.entries.length < sv.capacity.toNat := by omega
    change AddResult malloc sv entry (if room : sv.entries.length < sv.capacity.toNat then _ else _)
    rw [dif_pos hspace]
    exact .stored hspace rfl rfl

end Steps

/-! ## Doubling -/

section Doubling

variable {malloc : Nat → Bool} {c n : Nat}

theorem double_pow (c j : Nat) : c * 2 * 2 ^ j = c * 2 ^ (j + 1) := by
  rw [Nat.pow_succ', Nat.mul_assoc]

theorem growthServed_of_le (hn : n ≤ c) (hc : c < 2 ^ 32) : GrowthServed malloc c n :=
  ⟨0, by simpa using hn, by simpa using hc, by simp⟩

/-- A capacity that is too small is doubled first. -/
theorem growthServed_double (hsmall : c < n) : GrowthServed malloc c n ↔
    malloc (c * 2 * svEntrySize) = true ∧ GrowthServed malloc (c * 2) n := by
  constructor
  · rintro ⟨j, hroom, hlt, hserved⟩
    cases j with
    | zero =>
        rw [Nat.pow_zero, Nat.mul_one] at hroom
        omega
    | succ j =>
        refine ⟨hserved 0 (by omega), j, ?_, ?_, ?_⟩
        · rwa [double_pow]
        · rwa [double_pow]
        · intro i hi
          rw [double_pow]
          exact hserved (i + 1) (by omega)
  · rintro ⟨hfirst, j, hroom, hlt, hserved⟩
    rw [double_pow] at hroom hlt
    refine ⟨j + 1, hroom, hlt, ?_⟩
    intro i hi
    cases i with
    | zero => exact hfirst
    | succ i =>
        rw [← double_pow]
        exact hserved i (by omega)

/-- The capacity that is too small is reached on the way. -/
theorem growthOverruns_double (hsmall : c * 2 < 2 ^ 32) : GrowthOverruns malloc c n ↔
    malloc (c * 2 * svEntrySize) = true ∧ GrowthOverruns malloc (c * 2) n := by
  constructor
  · rintro ⟨j, hless, hhigh, hlt, hserved, hlast⟩
    cases j with
    | zero =>
        rw [Nat.pow_zero, Nat.mul_one] at hhigh
        omega
    | succ j =>
        refine ⟨hserved 0 (by omega), j, ?_, ?_, ?_, ?_, ?_⟩
        · rwa [double_pow]
        · rwa [double_pow]
        · rwa [double_pow]
        · intro i hi
          rw [double_pow]
          exact hserved (i + 1) (by omega)
        · rwa [double_pow]
  · rintro ⟨hfirst, j, hless, hhigh, hlt, hserved, hlast⟩
    rw [double_pow] at hless hhigh hlt hlast
    refine ⟨j + 1, hless, hhigh, hlt, ?_, hlast⟩
    intro i hi
    cases i with
    | zero => exact hfirst
    | succ i =>
        rw [← double_pow]
        exact hserved i (by omega)

/-- A capacity of zero stays zero. -/
theorem not_growthServed_zero (hn : 0 < n) : ¬ GrowthServed malloc 0 n := by
  rintro ⟨j, hroom, -⟩
  rw [Nat.zero_mul] at hroom
  omega

theorem not_growthOverruns_zero : ¬ GrowthOverruns malloc 0 n := by
  rintro ⟨j, -, hhigh, -⟩
  rw [Nat.zero_mul] at hhigh
  omega

theorem not_growthOverruns_of_le (hn : n ≤ c) : ¬ GrowthOverruns malloc c n := by
  rintro ⟨j, hless, -⟩
  have hpow : c ≤ c * 2 ^ j := Nat.le_mul_of_pos_right _ (Nat.two_pow_pos j)
  omega

/-- Where the capacity wraps around, there is no room. -/
theorem not_growthServed_high (hc : 2 ^ 31 ≤ c) (hsmall : c < n) : ¬ GrowthServed malloc c n := by
  rintro ⟨j, hroom, hlt, -⟩
  cases j with
  | zero =>
      rw [Nat.pow_zero, Nat.mul_one] at hroom
      omega
  | succ j =>
      have hpow : c * 2 ≤ c * 2 ^ (j + 1) := by
        rw [← double_pow]
        exact Nat.le_mul_of_pos_right _ (Nat.two_pow_pos j)
      omega

theorem growthOverruns_high (hc : 2 ^ 31 ≤ c) (hlt : c < 2 ^ 32) (hsmall : c < n) :
    GrowthOverruns malloc c n ↔ malloc ((c * 2 - 2 ^ 32) * svEntrySize) = true := by
  constructor
  · rintro ⟨j, -, -, hlt', -, hlast⟩
    cases j with
    | zero =>
        rw [Nat.zero_add, Nat.pow_one] at hlast
        exact hlast
    | succ j =>
        have hpow : c * 2 ≤ c * 2 ^ (j + 1) := by
          rw [← double_pow]
          exact Nat.le_mul_of_pos_right _ (Nat.two_pow_pos j)
        have hover : 2 ^ 32 ≤ c * 2 ^ (j + 1) := Nat.le_trans (by omega) hpow
        exact absurd hlt' (Nat.not_lt.mpr hover)
  · intro hlast
    refine ⟨0, ?_, ?_, ?_, fun i hi => absurd hi (Nat.not_lt_zero i), ?_⟩
    · rwa [Nat.pow_zero, Nat.mul_one]
    · rwa [Nat.pow_zero, Nat.mul_one]
    · rwa [Nat.pow_zero, Nat.mul_one]
    · rwa [Nat.zero_add, Nat.pow_one]

end Doubling

/-! ## Several entries -/

section Runs

variable {malloc : Nat → Bool}

/-- A step of `addEntries`. -/
theorem addEntries_cons (entry : SvEntry) (entries : List SvEntry) (sv : SummaryVector) :
    addEntries malloc (entry :: entries) sv =
      (summaryVectorAddEntryByCopy malloc sv entry >>= fun
        | none => pure none
        | some sv => addEntries malloc entries sv) := rfl

theorem addEntries_entries {entries : List SvEntry} {sv sv' : SummaryVector}
    (h : addEntries malloc entries sv = .ok (some sv')) :
    sv'.entries = sv.entries ++ entries := by
  induction entries generalizing sv with
  | nil =>
      obtain rfl := Option.some.inj (Except.ok.inj h)
      exact (List.append_nil _).symm
  | cons entry entries ih =>
      rw [addEntries_cons] at h
      have hadd := summaryVectorAddEntryByCopy_result malloc sv entry
      generalize summaryVectorAddEntryByCopy malloc sv entry = result at hadd h
      cases hadd with
      | stored _ hentries _ =>
          have htail := ih h
          rw [htail, hentries, List.append_assoc, List.singleton_append]
      | grown _ _ _ _ hentries _ =>
          have htail := ih h
          rw [htail, hentries, List.append_assoc, List.singleton_append]
      | refused _ _ => cases h
      | overrun _ _ _ => cases h

/-- **Success**: there is room after served requests. -/
theorem addEntries_eq_some_iff (entries : List SvEntry) (sv : SummaryVector) :
    (∃ sv', addEntries malloc entries sv = .ok (some sv')) ↔
      GrowthServed malloc sv.capacity.toNat (sv.entries.length + entries.length) := by
  induction entries generalizing sv with
  | nil => exact iff_of_true ⟨sv, rfl⟩ (growthServed_of_le sv.fits sv.capacity.toNat_lt)
  | cons entry entries ih =>
      have hcount : ∀ sv' : SummaryVector, sv'.entries = sv.entries ++ [entry] →
          sv'.entries.length + entries.length = sv.entries.length + (entries.length + 1) := by
        intro sv' hsv'
        rw [hsv', List.length_append, List.length_singleton]
        omega
      rw [addEntries_cons, List.length_cons]
      have hadd := summaryVectorAddEntryByCopy_result malloc sv entry
      generalize summaryVectorAddEntryByCopy malloc sv entry = result at hadd
      cases hadd with
      | @stored sv' _ hentries hsame =>
          rw [ok_bind]
          dsimp only
          rw [ih sv', hcount sv' hentries, hsame]
      | @grown sv' hfull _ _ hmem hentries hdouble =>
          rw [ok_bind]
          dsimp only
          have hless : sv.capacity.toNat < sv.entries.length + (entries.length + 1) := by omega
          rw [ih sv', hcount sv' hentries, hdouble, growthServed_double hless]
          exact (and_iff_right hmem).symm
      | refused hfull hwhy =>
          have hnone : ¬ ∃ sv', (Except.ok (ε := Fault) (none (α := SummaryVector)) >>= fun
              | none => pure none
              | some sv => addEntries malloc entries sv) = .ok (some sv') := by
            rintro ⟨_, h⟩
            cases h
          apply iff_of_false hnone
          intro hserved
          rcases hwhy with hzero | hrefused
          · rw [hzero] at hserved
            exact not_growthServed_zero (by omega) hserved
          · have hsmall : sv.capacity.toNat < sv.entries.length + (entries.length + 1) := by omega
            by_cases hwrap : 2 ^ 31 ≤ sv.capacity.toNat
            · exact not_growthServed_high hwrap hsmall hserved
            · have hmod : sv.capacity.toNat * 2 % 2 ^ 32 = sv.capacity.toNat * 2 := by omega
              rw [hmod] at hrefused
              rw [growthServed_double hsmall, hrefused] at hserved
              exact absurd hserved.1 (by decide)
      | overrun hfull hwrap _ =>
          apply iff_of_false
          · rintro ⟨_, h⟩
            cases h
          · exact not_growthServed_high hwrap (by omega)

/-- **Overrun**: the capacity wraps around after served requests. -/
theorem addEntries_eq_error_iff (entries : List SvEntry) (sv : SummaryVector) :
    (∃ f, addEntries malloc entries sv = .error f) ↔
      GrowthOverruns malloc sv.capacity.toNat (sv.entries.length + entries.length) := by
  induction entries generalizing sv with
  | nil =>
      apply iff_of_false
      · rintro ⟨_, h⟩
        cases h
      · exact not_growthOverruns_of_le sv.fits
  | cons entry entries ih =>
      have hcount : ∀ sv' : SummaryVector, sv'.entries = sv.entries ++ [entry] →
          sv'.entries.length + entries.length = sv.entries.length + (entries.length + 1) := by
        intro sv' hsv'
        rw [hsv', List.length_append, List.length_singleton]
        omega
      rw [addEntries_cons, List.length_cons]
      have hadd := summaryVectorAddEntryByCopy_result malloc sv entry
      generalize summaryVectorAddEntryByCopy malloc sv entry = result at hadd
      cases hadd with
      | @stored sv' _ hentries hsame =>
          rw [ok_bind]
          dsimp only
          rw [ih sv', hcount sv' hentries, hsame]
      | @grown sv' hfull _ hsmall hmem hentries hdouble =>
          rw [ok_bind]
          dsimp only
          rw [ih sv', hcount sv' hentries, hdouble, growthOverruns_double hsmall]
          exact (and_iff_right hmem).symm
      | refused hfull hwhy =>
          apply iff_of_false
          · rintro ⟨_, h⟩
            cases h
          intro hover
          rcases hwhy with hzero | hrefused
          · rw [hzero] at hover
            exact not_growthOverruns_zero hover
          · have hcap : sv.capacity.toNat < 2 ^ 32 := sv.capacity.toNat_lt
            have hless : sv.capacity.toNat < sv.entries.length + (entries.length + 1) := by omega
            by_cases hwrap : 2 ^ 31 ≤ sv.capacity.toNat
            · have hmod : sv.capacity.toNat * 2 % 2 ^ 32 = sv.capacity.toNat * 2 - 2 ^ 32 := by
                omega
              rw [hmod] at hrefused
              rw [growthOverruns_high hwrap hcap hless, hrefused] at hover
              cases hover
            · have hmod : sv.capacity.toNat * 2 % 2 ^ 32 = sv.capacity.toNat * 2 := by omega
              rw [hmod] at hrefused
              rw [growthOverruns_double (by omega), hrefused] at hover
              exact absurd hover.1 (by decide)
      | overrun hfull hwrap hmem =>
          apply iff_of_true
          · exact ⟨.dangling, rfl⟩
          · exact (growthOverruns_high hwrap sv.capacity.toNat_lt (by omega)).mpr hmem

/-- Every call succeeds if and only if the sequence of calls does. -/
theorem addsSucceed_iff (entries : List SvEntry) (sv : SummaryVector) :
    AddsSucceed malloc entries sv ↔
      GrowthServed malloc sv.capacity.toNat (sv.entries.length + entries.length) := by
  rw [← addEntries_eq_some_iff]
  induction entries generalizing sv with
  | nil => exact iff_of_true trivial ⟨sv, rfl⟩
  | cons entry entries ih =>
      rw [addEntries_cons]
      constructor
      · rintro ⟨sv', hadd, -, -, hrest⟩
        rw [hadd, ok_bind]
        exact (ih sv').mp hrest
      · intro hrun
        have hadd := summaryVectorAddEntryByCopy_result malloc sv entry
        cases hresult : summaryVectorAddEntryByCopy malloc sv entry with
        | error f =>
            rw [hresult] at hrun
            obtain ⟨_, h⟩ := hrun
            cases h
        | ok added =>
            rw [hresult] at hrun hadd
            cases hadd with
            | @stored sv' _ hentries _ =>
                exact ⟨sv', hresult, hentries, sv'.fits, (ih sv').mpr hrun⟩
            | @grown sv' _ _ _ _ hentries _ =>
                exact ⟨sv', hresult, hentries, sv'.fits, (ih sv').mpr hrun⟩
            | refused _ _ =>
                obtain ⟨_, h⟩ := hrun
                cases h

end Runs

/-! ## The constructors -/

/-- A capacity can be doubled until there is room for a number of entries, and stays a
32-bit number. -/
def Doubles (capacity count : Nat) : Prop :=
  ∃ j, count ≤ capacity * 2 ^ j ∧ capacity * 2 ^ j < 2 ^ 32

section Constructors

variable {malloc : Nat → Bool}

theorem growthServed_iff (hmem : ∀ n, malloc n = true) (c n : Nat) :
    GrowthServed malloc c n ↔ Doubles c n := by
  constructor
  · rintro ⟨j, hroom, hlt, -⟩
    exact ⟨j, hroom, hlt⟩
  · rintro ⟨j, hroom, hlt⟩
    exact ⟨j, hroom, hlt, fun i _ => hmem _⟩

/-- From the default capacity, 2³¹ entries are reached. -/
theorem doubles_default (n : Nat) : Doubles defaultCapacity.toNat n ↔ n ≤ 2 ^ 31 := by
  have height : defaultCapacity.toNat = 2 ^ 3 := rfl
  rw [height]
  constructor
  · rintro ⟨j, hroom, hlt⟩
    rw [← Nat.pow_add] at hroom hlt
    have hj : 3 + j < 32 := (Nat.pow_lt_pow_iff_right (by decide)).mp hlt
    exact Nat.le_trans hroom (Nat.pow_le_pow_right (by decide) (by omega))
  · intro hn
    exact ⟨28, hn, by decide⟩

theorem summaryVectorCreateWithCapacity_some {c : UInt32} {sv : SummaryVector}
    (h : summaryVectorCreateWithCapacity malloc c = some sv) :
    sv.entries = [] ∧ sv.capacity = c := by
  unfold summaryVectorCreateWithCapacity at h
  split at h
  · obtain rfl := Option.some.inj h
    exact ⟨rfl, rfl⟩
  · cases h

end Constructors

/-- **When a vector grows.**  With memory for every request, all additions to a vector of
`summary_vector_create` succeed if and only if these are at most 2³¹; to one with another initial
capacity, in particular that of a received vector, if and only if doubling leads from there to
enough room below 2³². -/
theorem summary_vector_growth_iff (malloc : Nat → Bool) (hmem : ∀ n, malloc n = true)
    (entries : List SvEntry) :
    (∀ sv, summaryVectorCreate malloc = some sv →
      (AddsSucceed malloc entries sv ↔ entries.length ≤ 2 ^ 31)) ∧
    (∀ (capacity : UInt32) (sv : SummaryVector),
      summaryVectorCreateWithCapacity malloc capacity = some sv →
      (AddsSucceed malloc entries sv ↔ Doubles capacity.toNat entries.length)) ∧
    ∀ (src : List UInt8) (numBytes : Nat) (sv : SummaryVector),
      summaryVectorCreateFromMemory malloc src numBytes = .ok (some sv) →
      (AddsSucceed malloc entries sv ↔ Doubles (numBytes / svEntrySize)
        (numBytes / svEntrySize + entries.length)) := by
  refine ⟨?_, ?_, ?_⟩
  · intro sv hsv
    obtain ⟨hempty, hcap⟩ := summaryVectorCreateWithCapacity_some hsv
    rw [addsSucceed_iff, growthServed_iff hmem, hempty, hcap, doubles_default, List.length_nil,
      Nat.zero_add]
  · intro capacity sv hsv
    obtain ⟨hempty, hcap⟩ := summaryVectorCreateWithCapacity_some hsv
    rw [addsSucceed_iff, growthServed_iff hmem, hempty, hcap, List.length_nil, Nat.zero_add]
  · intro src numBytes sv hsv
    have hread := summaryVectorCreateFromMemory_result malloc src numBytes
    rw [hsv] at hread
    cases hread with
    | read _ _ _ _ _ hlen hcap _ => rw [addsSucceed_iff, growthServed_iff hmem, hlen, hcap]

/-- Twenty entries fit into a vector with memory for three at first. -/
theorem summary_vector_growth_twenty :
    ∃ sv, summaryVectorCreateWithCapacity (fun _ => true) 3 = some sv ∧
      AddsSucceed (fun _ => true) (List.replicate 20 7) sv :=
  ⟨_, rfl, ((summary_vector_growth_iff (fun _ => true) (fun _ => rfl)
    (List.replicate 20 7)).2.1 3 _ rfl).mpr ⟨3, by decide, by decide⟩⟩

/-- Nothing can be added to a vector that was read from an empty message. -/
theorem empty_vector_does_not_grow :
    ∃ sv, summaryVectorCreateFromMemory (fun _ => true) [] 0 = .ok (some sv) ∧
      summaryVectorAddEntryByCopy (fun _ => true) sv 7 = .ok none ∧
      ¬ AddsSucceed (fun _ => true) [7] sv := by
  refine ⟨_, rfl, rfl, ?_⟩
  rintro ⟨sv', hadd, -⟩
  cases hadd

end EpidemicRouter
