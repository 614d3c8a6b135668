import DisruptaBLE.Epidemic.RoutingAgent
import DisruptaBLE.Lib.RingBuffer

/-!
# The filter of neighbours

`components/cla/zephyr/nb_sv_ch_filter.c`: the advertisements of a neighbour are ignored
while the characteristic of its summary vector is in a ring of characteristics.  The
ring starts with the characteristic of `summary_vector_characteristic_init` in every
slot, and all slots are searched.

That characteristic is also the one of an empty summary vector, and of every other one
in which the entries cancel out.  So the filter holds the values that were inserted
last if and only if they are asked for another value, or enough values were added to
overwrite all slots (`neighbour_filter_sound_iff`).
-/

namespace NbSvChFilter

open EpidemicRouter

/-! ## Definitions -/

/-- `struct summary_vector_characteristic`, with `SUMMARY_VECTOR_CHARACTERISTIC_HASH_LENGTH`. -/
def Characteristic (chLength : Nat) := { hash : List UInt8 // hash.length = chLength }

instance (chLength : Nat) : DecidableEq (Characteristic chLength) :=
  inferInstanceAs (DecidableEq { hash : List UInt8 // hash.length = chLength })

variable {chLength : Nat}

/-- `summary_vector_characteristic_init`. -/
def summaryVectorCharacteristicInit : Characteristic chLength :=
  ⟨List.replicate chLength 0, List.length_replicate⟩

/-- `summary_vector_characteristic_calculate`. -/
def characteristicOf (sv : SummaryVector) : Characteristic chLength :=
  ⟨summaryVectorCharacteristicCalculate chLength sv, length_characteristic chLength sv⟩

/-- The characteristics and `nb_sv_filter_next_index`. -/
abbrev Filter (chLength : Nat) := RingBuffer (Characteristic chLength)

/-- `nb_sv_ch_filter_init`; the size is `CONFIG_NB_SV_FILTER_SIZE`. -/
def nbSvChFilterInit (size : Nat) (h : 0 < size) : Filter chLength :=
  RingBuffer.filled summaryVectorCharacteristicInit size h

/-- `filter_add`. -/
def filterAdd (filter : Filter chLength) (svCh : Characteristic chLength) : Filter chLength :=
  filter.push svCh

/-- `filter_contains`, with `summary_vector_characteristic_equals`. -/
def filterContains (filter : Filter chLength) (svCh : Characteristic chLength) : Bool :=
  filter.slots.any (svCh = ·)

/-- `nb_sv_ch_filter_add`. -/
def nbSvChFilterAdd (filter : Filter chLength) (svCh : Characteristic chLength) :
    Filter chLength :=
  if filterContains filter svCh then filter else filterAdd filter svCh

/-- `nb_sv_ch_filter_contains`. -/
def nbSvChFilterContains (filter : Filter chLength) (svCh : Characteristic chLength) : Bool :=
  filterContains filter svCh

/-! ## Runs -/

/-- A filter, and the values that were inserted into it so far. -/
structure History (chLength : Nat) where
  filter : Filter chLength
  inserted : List (Characteristic chLength)

/-- One addition. -/
def History.add (h : History chLength) (svCh : Characteristic chLength) : History chLength where
  filter := nbSvChFilterAdd h.filter svCh
  inserted := if filterContains h.filter svCh then h.inserted else h.inserted ++ [svCh]

/-- The additions after `nb_sv_ch_filter_init`. -/
def filterRun (size : Nat) (h : 0 < size) (added : List (Characteristic chLength)) :
    History chLength :=
  added.foldl History.add ⟨nbSvChFilterInit size h, []⟩

/-- The answers of the filter are right for a value: it holds the value if and only if that
is among the last ones that were inserted, which are distinct, and it never holds a
value that was not added. -/
structure SoundFor (size : Nat) (h : 0 < size) (added : List (Characteristic chLength))
    (svCh : Characteristic chLength) : Prop where
  recent : nbSvChFilterContains (filterRun size h added).filter svCh = true ↔
    svCh ∈ (filterRun size h added).inserted.rtake size
  distinct : ((filterRun size h added).inserted.rtake size).Nodup
  added : svCh ∉ added → nbSvChFilterContains (filterRun size h added).filter svCh = false

/-- Enough values were added to overwrite all slots: as many different ones as there are
slots, other than the initial one. -/
def EnoughAdded (size : Nat) (added : List (Characteristic chLength)) : Prop :=
  ∃ svChs : List (Characteristic chLength), svChs.Nodup ∧ svChs.length = size ∧
    ∀ svCh ∈ svChs, svCh ∈ added ∧ svCh ≠ summaryVectorCharacteristicInit

section Runs

variable {size : Nat} {h : 0 < size} {added : List (Characteristic chLength)}
  {svCh : Characteristic chLength}

theorem filterContains_iff {filter : Filter chLength} :
    filterContains filter svCh = true ↔ svCh ∈ filter.slots := by
  unfold filterContains
  simp

theorem filterRun_concat (added : List (Characteristic chLength))
    (svCh : Characteristic chLength) :
    filterRun size h (added ++ [svCh]) = (filterRun size h added).add svCh := List.foldl_concat ..

/-- What is known of a filter and its history. -/
structure FilterInv (size : Nat) (h : 0 < size) (added : List (Characteristic chLength))
    (s : History chLength) : Prop where
  /-- the ring is written with what is inserted -/
  written : s.filter = (nbSvChFilterInit size h).pushes s.inserted
  subset : ∀ x ∈ s.inserted, x ∈ added
  recent : (s.inserted.rtake size).Nodup
  /-- until the ring is full, nothing is forgotten -/
  early : (s.inserted.take size).Nodup ∧
    summaryVectorCharacteristicInit ∉ s.inserted.take size
  complete : s.inserted.length ≤ size → ∀ x ∈ added,
    x ≠ summaryVectorCharacteristicInit → x ∈ s.inserted

theorem FilterInv.mem_of_full {s : History chLength} (hs : FilterInv size h added s)
    (hfull : size ≤ s.inserted.length) (x : Characteristic chLength) :
    x ∈ s.filter.slots ↔ x ∈ s.inserted.rtake size := by
  rw [hs.written]
  exact RingBuffer.mem_pushes_of_full hfull x

theorem FilterInv.mem_of_room {s : History chLength} (hs : FilterInv size h added s)
    (hroom : s.inserted.length < size) (x : Characteristic chLength) :
    x ∈ s.filter.slots ↔ x = summaryVectorCharacteristicInit ∨ x ∈ s.inserted := by
  rw [hs.written]
  exact RingBuffer.mem_pushes_of_room hroom x

/-- What was inserted last is in the ring. -/
theorem FilterInv.mem_of_recent {s : History chLength} (hs : FilterInv size h added s)
    {x : Characteristic chLength} (hx : x ∈ s.inserted.rtake size) : x ∈ s.filter.slots := by
  by_cases hfull : size ≤ s.inserted.length
  · exact (hs.mem_of_full hfull x).mpr hx
  · apply (hs.mem_of_room (Nat.not_le.mp hfull) x).mpr
    exact Or.inr (List.mem_of_mem_drop hx)

theorem filterInv_init :
    FilterInv size h [] (⟨nbSvChFilterInit size h, []⟩ : History chLength) where
  written := rfl
  subset := by simp
  recent := by simp
  early := by simp
  complete := by simp

/-- A value that the filter holds is not inserted again. -/
theorem FilterInv.add_held {s : History chLength} (hs : FilterInv size h added s)
    (hheld : svCh ∈ s.filter.slots) : FilterInv size h (added ++ [svCh]) (s.add svCh) := by
  have hsame : s.add svCh = s := by
    unfold History.add nbSvChFilterAdd
    rw [if_pos (filterContains_iff.mpr hheld), if_pos (filterContains_iff.mpr hheld)]
  rw [hsame]
  refine ⟨hs.written, fun x hx => List.mem_append_left _ (hs.subset x hx), hs.recent, hs.early, ?_⟩
  intro hle x hx hne
  rcases List.mem_append.mp hx with hx | hx
  · exact hs.complete hle x hx hne
  · obtain rfl := List.mem_singleton.mp hx
    by_cases hfull : size ≤ s.inserted.length
    · exact List.mem_of_mem_drop ((hs.mem_of_full hfull x).mp hheld)
    · exact ((hs.mem_of_room (Nat.not_le.mp hfull) x).mp hheld).resolve_left hne

/-- Any other value is inserted. -/
theorem FilterInv.add_new {s : History chLength} (hs : FilterInv size h added s)
    (hnew : svCh ∉ s.filter.slots) : FilterInv size h (added ++ [svCh]) (s.add svCh) := by
  have hinserted : s.add svCh = ⟨s.filter.push svCh, s.inserted ++ [svCh]⟩ := by
    unfold History.add nbSvChFilterAdd filterAdd
    have hnot : ¬ filterContains s.filter svCh = true := fun hc => hnew (filterContains_iff.mp hc)
    rw [if_neg hnot, if_neg hnot]
  rw [hinserted]
  constructor
  · rw [RingBuffer.pushes_concat, ← hs.written]
  · intro x hx
    rcases List.mem_append.mp hx with hx | hx
    · exact List.mem_append_left _ (hs.subset x hx)
    · exact List.mem_append_right _ hx
  · obtain ⟨k, rfl⟩ : ∃ k, size = k + 1 := ⟨size - 1, by omega⟩
    -- one value leaves the last ones when another one comes
    have hfewer : (s.inserted.rtake k).Sublist (s.inserted.rtake (k + 1)) := by
      unfold List.rtake
      apply List.drop_sublist_drop_left
      omega
    rw [List.rtake_concat_succ]
    apply List.nodup_append.mpr
    refine ⟨hs.recent.sublist hfewer, List.nodup_singleton _, ?_⟩
    intro x hx y hy
    obtain rfl := List.mem_singleton.mp hy
    rintro rfl
    exact hnew (hs.mem_of_recent (hfewer.subset hx))
  · by_cases hfull : size ≤ s.inserted.length
    · rw [List.take_append_of_le_length hfull]
      exact hs.early
    · have hroom : s.inserted.length < size := Nat.not_le.mp hfull
      have hmem := fun hx => hnew ((hs.mem_of_room hroom svCh).mpr hx)
      obtain ⟨hnodup, hzero⟩ := hs.early
      rw [List.take_of_length_le hroom.le] at hnodup hzero
      rw [List.take_of_length_le (by rw [List.length_append, List.length_singleton]; exact hroom)]
      constructor
      · apply List.nodup_append.mpr
        refine ⟨hnodup, List.nodup_singleton _, ?_⟩
        intro x hx y hy
        obtain rfl := List.mem_singleton.mp hy
        rintro rfl
        exact hmem (Or.inr hx)
      · intro hx
        rcases List.mem_append.mp hx with hx | hx
        · exact hzero hx
        · exact hmem (Or.inl (List.mem_singleton.mp hx).symm)
  · intro hle x hx hne
    rw [List.length_append, List.length_singleton] at hle
    rcases List.mem_append.mp hx with hx | hx
    · exact List.mem_append_left _ (hs.complete (by omega) x hx hne)
    · exact List.mem_append_right _ hx

/-- The invariant holds after any additions. -/
theorem filterInv_run (size : Nat) (h : 0 < size) (added : List (Characteristic chLength)) :
    FilterInv size h added (filterRun size h added) := by
  induction added using List.reverseRecOn with
  | nil => exact filterInv_init
  | append_singleton added svCh ih =>
      rw [filterRun_concat]
      by_cases hheld : svCh ∈ (filterRun size h added).filter.slots
      · exact ih.add_held hheld
      · exact ih.add_new hheld

/-- As many values were inserted as there are slots if and only if enough were added. -/
theorem enoughAdded_iff : EnoughAdded size added ↔
    size ≤ (filterRun size h added).inserted.length := by
  have hs := filterInv_run size h added
  constructor
  · rintro ⟨svChs, hnodup, hlen, hall⟩
    by_contra hfew
    have hle : (filterRun size h added).inserted.length ≤ size := by omega
    have hsub : svChs ⊆ (filterRun size h added).inserted := by
      intro x hx
      exact hs.complete hle x (hall x hx).1 (hall x hx).2
    have hcount := (hnodup.subperm hsub).length_le
    omega
  · intro hfull
    refine ⟨(filterRun size h added).inserted.take size, hs.early.1, ?_, ?_⟩
    · rw [List.length_take, Nat.min_eq_left hfull]
    · intro x hx
      refine ⟨hs.subset x (List.mem_of_mem_take hx), ?_⟩
      rintro rfl
      exact hs.early.2 hx

end Runs

/-! ## Answers -/

/-- **When the filter is right.**  For a filter of any size, any additions and any value, the filter
holds the value exactly when it is among the last ones inserted, and no value that was never added,
if and only if the value is not the initial one or enough values were added. -/
theorem neighbour_filter_sound_iff (size : Nat) (h : 0 < size)
    (added : List (Characteristic chLength)) (svCh : Characteristic chLength) :
    SoundFor size h added svCh ↔
      svCh ≠ summaryVectorCharacteristicInit ∨ EnoughAdded size added := by
  have hs := filterInv_run size h added
  rw [enoughAdded_iff (h := h)]
  constructor
  · intro hsound
    by_contra hnot
    obtain ⟨rfl, hfew⟩ : svCh = summaryVectorCharacteristicInit ∧
        (filterRun size h added).inserted.length < size := by
      simpa [not_or] using hnot
    -- an unused slot answers for the initial value
    have hheld : nbSvChFilterContains (filterRun size h added).filter
        summaryVectorCharacteristicInit = true :=
      filterContains_iff.mpr ((hs.mem_of_room hfew _).mpr (Or.inl rfl))
    have hmem := List.mem_of_mem_drop (hsound.recent.mp hheld)
    have hearly := hs.early.2
    rw [List.take_of_length_le hfew.le] at hearly
    exact hearly hmem
  · intro hright
    have hiff : svCh ∈ (filterRun size h added).filter.slots ↔
        svCh ∈ (filterRun size h added).inserted.rtake size := by
      by_cases hfull : size ≤ (filterRun size h added).inserted.length
      · exact hs.mem_of_full hfull svCh
      · have hroom := Nat.not_le.mp hfull
        have hne := hright.resolve_right hfull
        have hall : (filterRun size h added).inserted.rtake size =
            (filterRun size h added).inserted := by
          unfold List.rtake
          rw [Nat.sub_eq_zero_of_le hroom.le, List.drop_zero]
        rw [hs.mem_of_room hroom, hall]
        simp [hne]
    refine ⟨filterContains_iff.trans hiff, hs.recent, fun hnot => ?_⟩
    rw [← Bool.not_eq_true]
    intro hheld
    have hmem := List.mem_of_mem_drop (hiff.mp (filterContains_iff.mp hheld))
    exact hnot (hs.subset svCh hmem)

/-- A characteristic of one byte. -/
def mark (byte : UInt8) : Characteristic 1 := ⟨[byte], rfl⟩

/-- Of three values in a ring for two, the first one is forgotten. -/
theorem neighbour_filter_sound_marks :
    SoundFor 2 (by decide) [mark 1, mark 2, mark 2, mark 3] (mark 2) ∧
      SoundFor 2 (by decide) [mark 1, mark 2, mark 2, mark 3] (mark 0) :=
  ⟨(neighbour_filter_sound_iff 2 (by decide) _ _).mpr (Or.inl (by decide)),
    (neighbour_filter_sound_iff 2 (by decide) _ _).mpr
      (Or.inr ⟨[mark 1, mark 2], by decide, rfl, by decide⟩)⟩

/-- The summary vector of a node without bundles. -/
def emptyVector : SummaryVector := ⟨[], defaultCapacity, Nat.zero_le _⟩

/-- A neighbour without bundles is ignored, although nothing was added. -/
theorem empty_neighbour_ignored :
    nbSvChFilterContains (nbSvChFilterInit 4 (by decide))
        (characteristicOf emptyVector : Characteristic 8) = true ∧
      ¬ SoundFor 4 (by decide) [] (characteristicOf emptyVector : Characteristic 8) := by
  refine ⟨by decide, fun hsound => ?_⟩
  have hnone := hsound.added (by simp)
  exact absurd hnone (by decide)

end NbSvChFilter
