import DisruptaBLE.Lib.LittleEndian
import DisruptaBLE.Epidemic.Router
import DisruptaBLE.Processor.State

/-!
# Summary vectors

`components/routing/epidemic/summary_vector.c`: vectors of hashes that double
their capacity when they are full, their bytes in a message, and the difference
of two of them.

The router handles summary vectors as lists.  `summaryVectorAddEntryByCopy_spec` and
`summaryVectorCreateDiff_spec` justify this: with memory, and as long as a vector has
fewer than 2³¹ entries, the vector holds exactly the entries that were added, in their
order, and the difference is a filter.  `summaryVectorCreateFromMemory_bytes` reads a
vector back from a message.

Requests for memory are answered by a function of their size.  An access outside
of what was allocated is a fault.
-/

namespace EpidemicRouter

open PtrHeap LittleEndian

/-! ## Definitions -/

/-- `struct summary_vector`: the entries up to `length`, in memory for `capacity` of them. -/
structure SummaryVector where
  entries : List SvEntry
  capacity : UInt32
  fits : entries.length ≤ capacity.toNat

/-- `length`. -/
def SummaryVector.length (sv : SummaryVector) : UInt32 := UInt32.ofNat sv.entries.length

/-- `sizeof(struct summary_vector_entry)`. -/
def svEntrySize : Nat := 8

/-- `sizeof(struct summary_vector)`, with pointers of eight bytes. -/
def summaryVectorSize : Nat := 16

/-- `SUMMARY_VECTOR_DEFAULT_CAPACITY`. -/
def defaultCapacity : UInt32 := 8

/-- `summary_vector_create_with_capacity`. -/
def summaryVectorCreateWithCapacity (malloc : Nat → Bool) (capacity : UInt32) :
    Option SummaryVector :=
  if malloc summaryVectorSize && malloc (capacity.toNat * svEntrySize) then
    some ⟨[], capacity, Nat.zero_le _⟩
  else none

/-- `summary_vector_create`. -/
def summaryVectorCreate (malloc : Nat → Bool) : Option SummaryVector :=
  summaryVectorCreateWithCapacity malloc defaultCapacity

/-- `summary_vector_increase_size`: the new capacity is a 32-bit number, and the entries are copied
whether or not it has room for them. -/
def summaryVectorIncreaseSize (malloc : Nat → Bool) (sv : SummaryVector) :
    Except Fault SummaryVector :=
  let capacity := sv.capacity * 2
  if !malloc (capacity.toNat * svEntrySize) then .ok sv
  else if fits : sv.entries.length ≤ capacity.toNat then .ok { sv with capacity, fits }
  else .error .dangling

/-- `summary_vector_add_entry_by_copy`: nothing is returned for `UD3TN_FAIL`. -/
def summaryVectorAddEntryByCopy (malloc : Nat → Bool) (sv : SummaryVector) (entry : SvEntry) :
    Except Fault (Option SummaryVector) := do
  let sv ← if sv.length = sv.capacity then summaryVectorIncreaseSize malloc sv else pure sv
  if room : sv.entries.length < sv.capacity.toNat then
    pure (some
      { sv with
        entries := sv.entries ++ [entry]
        fits := by rw [List.length_append, List.length_singleton]; exact room })
  else pure none

/-- The loop of `summary_vector_contains_entry`, whose index is an `int`. -/
def containsLoop (entry : SvEntry) : Nat → List SvEntry → Except Fault Bool
  | _, [] => .ok false
  | i, e :: es =>
      if entry = e then .ok true
      else if i = 2 ^ 31 - 1 then .error .dangling
      else containsLoop entry (i + 1) es

/-- `summary_vector_contains_entry`. -/
def summaryVectorContainsEntry (sv : SummaryVector) (entry : SvEntry) : Except Fault Bool :=
  containsLoop entry 0 sv.entries

/-- The loop of `summary_vector_create_diff`. -/
def diffLoop (malloc : Nat → Bool) (b : SummaryVector) :
    List SvEntry → SummaryVector → Except Fault (Option SummaryVector)
  | [], diff => .ok (some diff)
  | entry :: entries, diff => do
      if ← summaryVectorContainsEntry b entry then diffLoop malloc b entries diff
      else
        match ← summaryVectorAddEntryByCopy malloc diff entry with
        | none => pure none
        | some diff => diffLoop malloc b entries diff

/-- `summary_vector_create_diff`. -/
def summaryVectorCreateDiff (malloc : Nat → Bool) (a b : SummaryVector) :
    Except Fault (Option SummaryVector) :=
  match summaryVectorCreate malloc with
  | none => .ok none
  | some diff => diffLoop malloc b a.entries diff

/-- The bytes of an entry. -/
def entryBytes (entry : SvEntry) : List UInt8 := leBytes svEntrySize entry.toNat

/-- The entry with these bytes. -/
def entryOfBytes (bytes : List UInt8) : SvEntry := UInt64.ofNat (leValue bytes)

/-- `summary_vector_copy_to_memory`: the bytes that are written. -/
def summaryVectorCopyToMemory (sv : SummaryVector) : List UInt8 := sv.entries.flatMap entryBytes

/-- `summary_vector_create_from_memory`.  The buffer `src` may be shorter than `numBytes`, and
`numBytes` may be more than the entries of the vector take. -/
def summaryVectorCreateFromMemory (malloc : Nat → Bool) (src : List UInt8) (numBytes : Nat) :
    Except Fault (Option SummaryVector) :=
  if numBytes % svEntrySize ≠ 0 then .ok none
  else
    let capacity := UInt32.ofNat (numBytes / svEntrySize)
    if !(malloc summaryVectorSize && malloc (capacity.toNat * svEntrySize)) then .ok none
    else if src.length < numBytes then .error .dangling
    else
      let entries := (words svEntrySize (numBytes / svEntrySize) src).map entryOfBytes
      if fits : entries.length ≤ capacity.toNat then .ok (some ⟨entries, capacity, fits⟩)
      else .error .dangling

/-- `summary_vector_entry_from_bundle_unique_identifier`, with `hal_hash`: the first bytes of the
hash of the identity, in which the source is hashed already. -/
def svEntryFromUniqueIdentifier (halHash : List UInt8 → List UInt8)
    (id : BundleProcessor.UniqueIdentifier) : SvEntry :=
  let source := id.source.map fun c => UInt8.ofNat c.toNat
  entryOfBytes ((halHash (halHash source ++ leBytes 8 id.creationTimestampMs.toNat
    ++ leBytes 8 id.sequenceNumber.toNat ++ leBytes 4 id.fragmentOffset.toNat
    ++ leBytes 4 id.payloadLength.toNat ++ leBytes 1 id.protocolVersion.toNat)).take svEntrySize)

/-! ## Growth -/

section Growth

variable {malloc : Nat → Bool} {sv : SummaryVector}

theorem SummaryVector.length_eq_iff :
    sv.length = sv.capacity ↔ sv.entries.length = sv.capacity.toNat := by
  have hlt : sv.entries.length < 2 ^ 32 :=
    Nat.lt_of_le_of_lt sv.fits sv.capacity.toNat_lt
  have hvalue : (UInt32.ofNat sv.entries.length).toNat = sv.entries.length :=
    UInt32.toNat_ofNat_of_lt hlt
  rw [← UInt32.toNat_inj, SummaryVector.length, hvalue]

theorem summaryVectorCreate_spec (hmem : ∀ n, malloc n = true) :
    ∃ sv, summaryVectorCreate malloc = some sv ∧ sv.entries = [] ∧ 0 < sv.capacity.toNat := by
  unfold summaryVectorCreate summaryVectorCreateWithCapacity
  rw [hmem, hmem]
  exact ⟨_, rfl, rfl, by decide⟩

theorem summaryVectorIncreaseSize_spec (hmem : ∀ n, malloc n = true)
    (hfull : sv.entries.length = sv.capacity.toNat) (hlen : sv.entries.length < 2 ^ 31) :
    ∃ sv', summaryVectorIncreaseSize malloc sv = .ok sv' ∧ sv'.entries = sv.entries ∧
      sv'.capacity.toNat = 2 * sv.capacity.toNat := by
  have hdouble : (sv.capacity * 2).toNat = 2 * sv.capacity.toNat := by
    have htwo : (2 : UInt32).toNat = 2 := rfl
    rw [UInt32.toNat_mul, htwo, Nat.mod_eq_of_lt (by omega), Nat.mul_comm]
  have hroom : sv.entries.length ≤ (sv.capacity * 2).toNat := by omega
  unfold summaryVectorIncreaseSize
  dsimp only
  rw [hmem, dif_pos hroom]
  exact ⟨_, rfl, rfl, hdouble⟩

/-- **With memory, an entry is appended.** -/
theorem summaryVectorAddEntryByCopy_spec (hmem : ∀ n, malloc n = true) (sv : SummaryVector)
    (hlen : sv.entries.length < 2 ^ 31) (hcap : 0 < sv.capacity.toNat) (entry : SvEntry) :
    ∃ sv', summaryVectorAddEntryByCopy malloc sv entry = .ok (some sv') ∧
      sv'.entries = sv.entries ++ [entry] ∧ 0 < sv'.capacity.toNat := by
  unfold summaryVectorAddEntryByCopy
  by_cases hfull : sv.length = sv.capacity
  · rw [if_pos hfull]
    rw [SummaryVector.length_eq_iff] at hfull
    obtain ⟨grown, hgrown, hentries, hcapacity⟩ := summaryVectorIncreaseSize_spec hmem hfull hlen
    rw [hgrown, ok_bind]
    dsimp only
    have hroom : grown.entries.length < grown.capacity.toNat := by
      rw [hentries, hcapacity]
      omega
    rw [dif_pos hroom]
    refine ⟨_, rfl, ?_, ?_⟩
    · exact congrArg (· ++ [entry]) hentries
    · change 0 < grown.capacity.toNat
      omega
  · rw [if_neg hfull]
    rw [SummaryVector.length_eq_iff] at hfull
    have hfits := sv.fits
    have hroom : sv.entries.length < sv.capacity.toNat := by omega
    change ∃ sv', (if room : sv.entries.length < sv.capacity.toNat then _ else _) = _ ∧ _
    rw [dif_pos hroom]
    exact ⟨_, rfl, rfl, hcap⟩

end Growth

/-! ## Differences -/

section Difference

variable {malloc : Nat → Bool} {a b sv : SummaryVector}

theorem containsLoop_spec (entry : SvEntry) (i : Nat) (es : List SvEntry)
    (hlen : i + es.length < 2 ^ 31) : containsLoop entry i es = .ok (es.contains entry) := by
  induction es generalizing i with
  | nil => rfl
  | cons e es ih =>
      rw [List.length_cons] at hlen
      unfold containsLoop
      by_cases he : entry = e
      · subst he
        simp
      · rw [if_neg he, if_neg (by omega), ih (i + 1) (by omega)]
        have hbeq : (entry == e) = false := by simpa using he
        rw [List.contains_cons, hbeq, Bool.false_or]

/-- **Membership**, for vectors whose indices fit an `int`. -/
theorem summaryVectorContainsEntry_spec (hlen : sv.entries.length < 2 ^ 31) (entry : SvEntry) :
    summaryVectorContainsEntry sv entry = .ok (sv.entries.contains entry) := by
  apply containsLoop_spec
  omega

theorem diffLoop_spec (hmem : ∀ n, malloc n = true) (hb : b.entries.length < 2 ^ 31)
    (entries : List SvEntry) (diff : SummaryVector)
    (hlen : diff.entries.length + entries.length ≤ 2 ^ 31) (hcap : 0 < diff.capacity.toNat) :
    ∃ sv, diffLoop malloc b entries diff = .ok (some sv) ∧
      sv.entries = diff.entries ++ entries.filter fun e => !b.entries.contains e := by
  induction entries generalizing diff with
  | nil => exact ⟨diff, rfl, by simp⟩
  | cons e es ih =>
      rw [List.length_cons] at hlen
      unfold diffLoop
      rw [summaryVectorContainsEntry_spec hb, ok_bind]
      cases hmember : b.entries.contains e with
      | true =>
          rw [if_pos rfl, List.filter_cons_of_neg (by rw [hmember]; decide)]
          exact ih diff (by omega) hcap
      | false =>
          rw [if_neg (by decide), List.filter_cons_of_pos (by rw [hmember]; decide)]
          obtain ⟨next, hnext, hentries, hcap'⟩ :=
            summaryVectorAddEntryByCopy_spec hmem diff (by omega) hcap e
          rw [hnext, ok_bind]
          have hlen' : next.entries.length + es.length ≤ 2 ^ 31 := by
            rw [hentries, List.length_append, List.length_singleton]
            omega
          obtain ⟨sv, hsv, hfilter⟩ := ih next hlen' hcap'
          refine ⟨sv, hsv, ?_⟩
          rw [hfilter, hentries, List.append_assoc, List.singleton_append]

/-- **The difference is a filter**: order and multiplicity of the first vector stay. -/
theorem summaryVectorCreateDiff_spec (hmem : ∀ n, malloc n = true)
    (ha : a.entries.length < 2 ^ 31) (hb : b.entries.length < 2 ^ 31) :
    ∃ sv, summaryVectorCreateDiff malloc a b = .ok (some sv) ∧
      sv.entries = a.entries.filter fun e => !b.entries.contains e := by
  obtain ⟨diff, hdiff, hempty, hcap⟩ := summaryVectorCreate_spec hmem
  unfold summaryVectorCreateDiff
  rw [hdiff]
  have hlen : diff.entries.length + a.entries.length ≤ 2 ^ 31 := by
    rw [hempty, List.length_nil]
    omega
  obtain ⟨sv, hsv, hfilter⟩ := diffLoop_spec hmem hb a.entries diff hlen hcap
  refine ⟨sv, hsv, ?_⟩
  rw [hfilter, hempty, List.nil_append]

end Difference

/-! ## Bytes -/

section Bytes

variable {malloc : Nat → Bool}

theorem length_entryBytes (entry : SvEntry) : (entryBytes entry).length = svEntrySize :=
  length_leBytes _ _

theorem entryOfBytes_entryBytes (entry : SvEntry) : entryOfBytes (entryBytes entry) = entry := by
  have hwidth : 256 ^ svEntrySize = 2 ^ 64 := by decide
  unfold entryOfBytes entryBytes
  rw [leValue_leBytes, hwidth, Nat.mod_eq_of_lt entry.toNat_lt, UInt64.ofNat_toNat]

theorem entryBytes_entryOfBytes {bytes : List UInt8} (h : bytes.length = svEntrySize) :
    entryBytes (entryOfBytes bytes) = bytes := by
  have hwidth : 256 ^ svEntrySize = 2 ^ 64 := by decide
  have hlt : leValue bytes < 2 ^ 64 := by
    rw [← hwidth, ← h]
    exact leValue_lt bytes
  unfold entryOfBytes entryBytes
  rw [UInt64.toNat_ofNat', Nat.mod_eq_of_lt hlt, ← h]
  exact leBytes_leValue bytes

/-- How reading a vector from memory ends. -/
inductive ReadResult (malloc : Nat → Bool) (src : List UInt8) (numBytes : Nat) :
    Except Fault (Option SummaryVector) → Prop where
  | rejected : numBytes % svEntrySize ≠ 0 ∨ malloc summaryVectorSize = false ∨
      malloc ((UInt32.ofNat (numBytes / svEntrySize)).toNat * svEntrySize) = false →
      ReadResult malloc src numBytes (.ok none)
  | read {sv : SummaryVector} : numBytes % svEntrySize = 0 → malloc summaryVectorSize = true →
      malloc ((UInt32.ofNat (numBytes / svEntrySize)).toNat * svEntrySize) = true →
      numBytes ≤ src.length → numBytes / svEntrySize < 2 ^ 32 →
      sv.entries.length = numBytes / svEntrySize →
      sv.capacity.toNat = numBytes / svEntrySize →
      summaryVectorCopyToMemory sv = src.take numBytes →
      ReadResult malloc src numBytes (.ok (some sv))
  | overrun : numBytes % svEntrySize = 0 → malloc summaryVectorSize = true →
      malloc ((UInt32.ofNat (numBytes / svEntrySize)).toNat * svEntrySize) = true →
      (src.length < numBytes ∨ 2 ^ 32 ≤ numBytes / svEntrySize) →
      ReadResult malloc src numBytes (.error .dangling)

/-- **Reading a vector**: it is rejected, or its entries are the first bytes, or memory beyond the
source or beyond the entries is accessed. -/
theorem summaryVectorCreateFromMemory_result (malloc : Nat → Bool) (src : List UInt8)
    (numBytes : Nat) :
    ReadResult malloc src numBytes (summaryVectorCreateFromMemory malloc src numBytes) := by
  unfold summaryVectorCreateFromMemory
  by_cases hdiv : numBytes % svEntrySize = 0
  · rw [if_neg (not_not.mpr hdiv)]
    dsimp only
    cases hvector : malloc summaryVectorSize with
    | false =>
        rw [Bool.false_and, Bool.not_false, if_pos rfl]
        exact .rejected (Or.inr (Or.inl hvector))
    | true =>
        cases hmem : malloc ((UInt32.ofNat (numBytes / svEntrySize)).toNat * svEntrySize) with
        | false =>
            rw [Bool.and_false, Bool.not_false, if_pos rfl]
            exact .rejected (Or.inr (Or.inr hmem))
        | true =>
            rw [Bool.and_true, Bool.not_true, if_neg (by decide)]
            by_cases hshort : src.length < numBytes
            · rw [if_pos hshort]
              exact .overrun hdiv hvector hmem (Or.inl hshort)
            · rw [if_neg hshort]
              have hlen : ((words svEntrySize (numBytes / svEntrySize) src).map
                  entryOfBytes).length = numBytes / svEntrySize := by
                rw [List.length_map, length_words]
              by_cases hwide : 2 ^ 32 ≤ numBytes / svEntrySize
              · have hover : ¬ ((words svEntrySize (numBytes / svEntrySize) src).map
                    entryOfBytes).length ≤ (UInt32.ofNat (numBytes / svEntrySize)).toNat := by
                  rw [hlen]
                  have hcap := (UInt32.ofNat (numBytes / svEntrySize)).toNat_lt
                  omega
                rw [dif_neg hover]
                exact .overrun hdiv hvector hmem (Or.inr hwide)
              · have hcap : (UInt32.ofNat (numBytes / svEntrySize)).toNat =
                    numBytes / svEntrySize := UInt32.toNat_ofNat_of_lt (Nat.not_le.mp hwide)
                have hfits : ((words svEntrySize (numBytes / svEntrySize) src).map
                    entryOfBytes).length ≤ (UInt32.ofNat (numBytes / svEntrySize)).toNat := by
                  rw [hlen, hcap]
                rw [dif_pos hfits]
                apply ReadResult.read hdiv hvector hmem (Nat.not_lt.mp hshort)
                  (Nat.not_le.mp hwide) hlen hcap
                have hbytes : numBytes / svEntrySize * svEntrySize = numBytes :=
                  Nat.div_mul_cancel (Nat.dvd_of_mod_eq_zero hdiv)
                have hback : ∀ bytes ∈ words svEntrySize (numBytes / svEntrySize) src,
                    entryBytes (entryOfBytes bytes) = bytes := by
                  intro bytes hmem
                  apply entryBytes_entryOfBytes
                  exact length_of_mem_words (by omega) bytes hmem
                have hentries : ((words svEntrySize (numBytes / svEntrySize) src).map
                    entryOfBytes).flatMap entryBytes = src.take numBytes := by
                  rw [List.flatMap_map, List.flatMap_congr hback, List.flatMap_id', flatten_words,
                    hbytes]
                exact hentries
  · rw [if_pos hdiv]
    exact .rejected (Or.inl hdiv)

/-- **A vector is read back from its bytes**, whatever follows them. -/
theorem summaryVectorCreateFromMemory_bytes (hmem : ∀ n, malloc n = true) (sv : SummaryVector)
    (rest : List UInt8) :
    ∃ sv', summaryVectorCreateFromMemory malloc (summaryVectorCopyToMemory sv ++ rest)
        (sv.entries.length * svEntrySize) = .ok (some sv') ∧ sv'.entries = sv.entries := by
  have hlt : sv.entries.length < 2 ^ 32 :=
    Nat.lt_of_le_of_lt sv.fits sv.capacity.toNat_lt
  have hcount : sv.entries.length * svEntrySize / svEntrySize = sv.entries.length :=
    Nat.mul_div_cancel _ (by decide)
  have hwords : words svEntrySize sv.entries.length (summaryVectorCopyToMemory sv ++ rest) =
      sv.entries.map entryBytes := words_flatMap length_entryBytes sv.entries rest
  have hback : (sv.entries.map entryBytes).map entryOfBytes = sv.entries := by
    rw [List.map_map]
    conv => rhs; rw [← List.map_id sv.entries]
    exact List.map_congr_left fun e _ => entryOfBytes_entryBytes e
  have hsize : ¬(summaryVectorCopyToMemory sv ++ rest).length <
      sv.entries.length * svEntrySize := by
    rw [List.length_append, summaryVectorCopyToMemory, length_flatMap_words length_entryBytes]
    omega
  unfold summaryVectorCreateFromMemory
  rw [if_neg (by rw [Nat.mul_mod_left]; decide)]
  simp only [hcount, hmem, hwords, hback]
  rw [if_neg (by decide), if_neg hsize]
  have hfits : sv.entries.length ≤ (UInt32.ofNat sv.entries.length).toNat :=
    Nat.le_of_eq (UInt32.toNat_ofNat_of_lt hlt).symm
  rw [dif_pos hfits]
  exact ⟨_, rfl, rfl⟩

end Bytes

end EpidemicRouter
