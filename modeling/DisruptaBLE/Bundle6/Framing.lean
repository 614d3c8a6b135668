import DisruptaBLE.Bundle6.Serializer

/-!
# The length of a bundle of version 6

A bundle is announced with the size of `bundle6_get_serialized_size`, which also recalculates the
length of the primary block, and is then written by `bundle6_serialize`.

The size counts the fields of a fragment twice, flags that are not written, and each reference at
its own place in the dictionary, and the length of the primary block, which contains itself, is
taken from the stored one.  `serialized_size_iff` says when what is written is nevertheless as
long as announced.
-/

namespace Bundle6

open BundleProcessor

/-! ## The primary block -/

/-- The bytes of a fragment's fields. -/
def fragmentSize (b : Bundle) : Nat :=
  if b.isFragmented then sdnvGetSizeU32 b.fragmentOffset + sdnvGetSizeU32 b.totalAduLength else 0

/-- The length of the dictionary. -/
def dictLength (b : Bundle) : Nat := (bundle6CalculateDict b).2.2

/-- The bytes of the primary block but for the flags, its own length, and the length of the
dictionary. -/
def plainFieldsSize (b : Bundle) : Nat :=
  1 + refsSize (bundle6CalculateDict b).1
    + sdnvGetSizeU64 (b.creationTimestampMs / 1000)
    + sdnvGetSizeU64 b.sequenceNumber
    + sdnvGetSizeU64 (b.lifetimeMs / 1000)
    + dictLength b
    + fragmentSize b

/-- The length of the primary block, for the length that is stored. -/
def headerLength (b : Bundle) : Nat :=
  plainFieldsSize b + sdnvGetSizeU32 b.procFlags + sdnvGetSizeU32 (UInt32.ofNat (dictLength b))
    + sdnvGetSizeU32 b.primaryBlockLength.toUInt32

theorem sizeU32_ofU16 (x : UInt16) : sdnvGetSizeU32 x.toUInt32 = sdnvGetSizeU16 x := by
  rw [sdnvGetSizeU32_eq, sdnvGetSizeU16_eq, UInt16.toNat_toUInt32]

/-- What is stored is the length without what does not fit. -/
theorem recalculate_eq (b : Bundle) :
    bundle6RecalculateHeaderLength b = UInt16.ofNat (headerLength b) := by
  unfold bundle6RecalculateHeaderLength headerLength plainFieldsSize dictLength
    fragmentSize refsSize
  generalize bundle6CalculateDict b = dict
  obtain ⟨primary, references, total⟩ := dict
  simp only [sizeU32_ofU16]
  congr 1
  omega

/-! ## The blocks -/

/-- The bytes of the references of some blocks, each counted at its own place in the dictionary. -/
def countedRefsSize : List EidInfo → List Block → Nat
  | _, [] => 0
  | references, x :: xs =>
      if hasRefField x then
        refsSize (references.take x.eidRefs.length) +
          countedRefsSize (references.drop x.eidRefs.length) xs
      else countedRefsSize references xs

/-- The bytes of the references of some blocks, as they are written. -/
def writtenRefsSize (references : List EidInfo) (blocks : List Block) : Nat :=
  (blocks.map fun x =>
    if hasRefField x then refsSize (references.take x.eidRefs.length) else 0).sum

/-- The bytes of a block without its references. -/
def bareBlockSize (x : Block) : Nat :=
  1 + sdnvGetSizeU32 x.flags + sdnvGetSizeU32 x.data.length
    + (if hasRefField x then sdnvGetSizeU16 (UInt16.ofNat x.eidRefs.length) else 0)
    + x.data.bytes.length

/-- What is counted of all blocks. -/
theorem serializedBlocksSize_eq (payloadReached : Bool) (references : List EidInfo)
    (blocks : List Block) :
    serializedBlocksSize false true true payloadReached references blocks =
      (blocks.map bareBlockSize).sum + countedRefsSize references blocks := by
  induction blocks generalizing payloadReached references with
  | nil => rfl
  | cons x xs ih =>
      have hwanted : (hasFlag x.flags blockFlagMustBeReplicated || (true && !payloadReached) ||
          (true && payloadReached)) = true := by
        cases payloadReached <;> simp
      rw [serializedBlocksSize, hwanted, ih, countedRefsSize, List.map_cons, List.sum_cons,
        bareBlockSize, hasRefField, refsSize]
      cases hflag : hasFlag x.flags blockFlagHasEidRefField
      · simp
        omega
      · simp
        omega

theorem length_serializeBlock (references : List EidInfo) (x : Block) :
    (serializeBlock references x).length =
      bareBlockSize x +
        if hasRefField x then refsSize (references.take x.eidRefs.length) else 0 := by
  unfold serializeBlock bareBlockSize
  cases hflag : hasRefField x
  · simp only [Bool.false_eq_true, if_false, List.length_append, List.length_cons, List.length_nil,
      length_sdnvWriteU32]
    omega
  · simp only [if_true, List.length_append, List.length_cons, length_sdnvWriteU32,
      length_sdnvWriteU16, length_writeEidInfos]
    omega

/-- What is written of all blocks. -/
theorem length_serializeBlocks (references : List EidInfo) (blocks : List Block) :
    (blocks.flatMap (serializeBlock references)).length =
      (blocks.map bareBlockSize).sum + writtenRefsSize references blocks := by
  induction blocks with
  | nil => rfl
  | cons x xs ih =>
      have hwritten : writtenRefsSize references (x :: xs) =
          (if hasRefField x then refsSize (references.take x.eidRefs.length) else 0) +
            writtenRefsSize references xs := by
        rw [writtenRefsSize, List.map_cons, List.sum_cons, writtenRefsSize]
      rw [List.flatMap_cons, List.length_append, ih, length_serializeBlock, hwritten, List.map_cons,
        List.sum_cons]
      omega

/-! ## Offsets in a dictionary of less than 64 KiB -/

/-- The bytes of a reference. -/
def refSize (info : EidInfo) : Nat :=
  sdnvGetSizeU16 info.dictSchemeOffset + sdnvGetSizeU16 info.dictSspOffset

theorem calculateEidInfos_le (start : Nat) (eids : List CStr) :
    start ≤ (calculateEidInfos start eids).2 := by
  rw [calculateEidInfos_length]
  exact Nat.le_add_right _ _

theorem offsets_ge {start : Nat} {eids : List CStr}
    (hlt : (calculateEidInfos start eids).2 < 2 ^ 16) :
    ∀ info ∈ (calculateEidInfos start eids).1,
      start ≤ info.dictSchemeOffset.toNat ∧ start ≤ info.dictSspOffset.toNat := by
  induction eids generalizing start with
  | nil => simp [calculateEidInfos]
  | cons eid eids ih =>
      rw [calculateEidInfos] at hlt ⊢
      dsimp only at hlt ⊢
      have hend := calculateEidInfos_le (start + (analyzeEid eid).1 + (analyzeEid eid).2 + 2) eids
      rw [List.forall_mem_cons]
      refine ⟨?_, fun info hinfo => ?_⟩
      · simp only [UInt16.toNat_ofNat']
        rw [Nat.mod_eq_of_lt (by omega), Nat.mod_eq_of_lt (by omega)]
        omega
      · have hge := ih hlt info hinfo
        omega

/-- **A later reference** takes no fewer bytes. -/
theorem refSize_sorted {start : Nat} {eids : List CStr}
    (hlt : (calculateEidInfos start eids).2 < 2 ^ 16) :
    (calculateEidInfos start eids).1.Pairwise fun i j => refSize i ≤ refSize j := by
  induction eids generalizing start with
  | nil => exact List.Pairwise.nil
  | cons eid eids ih =>
      rw [calculateEidInfos] at hlt ⊢
      dsimp only at hlt ⊢
      have hend := calculateEidInfos_le (start + (analyzeEid eid).1 + (analyzeEid eid).2 + 2) eids
      refine List.Pairwise.cons (fun info hinfo => ?_) (ih hlt)
      have hge := offsets_ge hlt info hinfo
      have hmono {x y : UInt16} (hle : x.toNat ≤ y.toNat) : sdnvGetSizeU16 x ≤
          sdnvGetSizeU16 y := by
        rw [sdnvGetSizeU16_eq, sdnvGetSizeU16_eq]
        exact Base128.count_mono hle
      apply Nat.add_le_add
      · apply hmono
        rw [UInt16.toNat_ofNat', Nat.mod_eq_of_lt (by omega)]
        omega
      · apply hmono
        rw [UInt16.toNat_ofNat', Nat.mod_eq_of_lt (by omega)]
        omega

theorem refsSize_take_le_tail {info : EidInfo} {infos : List EidInfo} {k : Nat}
    (hsorted : (info :: infos).Pairwise fun i j => refSize i ≤ refSize j)
    (hk : k ≤ infos.length) :
    refsSize ((info :: infos).take k) ≤ refsSize (infos.take k) := by
  induction k generalizing info infos with
  | zero => exact Nat.le_refl 0
  | succ k ih =>
      cases infos with
      | nil => simp at hk
      | cons next infos =>
          have hle := List.rel_of_pairwise_cons hsorted
              (List.mem_cons_self (a := next) (l := infos))
          have hrest := ih hsorted.of_cons (Nat.le_of_succ_le_succ hk)
          rw [List.take_succ_cons, List.take_succ_cons]
          exact Nat.add_le_add hle hrest

/-- References further on take no fewer bytes. -/
theorem refsSize_take_le_drop {infos : List EidInfo} {k d : Nat}
    (hsorted : infos.Pairwise fun i j => refSize i ≤ refSize j) (hk : d + k ≤ infos.length) :
    refsSize (infos.take k) ≤ refsSize ((infos.drop d).take k) := by
  induction d generalizing infos with
  | zero => exact Nat.le_refl _
  | succ d ih =>
      cases infos with
      | nil => simp
      | cons info infos =>
          rw [List.length_cons] at hk
          calc refsSize ((info :: infos).take k)
              ≤ refsSize (infos.take k) := refsSize_take_le_tail hsorted (by omega)
            _ ≤ refsSize ((infos.drop d).take k) := ih hsorted.of_cons (by omega)

/-- **What is written of references** is no more than what is counted. -/
theorem writtenRefsSize_le {references : List EidInfo} {blocks : List Block} {d : Nat}
    (hsorted : references.Pairwise fun i j => refSize i ≤ refSize j)
    (hlength : d + (blocks.map fun x => x.eidRefs.length).sum ≤ references.length) :
    writtenRefsSize references blocks ≤ countedRefsSize (references.drop d) blocks := by
  induction blocks generalizing d with
  | nil => exact Nat.le_refl 0
  | cons x xs ih =>
      rw [List.map_cons, List.sum_cons] at hlength
      have hwritten : writtenRefsSize references (x :: xs) =
          (if hasRefField x then refsSize (references.take x.eidRefs.length) else 0) +
            writtenRefsSize references xs := by
        rw [writtenRefsSize, List.map_cons, List.sum_cons, writtenRefsSize]
      rw [hwritten, countedRefsSize]
      split
      · rw [List.drop_drop]
        exact Nat.add_le_add (refsSize_take_le_drop hsorted (by omega)) (ih (by omega))
      · rw [Nat.zero_add]
        exact ih (by omega)

theorem length_references (b : Bundle) :
    (bundle6CalculateDict b).2.1.length = (b.blocks.map fun x => x.eidRefs.length).sum := by
  have hinfos (start : Nat) (eids : List CStr) :
      (calculateEidInfos start eids).1.length = eids.length := by
    induction eids generalizing start with
    | nil => rfl
    | cons eid eids ih =>
        rw [calculateEidInfos]
        dsimp only
        rw [List.length_cons, ih, List.length_cons]
  unfold bundle6CalculateDict
  dsimp only
  rw [hinfos, List.length_flatMap]

theorem references_le (b : Bundle) (hlt : dictLength b < 2 ^ 16) :
    writtenRefsSize (bundle6CalculateDict b).2.1 b.blocks ≤
      countedRefsSize (bundle6CalculateDict b).2.1 b.blocks := by
  have hsorted : (bundle6CalculateDict b).2.1.Pairwise fun i j => refSize i ≤ refSize j :=
    refSize_sorted hlt
  have hle := @writtenRefsSize_le _ b.blocks 0 hsorted (by rw [length_references, Nat.zero_add])
  rwa [List.drop_zero] at hle

/-! ## References without a field -/

theorem descriptorFits_iff (b : Bundle) :
    descriptorFits b = true ↔ ∀ x ∈ b.blocks, hasRefField x = false → x.eidRefs = [] := by
  unfold descriptorFits
  rw [decide_eq_true_eq]
  generalize b.blocks = blocks
  have hle (xs : List Block) :
      (xs.map fun x => if hasRefField x then x.eidRefs.length else 0).sum ≤
        (xs.map fun x => x.eidRefs.length).sum := by
    induction xs with
    | nil => exact Nat.le_refl 0
    | cons x xs ih =>
        simp only [List.map_cons, List.sum_cons]
        split <;> omega
  induction blocks with
  | nil => simp
  | cons x xs ih =>
      have hrest := hle xs
      rw [List.forall_mem_cons]
      refine Iff.trans ?_ (and_congr_right fun _ => ih)
      simp only [List.map_cons, List.sum_cons]
      cases hflag : hasRefField x with
      | true => simp
      | false =>
          simp only [Bool.false_eq_true, if_false, forall_true_left, ← List.length_eq_zero_iff]
          omega

/-! ## The frame -/

/-- What is written is as long as was announced, and the recalculated length of the primary block
stays when it is recalculated once more. -/
def Framed (b : Bundle) : Prop :=
  (∃ written, bundle6Serialize (bundle6GetSerializedSize b).2 = some written ∧
    written.length = (bundle6GetSerializedSize b).1) ∧
  bundle6RecalculateHeaderLength (bundle6GetSerializedSize b).2 =
    (bundle6GetSerializedSize b).2.primaryBlockLength

/-- The conditions on a bundle whose primary block has any length: what is counted and not written
makes up for what the field of sixteen bits loses of that length. -/
structure Matching (b : Bundle) : Prop where
  references : ∀ x ∈ b.blocks, hasRefField x = false → x.eidRefs = []
  width : Base128.count (headerLength b % 2 ^ 16) = Base128.count b.primaryBlockLength.toNat
  sizes : headerLength b / 2 ^ 16 * 2 ^ 16
      + writtenRefsSize (bundle6CalculateDict b).2.1 b.blocks
      + sdnvGetSizeU32 (b.procFlags &&& rfc5050Flags)
      + sdnvGetSizeU16 (UInt16.ofNat (dictLength b)) =
    countedRefsSize (bundle6CalculateDict b).2.1 b.blocks
      + sdnvGetSizeU32 b.procFlags
      + sdnvGetSizeU32 (UInt32.ofNat (dictLength b))
      + fragmentSize b

theorem length_serializePrimaryRest (b : Bundle) :
    (serializePrimaryRest b).length + 1 =
      plainFieldsSize b + sdnvGetSizeU16 (UInt16.ofNat (dictLength b)) := by
  have hdict := length_dictionary b
  unfold serializePrimaryRest plainFieldsSize dictLength fragmentSize
  generalize bundle6CalculateDict b = dict at hdict ⊢
  obtain ⟨primary, references, total⟩ := dict
  simp only at hdict
  simp only [List.length_append, length_writeEidInfos, length_sdnvWriteU64, length_sdnvWriteU16,
    ← hdict]
  cases b.isFragmented
  · simp only [Bool.false_eq_true, if_false, List.length_nil]
    omega
  · simp only [if_true, List.length_append, length_sdnvWriteU32]
    omega

/-- The bundle with its length recalculated. -/
theorem sized_eq (b : Bundle) :
    (bundle6GetSerializedSize b).2 =
      { b with primaryBlockLength := UInt16.ofNat (headerLength b) } := by
  rw [← recalculate_eq]
  rfl

theorem size_eq (b : Bundle) :
    (bundle6GetSerializedSize b).1 = headerLength b % 2 ^ 16 + (b.blocks.map bareBlockSize).sum
      + countedRefsSize (bundle6CalculateDict b).2.1 b.blocks + fragmentSize b := by
  have hfragment : (if b.isFragmented then
      sdnvGetSizeU32 b.totalAduLength + sdnvGetSizeU32 b.fragmentOffset else 0) =
        fragmentSize b := by
    rw [fragmentSize, Nat.add_comm]
  have hlength : (bundle6RecalculateHeaderLength b).toNat = headerLength b % 2 ^ 16 := by
    rw [recalculate_eq, UInt16.toNat_ofNat']
  unfold bundle6GetSerializedSize getSerializedSize
  generalize bundle6CalculateDict b = dict
  obtain ⟨primary, references, total⟩ := dict
  dsimp only
  rw [serializedBlocksSize_eq, hlength, hfragment]
  omega

/-- The length of what is written, of a bundle with any length stored. -/
theorem length_serialize {b : Bundle} {written : List UInt8}
    (hwritten : bundle6Serialize b = some written) :
    written.length = plainFieldsSize b + sdnvGetSizeU32 (b.procFlags &&& rfc5050Flags)
      + sdnvGetSizeU16 (UInt16.ofNat (dictLength b)) + sdnvGetSizeU16 b.primaryBlockLength
      + (b.blocks.map bareBlockSize).sum
      + writtenRefsSize (bundle6CalculateDict b).2.1 b.blocks := by
  have hrest := length_serializePrimaryRest b
  unfold bundle6Serialize at hwritten
  generalize bundle6CalculateDict b = dict at hwritten ⊢
  obtain ⟨primary, references, total⟩ := dict
  split at hwritten
  · obtain rfl := Option.some.inj hwritten
    simp only [List.length_append, List.length_cons, length_sdnvWriteU32, sizeU32_ofU16,
      length_serializeBlocks]
    omega
  · cases hwritten

theorem sizeU16_bounds (x : UInt16) : 1 ≤ sdnvGetSizeU16 x ∧ sdnvGetSizeU16 x ≤ 3 := by
  unfold sdnvGetSizeU16
  split_ifs <;> omega

/-- **A second recalculation** changes nothing when the length takes as many bytes as the one
before. -/
theorem recalculate_sized_iff (b : Bundle) :
    bundle6RecalculateHeaderLength (bundle6GetSerializedSize b).2 =
        (bundle6GetSerializedSize b).2.primaryBlockLength ↔
      Base128.count (headerLength b % 2 ^ 16) = Base128.count b.primaryBlockLength.toNat := by
  have hold := sizeU16_bounds b.primaryBlockLength
  have hnew := sizeU16_bounds (UInt16.ofNat (headerLength b))
  have hcountNew : Base128.count (headerLength b % 2 ^ 16) =
      sdnvGetSizeU16 (UInt16.ofNat (headerLength b)) := by
    rw [sdnvGetSizeU16_eq, UInt16.toNat_ofNat']
  have hheader : headerLength (bundle6GetSerializedSize b).2 + sdnvGetSizeU16 b.primaryBlockLength =
      headerLength b + sdnvGetSizeU16 (UInt16.ofNat (headerLength b)) := by
    have hplain : plainFieldsSize (bundle6GetSerializedSize b).2 = plainFieldsSize b := rfl
    have hdict : dictLength (bundle6GetSerializedSize b).2 = dictLength b := rfl
    have hflags : (bundle6GetSerializedSize b).2.procFlags = b.procFlags := rfl
    have hlength : (bundle6GetSerializedSize b).2.primaryBlockLength =
        UInt16.ofNat (headerLength b) := by rw [sized_eq]
    rw [headerLength, hplain, hdict, hflags, hlength, headerLength, sizeU32_ofU16, sizeU32_ofU16]
    omega
  have hlength : (bundle6GetSerializedSize b).2.primaryBlockLength =
      UInt16.ofNat (headerLength b) := by rw [sized_eq]
  rw [recalculate_eq, hlength, ← UInt16.toNat_inj, UInt16.toNat_ofNat', UInt16.toNat_ofNat',
    hcountNew, ← sdnvGetSizeU16_eq]
  omega

/-- **The announced size is what is written**, and the length of the primary block is stable,
exactly under these conditions. -/
theorem framed_iff (b : Bundle) : Framed b ↔ Matching b := by
  have hsize := size_eq b
  have hsized := sized_eq b
  obtain ⟨sized, hs⟩ : ∃ sized, sized = (bundle6GetSerializedSize b).2 := ⟨_, rfl⟩
  have hwrites {written : List UInt8} (hwritten : bundle6Serialize sized = some written) :
      written.length + headerLength b / 2 ^ 16 * 2 ^ 16 + sdnvGetSizeU32 b.procFlags
          + sdnvGetSizeU32 (UInt32.ofNat (dictLength b))
          + sdnvGetSizeU16 b.primaryBlockLength =
        headerLength b % 2 ^ 16 + headerLength b / 2 ^ 16 * 2 ^ 16 +
          headerLength b / 2 ^ 16 * 2 ^ 16
          + sdnvGetSizeU32 (b.procFlags &&& rfc5050Flags)
          + sdnvGetSizeU16 (UInt16.ofNat (dictLength b))
          + sdnvGetSizeU16 (UInt16.ofNat (headerLength b)) + (b.blocks.map bareBlockSize).sum
          + writtenRefsSize (bundle6CalculateDict b).2.1 b.blocks := by
    have hlength := length_serialize hwritten
    have hplain : plainFieldsSize sized = plainFieldsSize b := by rw [hs]; rfl
    have hdict : dictLength sized = dictLength b := by rw [hs]; rfl
    have hflags : sized.procFlags = b.procFlags := by rw [hs]; rfl
    have hblocks : sized.blocks = b.blocks := by rw [hs]; rfl
    have hdescriptor : bundle6CalculateDict sized = bundle6CalculateDict b := by rw [hs]; rfl
    have hfield : sized.primaryBlockLength = UInt16.ofNat (headerLength b) := by rw [hs, hsized]
    have hheader : headerLength b = plainFieldsSize b + sdnvGetSizeU32 b.procFlags
        + sdnvGetSizeU32 (UInt32.ofNat (dictLength b)) + sdnvGetSizeU16 b.primaryBlockLength := by
      rw [headerLength, sizeU32_ofU16]
    rw [hplain, hdict, hflags, hblocks, hdescriptor, hfield] at hlength
    omega
  have hfits : (∃ written, bundle6Serialize sized = some written) ↔
      ∀ x ∈ b.blocks, hasRefField x = false → x.eidRefs = [] := by
    have hblocks : descriptorFits sized = descriptorFits b := by rw [hs]; rfl
    rw [← descriptorFits_iff, bundle6Serialize, hblocks]
    split <;> simp_all
  have hcount : Base128.count (headerLength b % 2 ^ 16) = Base128.count b.primaryBlockLength.toNat ↔
      sdnvGetSizeU16 (UInt16.ofNat (headerLength b)) = sdnvGetSizeU16 b.primaryBlockLength := by
    rw [sdnvGetSizeU16_eq, sdnvGetSizeU16_eq, UInt16.toNat_ofNat']
  unfold Framed
  rw [recalculate_sized_iff, ← hs]
  constructor
  · rintro ⟨⟨written, hwritten, hlength⟩, hwidth⟩
    have hall := hwrites hwritten
    have hwidth' := hcount.mp hwidth
    exact ⟨hfits.mp ⟨written, hwritten⟩, hwidth, by omega⟩
  · rintro ⟨hreferences, hwidth, hsizes⟩
    obtain ⟨written, hwritten⟩ := hfits.mpr hreferences
    have hall := hwrites hwritten
    have hwidth' := hcount.mp hwidth
    exact ⟨⟨written, hwritten, by omega⟩, hwidth⟩

/-- The conditions on a bundle whose primary block is shorter than 64 KiB: nothing is counted that
is not written. -/
structure Plain (b : Bundle) : Prop where
  references : ∀ x ∈ b.blocks, hasRefField x = false → x.eidRefs = []
  width : Base128.count (headerLength b) = Base128.count b.primaryBlockLength.toNat
  whole : b.isFragmented = false
  flags : Base128.count (b.procFlags &&& rfc5050Flags).toNat = Base128.count b.procFlags.toNat
  offsets : writtenRefsSize (bundle6CalculateDict b).2.1 b.blocks =
    countedRefsSize (bundle6CalculateDict b).2.1 b.blocks

theorem matching_iff_plain {b : Bundle} (hlt : headerLength b < 2 ^ 16) :
    Matching b ↔ Plain b := by
  have hdict : dictLength b < 2 ^ 16 := by
    unfold headerLength plainFieldsSize at hlt
    omega
  have hrefs := references_le b hdict
  have hlengthSize : sdnvGetSizeU16 (UInt16.ofNat (dictLength b)) =
      sdnvGetSizeU32 (UInt32.ofNat (dictLength b)) := by
    rw [sdnvGetSizeU16_eq, sdnvGetSizeU32_eq, UInt16.toNat_ofNat', UInt32.toNat_ofNat',
      Nat.mod_eq_of_lt hdict, Nat.mod_eq_of_lt (by omega)]
  have hflags : sdnvGetSizeU32 (b.procFlags &&& rfc5050Flags) ≤ sdnvGetSizeU32 b.procFlags := by
    rw [sdnvGetSizeU32_eq, sdnvGetSizeU32_eq, UInt32.toNat_and]
    exact Base128.count_mono Nat.and_le_left
  have hfragment : fragmentSize b = 0 ↔ b.isFragmented = false := by
    unfold fragmentSize
    cases b.isFragmented with
    | false => simp
    | true =>
        have hpos := Base128.count_pos b.fragmentOffset.toNat
        rw [if_pos rfl, sdnvGetSizeU32_eq]
        simp only [Bool.true_eq_false, iff_false]
        omega
  have hcut : headerLength b / 2 ^ 16 = 0 := Nat.div_eq_of_lt hlt
  have hmod : headerLength b % 2 ^ 16 = headerLength b := Nat.mod_eq_of_lt hlt
  constructor
  · rintro ⟨hreferences, hwidth, hsizes⟩
    rw [hmod] at hwidth
    rw [hcut, hlengthSize] at hsizes
    refine ⟨hreferences, hwidth, hfragment.mp (by omega), ?_, by omega⟩
    rw [← sdnvGetSizeU32_eq, ← sdnvGetSizeU32_eq]
    omega
  · rintro ⟨hreferences, hwidth, hwhole, hsame, hsizes⟩
    rw [← sdnvGetSizeU32_eq, ← sdnvGetSizeU32_eq] at hsame
    have hnone := hfragment.mpr hwhole
    refine ⟨hreferences, by rw [hmod, hwidth], ?_⟩
    rw [hcut, hlengthSize]
    omega

/-- **The announced size is what is written** exactly under these conditions: nothing may be
counted that is not written, but for what a primary block of 64 KiB or more loses of its length.
-/
theorem serialized_size_iff (b : Bundle) :
    (Framed b ↔ Matching b) ∧ (headerLength b < 2 ^ 16 → (Framed b ↔ Plain b)) :=
  ⟨framed_iff b, fun hlt => (framed_iff b).trans (matching_iff_plain hlt)⟩

/-- A bundle of version 6 with one block and the length of its primary block. -/
def letter : Bundle :=
  { id := 0
    protocolVersion := 6
    procFlags := flagSingletonEndpoint
    ret := RetConstraints.none
    crcType := .crc16
    destination := "dtn:d".toList
    source := "dtn:s".toList
    reportTo := "dtn:none".toList
    currentCustodian := "dtn:none".toList
    creationTimestampMs := 10000
    sequenceNumber := 1
    lifetimeMs := 60000
    fragmentOffset := 0
    totalAduLength := 0
    primaryBlockLength := 45
    blocksBefore := []
    payload := ⟨1, blockFlagLastBlock, ⟨[1, 2], Buffer.oneTwo_fits⟩, [], .none⟩
    blocksAfter := [] }

/-- The first half of a bundle. -/
def letterFragment : Bundle :=
  { letter with procFlags := flagSingletonEndpoint ||| flagIsFragment, totalAduLength := 4 }

theorem serialized_size_iff_letter : Framed letter ↔ Plain letter :=
  (serialized_size_iff letter).2 (by decide)

/-- The fields of a fragment are announced twice. -/
theorem serialized_size_of_fragment :
    (bundle6Serialize (bundle6GetSerializedSize letterFragment).2).map List.length = some 52 ∧
      (bundle6GetSerializedSize letterFragment).1 = 54 ∧ ¬ Framed letterFragment := by
  have hwritten : (bundle6Serialize (bundle6GetSerializedSize letterFragment).2).map List.length =
      some 52 := by decide
  have hsize : (bundle6GetSerializedSize letterFragment).1 = 54 := by decide
  refine ⟨hwritten, hsize, ?_⟩
  rintro ⟨⟨written, hsome, hlength⟩, -⟩
  rw [hsome, Option.map_some, hlength, hsize] at hwritten
  exact absurd (Option.some.inj hwritten) (by decide)

end Bundle6
