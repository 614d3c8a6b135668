import DisruptaBLE.Bundle7.ReadBack

/-!
# The round trip of version 7

A bundle that is serialized and read again is delivered, with its identifiers as they are read back
(`read_serialized`).  So it is the bundle that was serialized exactly when these are canonical, and
when a bundle that is not a fragment has no fields of one (`codec_round_trip_iff`).
-/

namespace Bundle7

open Cbor BundleProcessor

/-- A bundle of version 7 whose identifiers can be written, and which a parser can represent. -/
structure Supported (T : TinyCbor) (b : Bundle) : Prop where
  version : b.protocolVersion = 7
  /-- `dtn:none`, or an identifier of the scheme `dtn` or `ipn` that fits the buffer -/
  eids : ∀ eid ∈ [b.destination, b.source, b.reportTo],
    IsCString eid ∧ (bundle7EidSerialize T eid bufferSize).isSome
  flags : b.procFlags &&& bpV7Flags = b.procFlags
  crcType : KnownCrc b.crcType
  blocks : ∀ x ∈ b.blocks, Readable x
  /-- the last and only payload block is the final block -/
  before : ∀ x ∈ b.blocksBefore, x.type ≠ blockTypePayload
  last : b.blocksAfter = []

/-- Two blocks have the same contents. -/
structure SameBlock (x y : Block) : Prop where
  type : y.type = x.type
  number : y.number = x.number
  flags : y.flags = x.flags
  crcType : y.crcType = x.crcType
  data : y.data = x.data

/-- Two bundles have the same primary block and the same blocks. -/
structure SameBundle (b c : Bundle) : Prop where
  protocolVersion : c.protocolVersion = b.protocolVersion
  procFlags : c.procFlags = b.procFlags
  crcType : c.crcType = b.crcType
  destination : c.destination = b.destination
  source : c.source = b.source
  reportTo : c.reportTo = b.reportTo
  creationTimestampMs : c.creationTimestampMs = b.creationTimestampMs
  sequenceNumber : c.sequenceNumber = b.sequenceNumber
  lifetimeMs : c.lifetimeMs = b.lifetimeMs
  fragmentOffset : c.fragmentOffset = b.fragmentOffset
  totalAduLength : c.totalAduLength = b.totalAduLength
  blocks : List.Forall₂ SameBlock b.blocks c.blocks
  payload : SameBlock ⟨b.payload, blockTypePayload⟩ ⟨c.payload, blockTypePayload⟩

/-- The bundle is serialized, and reading what was written consumes all of it, ends without an
invalid checksum and sends the same bundle. -/
def RoundTrips (T : TinyCbor) (quota : Nat) (crc : CrcStream) (b : Bundle) : Prop :=
  (bundle7Serialize T crc b).1 = true ∧
    ∃ st c, bundle7ParserRead T quota bundle7ParserInit (bundle7Serialize T crc b).2 =
        (st, (bundle7Serialize T crc b).2.length) ∧
      st.status = .done ∧ st.crcInvalid = false ∧ st.log = [.sent c] ∧ SameBundle b c

/-- The bundle that is sent, when the primary block had some length. -/
def sentBundle (b : Bundle) (length : Nat) : Bundle :=
  { b with
    id := 0
    ret := RetConstraints.none
    destination := readBack b.destination
    source := readBack b.source
    reportTo := readBack b.reportTo
    currentCustodian := []
    fragmentOffset := if b.isFragmented then b.fragmentOffset else 0
    totalAduLength := if b.isFragmented then b.totalAduLength else 0
    primaryBlockLength := UInt16.ofNat length
    blocksBefore := b.blocksBefore.map readBlock7
    payload := (readBlock7 ⟨b.payload, blockTypePayload⟩).toBlockBody
    blocksAfter := [] }

variable {b : Bundle} {quota : Nat}

/-- An identifier that fits the buffer. -/
theorem exists_eid_wire {eid : CStr} (h : (bundle7EidSerialize reference eid bufferSize).isSome) :
    ∃ w, bundle7EidSerialize reference eid bufferSize = some w ∧
      bundle7EidSerializeCbor reference eid = some w ∧ w.length ≤ bufferSize := by
  obtain ⟨w, hw⟩ := Option.isSome_iff_exists.mp h
  refine ⟨w, hw, ?_⟩
  unfold bundle7EidSerialize at hw
  split at hw
  · cases hw
  · next bytes hbytes =>
    split at hw
    · cases hw
    · next hfits =>
      obtain rfl := Option.some.inj hw
      exact ⟨hbytes, Nat.not_lt.mp hfits⟩

/-- An identifier of the scheme `dtn` in the buffer is not long. -/
theorem length_dtn_lt {eid : CStr} (h : (bundle7EidSerialize reference eid bufferSize).isSome)
    (hdtn : eid.take 4 = "dtn:".toList) : eid.length < 2 ^ 64 := by
  obtain ⟨w, -, hw, hlen⟩ := exists_eid_wire h
  by_cases hnone : eid = "dtn:none".toList
  · subst hnone
    decide
  · unfold bundle7EidSerializeCbor at hw
    rw [if_neg hnone, if_pos hdtn] at hw
    have hbytes : (cBytes (eid.drop 4)).length ≤ w.length := by
      rw [← Option.some.inj hw]
      simp only [serializeDtn, reference, List.length_append]
      omega
    rw [cBytes, List.length_map, List.length_drop] at hbytes
    have hsize : bufferSize = 128 := rfl
    omega

/-- What is written of a supported bundle. -/
theorem serialize_eq (hb : Supported reference b) (crc : CrcStream) :
    ∃ w₁ w₂ w₃ crc', bundle7EidSerializeCbor reference b.destination = some w₁ ∧
      bundle7EidSerializeCbor reference b.source = some w₂ ∧
      bundle7EidSerializeCbor reference b.reportTo = some w₃ ∧
      bundle7Serialize reference crc b = (true, primaryBytes b (w₁ ++ (w₂ ++ w₃)) ++
        (serializeBlocks reference crc' b.blocks ++ [0xff])) := by
  obtain ⟨w₁, hdest, h₁, -⟩ := exists_eid_wire (hb.eids b.destination (by simp)).2
  obtain ⟨w₂, hsource, h₂, -⟩ := exists_eid_wire (hb.eids b.source (by simp)).2
  obtain ⟨w₃, hreport, h₃, -⟩ := exists_eid_wire (hb.eids b.reportTo (by simp)).2
  have hversion : ¬ b.protocolVersion ≠ 7 := not_not.mpr hb.version
  refine ⟨w₁, w₂, w₃, (crcField reference b.crcType (feedCrc (initCrc crc b.crcType) b.crcType
    (primaryHead reference b ++ (w₁ ++ (w₂ ++ w₃)) ++ primaryTail reference b))).1, h₁, h₂, h₃, ?_⟩
  unfold bundle7Serialize primaryBytes
  rw [if_neg hversion, ← crcField_eq hb.crcType crc]
  simp only [writeEids, hdest, hsource, hreport, feedCrc_append, List.append_nil, if_true,
    List.append_assoc, List.cons_append]

theorem serializeBlocks_append (crc : CrcStream) (xs : List Block) (x : Block) :
    ∃ crc', serializeBlocks reference crc (xs ++ [x]) =
      serializeBlocks reference crc xs ++ (serializeBlock reference crc' x).2 := by
  induction xs generalizing crc with
  | nil => exact ⟨crc, by simp [serializeBlocks]⟩
  | cons y ys ih =>
      obtain ⟨crc', htail⟩ := ih (serializeBlock reference crc y).1
      refine ⟨crc', ?_⟩
      rw [List.cons_append, serializeBlocks, htail, serializeBlocks, List.append_assoc]

/-- **What was serialized is read**, and a bundle is sent. -/
theorem read_serialized (hb : Supported reference b) (crc : CrcStream)
    (hquota : (bundle7Serialize reference crc b).2.length ≤ quota) :
    ∃ st length, bundle7ParserRead reference quota bundle7ParserInit
        (bundle7Serialize reference crc b).2 = (st, (bundle7Serialize reference crc b).2.length) ∧
      st.status = .done ∧ st.crcInvalid = false ∧ st.log = [.sent (sentBundle b length)] := by
  obtain ⟨w₁, w₂, w₃, crc', h₁, h₂, h₃, hwritten⟩ := serialize_eq hb crc
  have hblocks : b.blocks = b.blocksBefore ++ [⟨b.payload, blockTypePayload⟩] := by
    rw [Bundle.blocks, hb.last]
  obtain ⟨crc'', hsplit⟩ := serializeBlocks_append crc' b.blocksBefore ⟨b.payload, blockTypePayload⟩
  rw [hwritten, hblocks, hsplit] at hquota ⊢
  generalize hprimary : primaryBytes b (w₁ ++ (w₂ ++ w₃)) = primary at hquota ⊢
  generalize hbefore : serializeBlocks reference crc' b.blocksBefore = before at hquota ⊢
  generalize hpayload : (serializeBlock reference crc'' ⟨b.payload, blockTypePayload⟩).2 = payload
    at hquota ⊢
  dsimp only at hquota ⊢
  simp only [List.length_append, List.length_singleton] at hquota
  have hinit : bundle7ParserInit.Between .bundleStart 0 bundleInit [] :=
    ⟨rfl, rfl, rfl, rfl, rfl, rfl, rfl⟩
  have hstring : ∀ eid ∈ [b.destination, b.source, b.reportTo], IsCString eid ∧
      (eid.take 4 = "dtn:".toList → eid.length < 2 ^ 64) := fun eid heid =>
    ⟨(hb.eids eid heid).1, length_dtn_lt (hb.eids eid heid).2⟩
  have hmem : ∀ x ∈ b.blocksBefore, Readable x := fun x hx =>
    hb.blocks x (hblocks ▸ List.mem_append_left _ hx)
  have hlast : Readable ⟨b.payload, blockTypePayload⟩ :=
    hb.blocks _ (hblocks ▸ List.mem_append_right _ List.mem_cons_self)
  have hquota₁ : (primaryBytes b (w₁ ++ (w₂ ++ w₃))).length ≤ quota := by
    rw [hprimary]
    omega
  have hquota₂ : primary.length + (serializeBlocks reference crc' b.blocksBefore).length ≤
      quota := by
    rw [hbefore]
    omega
  have hquota₃ : primary.length + before.length +
      (serializeBlock reference crc'' ⟨b.payload, blockTypePayload⟩).2.length ≤ quota := by
    rw [hpayload]
    omega
  have hquota₄ : primary.length + before.length + payload.length + 1 ≤ quota := by omega
  have hbreak : payload ++ [0xff] ≠ [] :=
    List.append_ne_nil_of_right_ne_nil _ (List.cons_ne_nil _ _)
  obtain ⟨st₁, hread₁, hst₁⟩ := reads_primary (r := before ++ payload ++ [0xff]) hb.flags
    hb.crcType hinit hstring h₁ h₂ h₃ hquota₁
  rw [hprimary] at hread₁ hst₁
  obtain ⟨st₂, hread₂, hst₂⟩ := reads_blocks hmem hb.before hst₁ hbreak crc' hquota₂
  rw [hbefore] at hread₂ hst₂
  obtain ⟨st₃, hread₃, hst₃⟩ := reads_block (r := [0xff]) hlast hst₂ (List.cons_ne_nil _ _) crc''
    hquota₃
  obtain ⟨block, hdraft⟩ := readBlocks_eq (primaryDraft b (primary.length - 1)) hb.before
  have htype : (readBlock7 ⟨b.payload, blockTypePayload⟩).type = blockTypePayload := rfl
  rw [hpayload, hdraft, closeStage, closeBlock, if_pos (by exact htype), if_pos (by exact htype)]
    at hst₃
  rw [hpayload] at hread₃
  obtain ⟨passes, hpasses, hrun⟩ := hread₁.append (hread₂.append hread₃)
  simp only [List.length_append] at hpasses
  generalize hall : primary ++ (before ++ payload) = all at hrun
  have hlength : all.length = primary.length + (before.length + payload.length) := by
    rw [← hall, List.length_append, List.length_append]
  obtain ⟨st, hend, hdone, hcrc, hlog⟩ := readLoop_bundleEnd hst₃ rfl hquota₄
    (2 * all.length + 3 - passes) (0 + all.length)
  have hsent : st.log = [.sent (sentBundle b (primary.length - 1))] := hlog
  refine ⟨st, primary.length - 1, ?_, hdone, hcrc, hsent⟩
  have hassoc : primary ++ (before ++ payload ++ [0xff]) = all ++ [0xff] := by
    simp only [← hall, List.append_assoc]
  have hfuel : 2 * (all ++ [0xff]).length + 2 = 2 * all.length + 3 - passes + 1 + passes := by
    rw [List.length_append, List.length_singleton]
    omega
  have hparsed : 0 + all.length + 1 = (all ++ [0xff]).length := by
    rw [List.length_append, List.length_singleton, Nat.zero_add]
  rw [bundle7ParserRead, hassoc, hfuel, ← hparsed]
  exact (hrun _ 0).trans hend

/-- What is sent is the same bundle exactly when its identifiers are read back as they were, and the
fields of a fragment are those of one. -/
theorem sameBundle_iff (hb : Supported reference b) (length : Nat) :
    SameBundle b (sentBundle b length) ↔
      Canonical b.destination ∧ Canonical b.source ∧ Canonical b.reportTo ∧
        (b.isFragmented = true ∨ b.fragmentOffset = 0 ∧ b.totalAduLength = 0) := by
  obtain ⟨_, -, h₁, -⟩ := exists_eid_wire (hb.eids b.destination (by simp)).2
  obtain ⟨_, -, h₂, -⟩ := exists_eid_wire (hb.eids b.source (by simp)).2
  obtain ⟨_, -, h₃, -⟩ := exists_eid_wire (hb.eids b.reportTo (by simp)).2
  constructor
  · intro hsame
    refine ⟨(readBack_eq_iff h₁).mp hsame.destination, (readBack_eq_iff h₂).mp hsame.source,
      (readBack_eq_iff h₃).mp hsame.reportTo, ?_⟩
    by_cases hfragment : b.isFragmented = true
    · exact .inl hfragment
    · have hoffset := hsame.fragmentOffset
      have htotal := hsame.totalAduLength
      simp only [sentBundle, if_neg hfragment] at hoffset htotal
      exact .inr ⟨hoffset.symm, htotal.symm⟩
  · rintro ⟨hdest, hsource, hreport, hfragment⟩
    have hoffset : (if b.isFragmented then b.fragmentOffset else 0) = b.fragmentOffset := by
      split
      · rfl
      · next hwhole => exact (hfragment.resolve_left hwhole).1.symm
    have htotal : (if b.isFragmented then b.totalAduLength else 0) = b.totalAduLength := by
      split
      · rfl
      · next hwhole => exact (hfragment.resolve_left hwhole).2.symm
    have hsame (x : Block) : SameBlock x (readBlock7 x) := ⟨rfl, rfl, rfl, rfl, rfl⟩
    have hblocks : List.Forall₂ SameBlock b.blocks (sentBundle b length).blocks := by
      have hread : (sentBundle b length).blocks = b.blocks.map readBlock7 := by
        simp only [Bundle.blocks, hb.last, sentBundle, List.map_append, List.map_cons, List.map_nil]
        rfl
      rw [hread, List.forall₂_map_right_iff]
      exact List.forall₂_same.mpr fun x _ => hsame x
    exact ⟨rfl, rfl, rfl, (readBack_eq_iff h₁).mpr hdest, (readBack_eq_iff h₂).mpr hsource,
      (readBack_eq_iff h₃).mpr hreport, rfl, rfl, rfl, hoffset, htotal, hblocks,
      ⟨rfl, rfl, rfl, rfl, rfl⟩⟩

/-- A bundle comes back exactly when the one that is sent is the same. -/
theorem roundTrips_iff_same (hb : Supported reference b) {crc : CrcStream}
    (hquota : (bundle7Serialize reference crc b).2.length ≤ quota) :
    ∃ length, RoundTrips reference quota crc b ↔ SameBundle b (sentBundle b length) := by
  obtain ⟨st, length, hread, hdone, hcrc, hlog⟩ := read_serialized hb crc hquota
  obtain ⟨_, _, _, _, _, _, _, hwritten⟩ := serialize_eq hb crc
  refine ⟨length, ?_, fun hsame => ⟨by rw [hwritten], st, _, hread, hdone, hcrc, hlog, hsame⟩⟩
  rintro ⟨-, st', c, hread', -, -, hlog', hsame⟩
  obtain rfl : st = st' := (Prod.mk.inj (hread.symm.trans hread')).1
  obtain rfl : sentBundle b length = c := by
    simpa using hlog.symm.trans hlog'
  exact hsame

/-- **The round trip of version 7**: a bundle comes back as it was exactly when its identifiers are
canonical, and when it has the fields of a fragment only if it is one. -/
theorem codec_round_trip_iff {T : TinyCbor} (hT : T.Documented) (hb : Supported T b)
    {crc : CrcStream} (hquota : (bundle7Serialize T crc b).2.length ≤ quota) :
    RoundTrips T quota crc b ↔
      Canonical b.destination ∧ Canonical b.source ∧ Canonical b.reportTo ∧
        (b.isFragmented = true ∨ b.fragmentOffset = 0 ∧ b.totalAduLength = 0) := by
  obtain rfl := hT.eq_reference
  obtain ⟨length, hsame⟩ := roundTrips_iff_same hb hquota
  exact hsame.trans (sameBundle_iff hb length)

/-- A fragment with a block before its payload, for some destination. -/
def parcelTo (destination : CStr) : Bundle where
  id := 0
  protocolVersion := 7
  procFlags := flagIsFragment
  ret := RetConstraints.none
  crcType := .crc16
  destination := destination
  source := "dtn://n/a".toList
  reportTo := "dtn:none".toList
  currentCustodian := []
  creationTimestampMs := 1000
  sequenceNumber := 1
  lifetimeMs := 60000
  fragmentOffset := 3
  totalAduLength := 10
  primaryBlockLength := 0
  blocksBefore := [⟨⟨2, 0, ⟨[0x82, 0x18, 0x1e, 0x00], by decide⟩, [], .crc32⟩, 10⟩]
  payload := ⟨1, 0, ⟨[1, 2], Buffer.oneTwo_fits⟩, [], .none⟩
  blocksAfter := []

theorem supported_parcelTo {destination : CStr} (hstring : IsCString destination)
    (hfits : (bundle7EidSerialize reference destination bufferSize).isSome) :
    Supported reference (parcelTo destination) where
  version := rfl
  eids := by
    intro eid heid
    obtain rfl | rfl | rfl : eid = destination ∨ eid = "dtn://n/a".toList ∨
        eid = "dtn:none".toList := by
      simpa [parcelTo] using heid
    · exact ⟨hstring, hfits⟩
    · decide
    · decide
  flags := show flagIsFragment &&& bpV7Flags = flagIsFragment by decide
  crcType := .inr ⟨.crc16X25, rfl⟩
  blocks := by
    intro x hx
    obtain rfl | rfl : x = ⟨⟨2, 0, ⟨[0x82, 0x18, 0x1e, 0x00], by decide⟩, [], .crc32⟩, 10⟩ ∨
        x = ⟨⟨1, 0, ⟨[1, 2], by decide⟩, [], .none⟩, blockTypePayload⟩ := by
      simpa [parcelTo, Bundle.blocks] using hx
    · exact ⟨.inr ⟨.crc32, rfl⟩, rfl⟩
    · exact ⟨.inl rfl, rfl⟩
  before := by
    intro x hx
    obtain rfl := List.mem_singleton.mp hx
    decide
  last := rfl

theorem codec_round_trip_iff_parcel :
    RoundTrips reference 128 (crcInit .crc32) (parcelTo "ipn:2.1".toList) :=
  (codec_round_trip_iff reference_documented (supported_parcelTo (by decide) (by decide))
    (by decide)).mpr
      ⟨.inr ⟨2, 1, by decide, by decide, by decide, by decide, rfl⟩, .inl rfl, .inl rfl, .inl rfl⟩

/-- **The service with number zero is lost**: there is no room for its digit. -/
theorem service_zero_lost :
    Supported reference (parcelTo "ipn:2.0".toList) ∧
      (bundle7Serialize reference (crcInit .crc32) (parcelTo "ipn:2.0".toList)).2.length ≤ 128 ∧
      ¬ RoundTrips reference 128 (crcInit .crc32) (parcelTo "ipn:2.0".toList) := by
  have hb : Supported reference (parcelTo "ipn:2.0".toList) :=
    supported_parcelTo (by decide) (by decide)
  have hquota :
      (bundle7Serialize reference (crcInit .crc32) (parcelTo "ipn:2.0".toList)).2.length ≤ 128 := by
    decide
  have hback : readBack "ipn:2.0".toList ≠ "ipn:2.0".toList := by decide
  obtain ⟨length, hsame⟩ := roundTrips_iff_same hb hquota
  exact ⟨hb, hquota, fun h => hback (hsame.mp h).destination⟩

end Bundle7
