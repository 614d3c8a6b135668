import DisruptaBLE.Bundle6.Dictionary
import DisruptaBLE.Bundle6.Feeding

/-!
# Reading a primary block of version 6 back

What `bundle6_serialize` writes of a primary block is taken by the parser, as far as the length of
the block allows (`feeds_head`, `takes_primaryRest`).
-/

namespace Bundle6

open BundleProcessor
open ClaRx (ParserStatus)

variable {q : Limits} {s : Parser} {b : Bundle}

/-! ## The primary block -/

/-- A byte of the primary block. -/
theorem takes_byte {s s' : Parser} {byte : UInt8} (hgood : s.status = .good)
    (hbulk : s.bulkRead = false) (hprimary : s.currentBlock = .primary)
    (hknown : lengthKnown s = true)
    (hread : changeStage q (stageByte
      { s with primaryBytesRemaining := s.primaryBytesRemaining - 1 } byte) = s')
    (hremaining : s'.primaryBytesRemaining = s.primaryBytesRemaining - 1) :
    Takes q s [byte] s' := by
  refine ⟨fun hle => ?_, fun hlt r => ?_, hremaining⟩
  · have hne : s.primaryBytesRemaining ≠ 0 := by
      rintro h
      rw [h] at hle
      simp at hle
    apply Feeds.single hgood hbulk
    rw [bundle6ParserReadByte, if_neg (fun h => hne h.2.2), countPrimaryByte, if_pos hprimary]
    exact hread
  · have hzero : s.primaryBytesRemaining = 0 := by
      rw [← UInt16.toNat_inj]
      simpa using hlt
    apply Fails.now hgood hbulk
    rw [bundle6ParserReadByte, if_pos ⟨hprimary, hknown, hzero⟩]

/-- The offsets of an EID of the primary block. -/
theorem takes_info {f g : Field UInt16} {σ u t : Stage} (hf : f.Lawful) (hg : g.Lawful)
    (hreadF : f.read = sdnvReadU16) (hreadG : g.read = sdnvReadU16) (hs : Standing s σ)
    (hσ : σ.lengthKnown = true) (hu : u.lengthKnown = true)
    (hstageF : ∀ s byte, s.currentStage = σ → stageByte s byte = (readField f u s byte).1)
    (hstageG : ∀ s byte, s.currentStage = u → stageByte s byte = (readField g t s byte).1)
    (hne : σ ≠ u) (hne' : u ≠ t) (hplain : u.plain = true) (hplain' : t.plain = true)
    (info : EidInfo) :
    ∃ s', Takes q s (writeEidInfo info) s' ∧ Standing s' t ∧
      ∃ m n, s' = behind g (behind f s info.dictSchemeOffset m u) info.dictSspOffset n t := by
  have hfirst := takes_plain (q := q) hf hs hσ hstageF
    (hreadF ▸ reads_write16 info.dictSchemeOffset (f.get s)) hne hplain
  have hsecond := takes_plain (q := q) hg hfirst.2 hu hstageG
    (hreadG ▸ reads_write16 info.dictSspOffset _) hne' hplain'
  exact ⟨_, hfirst.1.append hsecond.1, hsecond.2, _, _, rfl⟩

/-- The offsets of the four EIDs are in the parser, and nothing else has changed. -/
structure OffsetsRead (i₁ i₂ i₃ i₄ : EidInfo) (s s' : Parser) : Prop where
  destination : s'.destinationEidref = toReference i₁
  source : s'.sourceEidref = toReference i₂
  reportTo : s'.reportToEidref = toReference i₃
  custodian : s'.custodianEidref = toReference i₄
  bundle : s'.bundle = s.bundle
  currentSize : s'.currentSize = s.currentSize
  sent : s'.sent = s.sent

theorem takes_offsets (hs : Standing s .destinationEidScheme) (i₁ i₂ i₃ i₄ : EidInfo) :
    ∃ s', Takes q s ([i₁, i₂, i₃, i₄].flatMap writeEidInfo) s' ∧ Standing s' .timestamp ∧
      OffsetsRead i₁ i₂ i₃ i₄ s s' := by
  obtain ⟨s₁, h₁, hs₁, _, _, he₁⟩ := takes_info (q := q) (u := .destinationEidSsp)
    (t := .sourceEidScheme) Field.destinationScheme_lawful Field.destinationSsp_lawful rfl rfl
    hs rfl
    rfl (fun s byte h => by rw [stageByte, h]) (fun s byte h => by rw [stageByte, h])
    (by decide) (by decide) rfl rfl i₁
  obtain ⟨s₂, h₂, hs₂, _, _, he₂⟩ := takes_info (q := q) (u := .sourceEidSsp)
    (t := .reportEidScheme) Field.sourceScheme_lawful Field.sourceSsp_lawful rfl rfl hs₁ rfl
    rfl (fun s byte h => by rw [stageByte, h]) (fun s byte h => by rw [stageByte, h])
    (by decide) (by decide) rfl rfl i₂
  obtain ⟨s₃, h₃, hs₃, _, _, he₃⟩ := takes_info (q := q) (u := .reportEidSsp)
    (t := .custodianEidScheme) Field.reportToScheme_lawful Field.reportToSsp_lawful rfl rfl hs₂ rfl
    rfl (fun s byte h => by rw [stageByte, h]) (fun s byte h => by rw [stageByte, h])
    (by decide) (by decide) rfl rfl i₃
  obtain ⟨s₄, h₄, hs₄, _, _, he₄⟩ := takes_info (q := q) (u := .custodianEidSsp)
    (t := .timestamp) Field.custodianScheme_lawful Field.custodianSsp_lawful rfl rfl hs₃ rfl
    rfl (fun s byte h => by rw [stageByte, h]) (fun s byte h => by rw [stageByte, h])
    (by decide) (by decide) rfl rfl i₄
  -- each pair sets its reference, and leaves the rest as it is
  have hk₁ : s₁.destinationEidref = toReference i₁ ∧ s₁.bundle = s.bundle ∧
      s₁.currentSize = s.currentSize ∧ s₁.sent = s.sent := by
    rw [he₁]
    exact ⟨rfl, rfl, rfl, rfl⟩
  have hk₂ : s₂.destinationEidref = s₁.destinationEidref ∧ s₂.sourceEidref = toReference i₂ ∧
      s₂.bundle = s₁.bundle ∧ s₂.currentSize = s₁.currentSize ∧ s₂.sent = s₁.sent := by
    rw [he₂]
    exact ⟨rfl, rfl, rfl, rfl, rfl⟩
  have hk₃ : s₃.destinationEidref = s₂.destinationEidref ∧ s₃.sourceEidref = s₂.sourceEidref ∧
      s₃.reportToEidref = toReference i₃ ∧
      s₃.bundle = s₂.bundle ∧ s₃.currentSize = s₂.currentSize ∧ s₃.sent = s₂.sent := by
    rw [he₃]
    exact ⟨rfl, rfl, rfl, rfl, rfl, rfl⟩
  have hk₄ : s₄.destinationEidref = s₃.destinationEidref ∧ s₄.sourceEidref = s₃.sourceEidref ∧
      s₄.reportToEidref = s₃.reportToEidref ∧ s₄.custodianEidref = toReference i₄ ∧
      s₄.bundle = s₃.bundle ∧ s₄.currentSize = s₃.currentSize ∧ s₄.sent = s₃.sent := by
    rw [he₄]
    exact ⟨rfl, rfl, rfl, rfl, rfl, rfl, rfl⟩
  have hall := (h₁.append h₂).append (h₃.append h₄)
  refine ⟨s₄, by simpa using hall, hs₄, ?_⟩
  constructor <;> grind

/-- **The head of a bundle**, up to the length of the primary block. -/
theorem feeds_head (usage : UInt32) (memory : Parser) (version : UInt8) (flags : UInt32)
    (length : UInt16) :
    ∃ s, Feeds q (bundle6ParserReset q usage memory)
        (version :: sdnvWriteU32 flags ++ sdnvWriteU32 length.toUInt32) s ∧
      Standing s .destinationEidScheme ∧ s.primaryBytesRemaining = length ∧
      s.bundle = { bundleInit with
        protocolVersion := version
        procFlags := flags
        primaryBlockLength := length } ∧
      s.currentSize = usage + q.sizeofBundle ∧ s.sent = none := by
  -- the version
  obtain ⟨s₁, he₁⟩ : ∃ s₁, s₁ = { bundle6ParserReset q usage memory with
      bundle := { bundleInit with protocolVersion := version }
      primaryBytesRemaining := 0 - 1
      currentStage := .procFlags
      nextStage := .procFlags } := ⟨_, rfl⟩
  have h₁ : Feeds q (bundle6ParserReset q usage memory) [version] s₁ := by
    rw [he₁]
    exact .single rfl rfl rfl
  -- the flags
  obtain ⟨s₂, he₂⟩ : ∃ s₂, s₂ = { s₁ with
      bundle := { s₁.bundle with procFlags := flags }
      primaryBytesRemaining :=
        s₁.primaryBytesRemaining - UInt16.ofNat (sdnvWriteU32 flags).length
      currentStage := .blockLength
      nextStage := .blockLength } := ⟨_, rfl⟩
  have h₂ : Feeds q s₁ (sdnvWriteU32 flags) s₂ := by
    have hfeeds := feeds_field (q := q) (s := s₁) (t := .blockLength)
      Field.procFlags_lawful
      (readsField_of_stage Field.procFlags_lawful (by rw [he₁])
        (fun s byte h => by rw [stageByte, h]))
      (by rw [he₁]; rfl) (by rw [he₁]; rfl) (by rw [he₁]) (by rw [he₁]; rfl)
      (fun _ => by rw [he₁]; rfl) (reads_write32 flags _)
    rw [he₂]
    rw [he₁] at hfeeds ⊢
    exact hfeeds
  -- the length
  have hreads := readsBits16.reads_bytes length.toNat_lt (Field.primaryBlockLength.get s₂)
  have hwritten : sdnvWriteU32 length.toUInt32 = Base128.bytes length.toNat := by
    rw [sdnvWriteU32_eq, UInt16.toNat_toUInt32]
  rw [← hwritten, UInt16.ofNat_toNat] at hreads
  obtain ⟨s₃, he₃⟩ : ∃ s₃, s₃ = { s₂ with
      bundle := { s₂.bundle with primaryBlockLength := length }
      primaryBytesRemaining := length
      currentStage := .destinationEidScheme
      nextStage := .destinationEidScheme } := ⟨_, rfl⟩
  have h₃ : Feeds q s₂ (sdnvWriteU32 length.toUInt32) s₃ := by
    have hfeeds := feeds_field (q := q) (s := s₂) (t := .destinationEidScheme)
      Field.primaryBlockLength_lawful
      (readsField_of_stage Field.primaryBlockLength_lawful (by rw [he₂])
        (fun s byte h => by rw [stageByte, h]))
      (by rw [he₂, he₁]; rfl) (by rw [he₂, he₁]; rfl) (by rw [he₂]) (by rw [he₂, he₁]; rfl)
      (fun _ => by rw [he₂]; rfl) hreads
    rw [he₃]
    rw [he₂, he₁] at hfeeds ⊢
    exact hfeeds
  refine ⟨s₃, (h₁.append h₂).append h₃, ?_, ?_, ?_, ?_, ?_⟩
  · rw [he₃, he₂, he₁]
    exact ⟨rfl, rfl, rfl, rfl, rfl, rfl⟩
  · rw [he₃]
  · rw [he₃, he₂, he₁]
  · rw [he₃, he₂, he₁]
    rfl
  · rw [he₃, he₂, he₁]
    rfl

/-- The references of a parser to the EIDs of the primary block, and what it has sent. -/
structure SameReferences (s s' : Parser) : Prop where
  destination : s'.destinationEidref = s.destinationEidref
  source : s'.sourceEidref = s.sourceEidref
  reportTo : s'.reportToEidref = s.reportToEidref
  custodian : s'.custodianEidref = s.custodianEidref
  sent : s'.sent = s.sent

theorem SameReferences.trans {s s' s'' : Parser} (h : SameReferences s s')
    (h' : SameReferences s' s'') : SameReferences s s'' :=
  ⟨h'.destination.trans h.destination, h'.source.trans h.source, h'.reportTo.trans h.reportTo,
    h'.custodian.trans h.custodian, h'.sent.trans h.sent⟩

theorem next_sequenceNum (h : s.nextStage = .sequenceNum) :
    bundle6ParserNext q s = { s with
      bundle := { s.bundle with creationTimestampMs := s.bundle.creationTimestampMs * 1000 }
      sdnvState := sdnvReset
      currentStage := .sequenceNum } := by
  simp [bundle6ParserNext, enterStage, h]

theorem next_dictLength (h : s.nextStage = .dictLength) :
    bundle6ParserNext q s = { s with
      bundle := { s.bundle with lifetimeMs := s.bundle.lifetimeMs * 1000 }
      sdnvState := sdnvReset
      currentStage := .dictLength } := by
  simp [bundle6ParserNext, enterStage, h]

theorem next_dictionary (h : s.nextStage = .dictionary) (hlength : s.dictLength ≠ 0)
    (hquota : s.currentSize + (s.dictLength.toUInt32 + 1) ≤ q.bundleQuota) :
    bundle6ParserNext q s = { s with
      currentIndex := 0
      curBytesRemaining := s.dictLength.toUInt32
      currentSize := s.currentSize + (s.dictLength.toUInt32 + 1)
      dict := []
      currentStage := .dictionary } := by
  simp [bundle6ParserNext, enterStage, h, hlength, UInt32.not_lt.mpr hquota]

theorem takes_creation (hs : Standing s .timestamp) (creation : UInt64) :
    ∃ s', Takes q s (sdnvWriteU64 creation) s' ∧ Standing s' .sequenceNum ∧
      SameReferences s s' ∧ s'.currentSize = s.currentSize ∧
      s'.bundle = { s.bundle with creationTimestampMs := creation * 1000 } := by
  have h := takes_next (q := q) (t := .sequenceNum) Field.creationTimestamp_lawful hs rfl
    (fun s byte h => by rw [stageByte, h]) (reads_write64 creation _) (by decide) (by decide)
  rw [next_sequenceNum rfl] at h
  exact ⟨_, h, ⟨hs.status, hs.bulkRead, rfl, rfl, rfl, hs.currentBlock⟩, ⟨rfl, rfl, rfl, rfl, rfl⟩,
    rfl, rfl⟩

theorem takes_sequence (hs : Standing s .sequenceNum) (sequence : UInt64) :
    ∃ s', Takes q s (sdnvWriteU64 sequence) s' ∧ Standing s' .lifetime ∧
      SameReferences s s' ∧ s'.currentSize = s.currentSize ∧
      s'.bundle = { s.bundle with sequenceNumber := sequence } := by
  have h := takes_plain (q := q) (t := .lifetime) Field.sequenceNumber_lawful hs
    rfl (fun s byte h => by rw [stageByte, h]) (reads_write64 sequence _) (by decide) rfl
  exact ⟨_, h.1, h.2, ⟨rfl, rfl, rfl, rfl, rfl⟩, rfl, rfl⟩

theorem takes_life (hs : Standing s .lifetime) (life : UInt64) :
    ∃ s', Takes q s (sdnvWriteU64 life) s' ∧ Standing s' .dictLength ∧
      SameReferences s s' ∧ s'.currentSize = s.currentSize ∧
      s'.bundle = { s.bundle with lifetimeMs := life * 1000 } := by
  have h := takes_next (q := q) (t := .dictLength) Field.lifetime_lawful hs rfl
    (fun s byte h => by rw [stageByte, h]) (reads_write64 life _) (by decide) (by decide)
  rw [next_dictLength rfl] at h
  exact ⟨_, h, ⟨hs.status, hs.bulkRead, rfl, rfl, rfl, hs.currentBlock⟩, ⟨rfl, rfl, rfl, rfl, rfl⟩,
    rfl, rfl⟩

/-- The parser within the dictionary. -/
structure InDictionary (s : Parser) : Prop where
  status : s.status = .good
  bulkRead : s.bulkRead = false
  currentStage : s.currentStage = .dictionary
  nextStage : s.nextStage = .dictionary
  currentBlock : s.currentBlock = .primary

theorem takes_dictLength (hs : Standing s .dictLength) {length : UInt16} (hlength : length ≠ 0)
    (hquota : s.currentSize + (length.toUInt32 + 1) ≤ q.bundleQuota) :
    ∃ s', Takes q s (sdnvWriteU16 length) s' ∧ InDictionary s' ∧ SameReferences s s' ∧
      s'.currentSize = s.currentSize + (length.toUInt32 + 1) ∧ s'.bundle = s.bundle ∧
      s'.dict = [] ∧ s'.dictLength = length ∧ s'.curBytesRemaining = length.toUInt32 := by
  have h := takes_next (q := q) (t := .dictionary) Field.dictLength_lawful hs rfl
    (fun s byte h => by rw [stageByte, h]) (reads_write16 length _) (by decide) (by decide)
  rw [next_dictionary] at h
  · exact ⟨_, h, ⟨hs.status, hs.bulkRead, rfl, rfl, hs.currentBlock⟩, ⟨rfl, rfl, rfl, rfl, rfl⟩,
      rfl, rfl, rfl, rfl, rfl⟩
  · rfl
  · exact hlength
  · exact hquota

/-- **The times**, and the length of the dictionary. -/
theorem takes_times (hs : Standing s .timestamp) (creation sequence life : UInt64)
    {length : UInt16} (hlength : length ≠ 0)
    (hquota : s.currentSize + (length.toUInt32 + 1) ≤ q.bundleQuota) :
    ∃ s', Takes q s (sdnvWriteU64 creation ++ sdnvWriteU64 sequence ++ sdnvWriteU64 life ++
        sdnvWriteU16 length) s' ∧ InDictionary s' ∧ SameReferences s s' ∧
      s'.currentSize = s.currentSize + (length.toUInt32 + 1) ∧
      s'.bundle = { s.bundle with
        creationTimestampMs := creation * 1000
        sequenceNumber := sequence
        lifetimeMs := life * 1000 } ∧
      s'.dict = [] ∧ s'.dictLength = length ∧ s'.curBytesRemaining = length.toUInt32 := by
  obtain ⟨s₁, h₁, hs₁, href₁, hsize₁, hb₁⟩ := takes_creation (q := q) hs creation
  obtain ⟨s₂, h₂, hs₂, href₂, hsize₂, hb₂⟩ := takes_sequence (q := q) hs₁ sequence
  obtain ⟨s₃, h₃, hs₃, href₃, hsize₃, hb₃⟩ := takes_life (q := q) hs₂ life
  have hsize : s₃.currentSize = s.currentSize := by
    rw [hsize₃, hsize₂, hsize₁]
  obtain ⟨s₄, h₄, hs₄, href₄, hsize₄, hb₄, hdict⟩ :=
    takes_dictLength (q := q) hs₃ hlength (by rw [hsize]; exact hquota)
  refine ⟨s₄, ((h₁.append h₂).append h₃).append h₄, hs₄,
    ((href₁.trans href₂).trans href₃).trans href₄, by rw [hsize₄, hsize], ?_, hdict⟩
  rw [hb₄, hb₃, hb₂, hb₁]

/-! ## The dictionary -/

/-- The parser behind some bytes of the dictionary. -/
def afterBytes (s : Parser) (l : List UInt8) : Parser :=
  { s with
    curBytesRemaining := s.curBytesRemaining - UInt32.ofNat l.length
    dict := s.dict ++ l
    currentIndex := s.currentIndex + UInt32.ofNat l.length
    primaryBytesRemaining := s.primaryBytesRemaining - UInt16.ofNat l.length }

theorem afterBytes_cons (s : Parser) (byte : UInt8) (l : List UInt8) :
    afterBytes (afterBytes s [byte]) l = afterBytes s (byte :: l) := by
  unfold afterBytes
  simp only [List.length_cons, List.length_nil, List.append_assoc, List.singleton_append,
    Parser.mk.injEq, true_and, and_true, UInt32.ofNat_add, UInt16.ofNat_add, Nat.zero_add]
  refine ⟨?_, ?_, ?_⟩ <;> grind

/-- The dictionary is complete. -/
def dictionaryRead (s : Parser) : Parser :=
  readPrimaryEids { s with dict := s.dict ++ [0], currentIndex := s.currentIndex + 1 }

theorem stageByte_dictionary (h : s.currentStage = .dictionary) (byte : UInt8) :
    stageByte { s with primaryBytesRemaining := s.primaryBytesRemaining - 1 } byte =
      if s.curBytesRemaining - 1 = 0 then dictionaryRead (afterBytes s [byte])
      else afterBytes s [byte] := by
  cases s
  dsimp only at h
  subst h
  rfl

theorem InDictionary.afterBytes (hs : InDictionary s) (l : List UInt8) :
    InDictionary (afterBytes s l) :=
  ⟨hs.status, hs.bulkRead, hs.currentStage, hs.nextStage, hs.currentBlock⟩

theorem InDictionary.lengthKnown (hs : InDictionary s) : lengthKnown s = true := by
  rw [Bundle6.lengthKnown, hs.currentStage]

theorem nextStage_readPrimaryEids (hs : s.nextStage ≠ .destinationEidScheme) :
    (readPrimaryEids s).nextStage ≠ .destinationEidScheme := by
  unfold readPrimaryEids
  dsimp only
  split
  · split
    · exact (by decide : Stage.fragmentOffset ≠ .destinationEidScheme)
    · exact (by decide : Stage.blockType ≠ .destinationEidScheme)
  · exact hs

theorem remaining_readPrimaryEids (s : Parser) :
    (readPrimaryEids s).primaryBytesRemaining = s.primaryBytesRemaining := by
  unfold readPrimaryEids
  dsimp only
  split
  · split <;> rfl
  · rfl

/-- **The bytes of the dictionary** are taken. -/
theorem takes_dictionary {l : List UInt8} (hl : l ≠ []) (hs : InDictionary s)
    (hcount : s.curBytesRemaining.toNat = l.length) :
    Takes q s l (changeStage q (dictionaryRead (afterBytes s l))) := by
  induction l generalizing s with
  | nil => exact absurd rfl hl
  | cons byte l ih =>
      have hlt := s.curBytesRemaining.toNat_lt
      rw [List.length_cons] at hcount
      have hone : (1 : UInt32) ≤ s.curBytesRemaining := by
        rw [UInt32.le_iff_toNat_le, hcount]
        exact Nat.succ_le_succ (Nat.zero_le _)
      have hleft : (s.curBytesRemaining - 1).toNat = l.length := by
        rw [UInt32.toNat_sub_of_le _ _ hone, hcount]
        rfl
      cases l with
      | nil =>
          have hzero : s.curBytesRemaining - 1 = 0 := by
            rw [← UInt32.toNat_inj, hleft]
            rfl
          apply takes_byte hs.status hs.bulkRead hs.currentBlock hs.lengthKnown
          · rw [stageByte_dictionary hs.currentStage, if_pos hzero]
          · have hnext : (dictionaryRead (afterBytes s [byte])).nextStage ≠
                .destinationEidScheme := nextStage_readPrimaryEids (by
              change s.nextStage ≠ _
              rw [hs.nextStage]
              decide)
            rw [changeStage_remaining hnext, dictionaryRead, remaining_readPrimaryEids]
            rfl
      | cons next l =>
          have hne : s.curBytesRemaining - 1 ≠ 0 := by
            intro hzero
            rw [hzero] at hleft
            cases hleft
          have hbyte : Takes q s [byte] (afterBytes s [byte]) := by
            apply takes_byte hs.status hs.bulkRead hs.currentBlock hs.lengthKnown
            · rw [stageByte_dictionary hs.currentStage, if_neg hne, changeStage, if_neg]
              rintro ⟨hstage, -⟩
              exact hstage (hs.currentStage.trans hs.nextStage.symm)
            · rfl
          have hrest := @ih (afterBytes s [byte]) (List.cons_ne_nil _ _) (hs.afterBytes _) hleft
          rw [afterBytes_cons] at hrest
          exact hbyte.append hrest

/-- The parser before a block. -/
structure AtBlock (dictionary : List UInt8) (bundle : Draft) (s : Parser) : Prop where
  status : s.status = .good
  bulkRead : s.bulkRead = false
  currentStage : s.currentStage = .blockType
  nextStage : s.nextStage = .blockType
  currentBlock : s.currentBlock = .generic
  dict : s.dict = dictionary ++ [0]
  dictLength : s.dictLength.toNat = dictionary.length
  bundle : s.bundle = bundle
  sent : s.sent = none

theorem next_blockType (h : s.nextStage = .blockType) :
    bundle6ParserNext q s = { s with currentBlock := .generic, currentStage := .blockType } := by
  simp [bundle6ParserNext, enterStage, h]

/-- The EIDs of the dictionary, for the primary block. -/
theorem readPrimaryEids_eq {destination source reportTo custodian : CStr}
    (hd : bundle6ReadEid s.dict s.dictLength.toNat s.destinationEidref = some destination)
    (hs : bundle6ReadEid s.dict s.dictLength.toNat s.sourceEidref = some source)
    (hr : bundle6ReadEid s.dict s.dictLength.toNat s.reportToEidref = some reportTo)
    (hc : bundle6ReadEid s.dict s.dictLength.toNat s.custodianEidref = some custodian) :
    readPrimaryEids s = { s with
      bundle := { s.bundle with destination, source, reportTo, currentCustodian := custodian }
      nextStage := if hasFlag s.bundle.procFlags flagIsFragment then .fragmentOffset
        else .blockType } := by
  unfold readPrimaryEids
  dsimp only
  rw [hd, hs, hr, hc]
  dsimp only
  split <;> rfl

/-- **The fields of a fragment**, if there are any. -/
theorem takes_fragment {s : Parser} {dict : List UInt8} {bundle : Draft}
    (hgood : s.status = .good) (hbulk : s.bulkRead = false)
    (hcurrent : s.currentStage = .dictionary)
    (hprimary : s.currentBlock = .primary) (hdict : s.dict = dict ++ [0])
    (hlength : s.dictLength.toNat = dict.length) (hbundle : s.bundle = bundle)
    (hsent : s.sent = none) (fragment : Bool)
    (hnext : s.nextStage = if fragment then .fragmentOffset else .blockType)
    (offset total : UInt32) :
    ∃ s', Takes q (changeStage q s)
        (if fragment then sdnvWriteU32 offset ++ sdnvWriteU32 total else []) s' ∧
      AtBlock dict (if fragment then
        { bundle with fragmentOffset := offset, totalAduLength := total } else bundle) s' ∧
      s'.currentSize = s.currentSize := by
  cases fragment with
  | false =>
      simp only [Bool.false_eq_true, if_false] at hnext ⊢
      rw [changeStage_of_ne hgood (by rw [hcurrent, hnext]; decide), next_blockType hnext]
      refine ⟨_, ⟨fun _ => .nil, fun hlt => absurd hlt (Nat.not_lt_zero _), ?_⟩,
        ⟨hgood, hbulk, rfl, hnext, rfl, hdict, hlength, hbundle, hsent⟩, rfl⟩
      simp
  | true =>
      simp only [if_true] at hnext ⊢
      have hne : s.currentStage ≠ s.nextStage := by
        rw [hcurrent, hnext]
        decide
      obtain ⟨s₁, he₁⟩ : ∃ s₁, s₁ = { s with
          sdnvState := sdnvReset
          currentStage := s.nextStage } := ⟨_, rfl⟩
      have hs₁ : Standing s₁ .fragmentOffset := by
        rw [he₁]
        exact ⟨hgood, hbulk, hnext, hnext, rfl, hprimary⟩
      have h₁ := takes_plain (q := q) (t := .aduLength) Field.fragmentOffset_lawful hs₁ rfl
        (fun s byte h => by rw [stageByte, h]) (reads_write32 offset _) (by decide) rfl
      have h₂ := takes_next (q := q) (t := .blockType) Field.totalAduLength_lawful h₁.2 rfl
        (fun s byte h => by rw [stageByte, h]) (reads_write32 total _) (by decide) (by decide)
      rw [next_blockType rfl] at h₂
      rw [changeStage_plain (by rw [hgood]; decide) hne (by rw [hnext]; rfl), ← he₁]
      refine ⟨_, h₁.1.append h₂, ?_, ?_⟩
      · rw [he₁]
        refine ⟨hgood, hbulk, rfl, rfl, rfl, hdict, hlength, ?_, hsent⟩
        rw [← hbundle]
        rfl
      · rw [he₁]
        rfl

/-- The fields of the primary block that are read back. -/
def readPrimary (b : Bundle) : Draft where
  protocolVersion := b.protocolVersion
  procFlags := b.procFlags &&& rfc5050Flags
  destination := b.destination
  source := b.source
  reportTo := b.reportTo
  currentCustodian := b.currentCustodian
  creationTimestampMs := b.creationTimestampMs / 1000 * 1000
  sequenceNumber := b.sequenceNumber
  lifetimeMs := b.lifetimeMs / 1000 * 1000
  fragmentOffset := if b.isFragmented then b.fragmentOffset else 0
  totalAduLength := if b.isFragmented then b.totalAduLength else 0
  primaryBlockLength := b.primaryBlockLength
  blocks := []
  payloadBlock := none

/-- The flag of a fragment is among those that are written. -/
theorem hasFlag_masked (b : Bundle) :
    hasFlag (b.procFlags &&& rfc5050Flags) flagIsFragment = b.isFragmented := by
  have hmask : rfc5050Flags &&& flagIsFragment = flagIsFragment := by decide
  rw [Bundle.isFragmented, hasFlag, hasFlag, UInt32.and_assoc, hmask]

theorem dictionary_eq (b : Bundle) :
    bundle6SerializeDictionary b =
      [b.destination, b.source, b.reportTo, b.currentCustodian].flatMap writeEid ++
        (b.blocks.flatMap (·.eidRefs)).flatMap writeEid := by
  rw [bundle6SerializeDictionary, dictEids, List.flatMap_append]

/-- **The primary block** behind its length. -/
theorem takes_primaryRest
    (hvalid : ∀ eid ∈ [b.destination, b.source, b.reportTo, b.currentCustodian], ValidEid eid)
    (hdict : (bundle6SerializeDictionary b).length < 2 ^ 16)
    (hs : Standing s .destinationEidScheme)
    (hquota : s.currentSize.toNat + (bundle6SerializeDictionary b).length + 1 ≤
      q.bundleQuota.toNat)
    (hbundle : s.bundle = { bundleInit with
      protocolVersion := b.protocolVersion
      procFlags := b.procFlags &&& rfc5050Flags
      primaryBlockLength := b.primaryBlockLength })
    (hsent : s.sent = none) :
    ∃ s', Takes q s (serializePrimaryRest b) s' ∧
      AtBlock (bundle6SerializeDictionary b) (readPrimary b) s' ∧
      s'.currentSize.toNat =
        s.currentSize.toNat + (bundle6SerializeDictionary b).length + 1 := by
  obtain ⟨dict, hdictEq⟩ : ∃ dict, dict = bundle6SerializeDictionary b := ⟨_, rfl⟩
  rw [← hdictEq] at hdict hquota ⊢
  have hlen : (UInt16.ofNat dict.length).toNat = dict.length := by
    rw [UInt16.toNat_ofNat', Nat.mod_eq_of_lt hdict]
  have hlen32 : (UInt16.ofNat dict.length).toUInt32.toNat = dict.length := by
    rw [UInt16.toNat_toUInt32, hlen]
  -- there are four EIDs, so that the dictionary is not empty
  have hlong : 0 < dict.length := by
    have hfirst : 0 < (writeEid b.destination).length := by
      rw [length_writeEid]
      omega
    rw [hdictEq, dictionary_eq]
    simp only [List.flatMap_cons, List.length_append]
    omega
  have hne : UInt16.ofNat dict.length ≠ 0 := by
    rw [ne_eq, ← UInt16.toNat_inj, hlen]
    exact hlong.ne'
  have hquotaLt := q.bundleQuota.toNat_lt
  have hsum : (s.currentSize + ((UInt16.ofNat dict.length).toUInt32 + 1)).toNat =
      s.currentSize.toNat + dict.length + 1 := by
    rw [UInt32.toNat_add, UInt32.toNat_add, hlen32]
    have hone : (1 : UInt32).toNat = 1 := rfl
    rw [hone, Nat.mod_eq_of_lt (a := dict.length + 1) (by omega), Nat.mod_eq_of_lt (by omega)]
    omega
  -- the offsets
  obtain ⟨i₁, i₂, i₃, i₄, hinfos⟩ : ∃ i₁ i₂ i₃ i₄, (bundle6CalculateDict b).1 = [i₁, i₂, i₃, i₄] :=
    ⟨_, _, _, _, rfl⟩
  obtain ⟨s₁, h₁, hs₁, hoff⟩ := takes_offsets (q := q) hs i₁ i₂ i₃ i₄
  -- the times
  obtain ⟨s₂, h₂, hs₂, hrefs, hsize₂, hb₂, hdict₂, hlen₂, hcount₂⟩ :=
    takes_times (q := q) hs₁ (b.creationTimestampMs / 1000) b.sequenceNumber
      (b.lifetimeMs / 1000) hne (by
        rw [hoff.currentSize, UInt32.le_iff_toNat_le, hsum]
        omega)
  -- the dictionary
  have h₃ := takes_dictionary (q := q) (List.length_pos_iff.mp hlong) hs₂
    (by rw [hcount₂, hlen32])
  have hread := @read_dictionary [b.destination, b.source, b.reportTo, b.currentCustodian]
    (fun eid heid => (hvalid eid heid).1) []
    ((b.blocks.flatMap (·.eidRefs)).flatMap writeEid ++ [0]) dict.length
    (by
      rw [hdictEq, dictionary_eq, List.length_append, List.length_nil]
      omega) hdict
  have hfour : (calculateEidInfos ([] : List UInt8).length
      [b.destination, b.source, b.reportTo, b.currentCustodian]).1 = [i₁, i₂, i₃, i₄] := hinfos
  rw [hfour, List.nil_append, ← List.append_assoc, ← dictionary_eq, ← hdictEq] at hread
  simp only [List.map_cons, List.map_nil, List.cons.injEq, and_true] at hread
  rw [normalEid_of_valid (hvalid b.destination (by simp)).2,
    normalEid_of_valid (hvalid b.source (by simp)).2,
    normalEid_of_valid (hvalid b.reportTo (by simp)).2,
    normalEid_of_valid (hvalid b.currentCustodian (by simp)).2] at hread
  obtain ⟨hread₁, hread₂, hread₃, hread₄⟩ := hread
  obtain ⟨s₃, he₃⟩ : ∃ s₃, s₃ = { afterBytes s₂ dict with
      dict := (afterBytes s₂ dict).dict ++ [0]
      currentIndex := (afterBytes s₂ dict).currentIndex + 1 } := ⟨_, rfl⟩
  have hdict₃ : s₃.dict = dict ++ [0] := by
    rw [he₃]
    change s₂.dict ++ dict ++ [0] = _
    rw [hdict₂, List.nil_append]
  have hlen₃ : s₃.dictLength.toNat = dict.length := by
    rw [he₃]
    change s₂.dictLength.toNat = _
    rw [hlen₂, hlen]
  have hk₃ : s₃.destinationEidref = toReference i₁ ∧ s₃.sourceEidref = toReference i₂ ∧
      s₃.reportToEidref = toReference i₃ ∧ s₃.custodianEidref = toReference i₄ ∧
      s₃.bundle = s₂.bundle ∧ s₃.sent = none ∧ s₃.currentSize = s₂.currentSize := by
    rw [he₃]
    exact ⟨hrefs.destination.trans hoff.destination, hrefs.source.trans hoff.source,
      hrefs.reportTo.trans hoff.reportTo, hrefs.custodian.trans hoff.custodian, rfl,
      (hrefs.sent.trans hoff.sent).trans hsent, rfl⟩
  have heids := @readPrimaryEids_eq s₃ b.destination b.source b.reportTo b.currentCustodian
    (by rw [hdict₃, hlen₃, hk₃.1, hread₁]) (by rw [hdict₃, hlen₃, hk₃.2.1, hread₂])
    (by rw [hdict₃, hlen₃, hk₃.2.2.1, hread₃]) (by rw [hdict₃, hlen₃, hk₃.2.2.2.1, hread₄])
  have hb₃ : s₃.bundle = { bundleInit with
      protocolVersion := b.protocolVersion
      procFlags := b.procFlags &&& rfc5050Flags
      primaryBlockLength := b.primaryBlockLength
      creationTimestampMs := b.creationTimestampMs / 1000 * 1000
      sequenceNumber := b.sequenceNumber
      lifetimeMs := b.lifetimeMs / 1000 * 1000 } := by
    rw [hk₃.2.2.2.2.1, hb₂, hoff.bundle, hbundle]
  have hfragment : hasFlag s₃.bundle.procFlags flagIsFragment = b.isFragmented := by
    rw [hb₃]
    exact hasFlag_masked b
  rw [dictionaryRead, ← he₃, heids, hfragment] at h₃
  -- the fields of a fragment
  obtain ⟨s₄, h₄, hat, hsize₄⟩ := takes_fragment (q := q)
    (s := { s₃ with
      bundle := { s₃.bundle with
        destination := b.destination
        source := b.source
        reportTo := b.reportTo
        currentCustodian := b.currentCustodian }
      nextStage := if b.isFragmented then .fragmentOffset else .blockType })
    (by rw [he₃]; exact hs₂.status) (by rw [he₃]; exact hs₂.bulkRead)
    (by rw [he₃]; exact hs₂.currentStage) (by rw [he₃]; exact hs₂.currentBlock) hdict₃ hlen₃ rfl
    hk₃.2.2.2.2.2.1 b.isFragmented rfl b.fragmentOffset b.totalAduLength
  refine ⟨s₄, ?_, ?_, ?_⟩
  · have hall := ((h₁.append h₂).append h₃).append h₄
    have hbytes : serializePrimaryRest b = [i₁, i₂, i₃, i₄].flatMap writeEidInfo ++
        (sdnvWriteU64 (b.creationTimestampMs / 1000) ++ sdnvWriteU64 b.sequenceNumber ++
          sdnvWriteU64 (b.lifetimeMs / 1000) ++ sdnvWriteU16 (UInt16.ofNat dict.length)) ++ dict ++
        (if b.isFragmented then sdnvWriteU32 b.fragmentOffset ++ sdnvWriteU32 b.totalAduLength
          else []) := by
      have hlength := length_dictionary b
      unfold serializePrimaryRest
      dsimp only
      rw [hinfos, hlength, ← hdictEq]
      simp only [List.append_assoc]
    rw [hbytes]
    exact hall
  · have hfinal : (if b.isFragmented = true then
        { { s₃.bundle with
            destination := b.destination
            source := b.source
            reportTo := b.reportTo
            currentCustodian := b.currentCustodian } with
          fragmentOffset := b.fragmentOffset
          totalAduLength := b.totalAduLength }
        else { s₃.bundle with
          destination := b.destination
          source := b.source
          reportTo := b.reportTo
          currentCustodian := b.currentCustodian }) = readPrimary b := by
      rw [hb₃, readPrimary]
      cases b.isFragmented <;> rfl
    rw [← hfinal]
    exact hat
  · have hsize : s₄.currentSize = s.currentSize + ((UInt16.ofNat dict.length).toUInt32 + 1) := by
      rw [hsize₄]
      change s₃.currentSize = _
      rw [hk₃.2.2.2.2.2.2, hsize₂, hoff.currentSize]
    rw [hsize, hsum]

end Bundle6
