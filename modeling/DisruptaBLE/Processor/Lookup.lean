import DisruptaBLE.Processor.Custody

/-!
# Looking up accepted bundles

`custody_manager_has_redundant_bundle` and `custody_manager_get_by_record` over any set of
accepted bundles.  Both take all fields of what they look for from a bundle or from a record, whose
sequence numbers have 64 bits; the parameter of `find` has 16 bits.

`custody_lookup_iff` says when the answers are right nevertheless.  A bundle whose own number does
not fit is never found again (`large_number_missed`).
-/

namespace BundleProcessor

open PtrHeap Outcome

/-- What the fields of a bundle or of a record say about the bundle that is looked for. -/
structure BundleKey where
  creationTimestampMs : UInt64
  sequenceNumber : UInt64
  source : CStr
  fragmentOffset : UInt32
  fragmentLength : UInt32
  deriving DecidableEq, Repr

/-- The bundle that `custody_manager_has_redundant_bundle` looks for. -/
def Bundle.key (b : Bundle) : BundleKey where
  creationTimestampMs := b.creationTimestampMs
  sequenceNumber := b.sequenceNumber
  source := b.source
  fragmentOffset := b.fragmentOffset
  fragmentLength := b.payloadLength

/-- The bundle that `custody_manager_get_by_record` looks for. -/
def AdministrativeRecord.key (r : AdministrativeRecord) : BundleKey where
  creationTimestampMs := r.bundleCreationTimestampMs
  sequenceNumber := r.bundleSequenceNumber
  source := r.bundleSourceEid
  fragmentOffset := r.fragmentOffset
  fragmentLength := r.fragmentLength

namespace BundleKey

/-- A bundle has the fields of the key; the offset and the length matter for fragments. -/
structure Names (k : BundleKey) (c : Bundle) : Prop where
  creationTimestampMs : c.creationTimestampMs = k.creationTimestampMs
  sequenceNumber : c.sequenceNumber = k.sequenceNumber
  source : c.source = k.source
  fragment : c.isFragmented = true →
    c.fragmentOffset = k.fragmentOffset ∧ c.payloadLength = k.fragmentLength

/-- The key after its sequence number was passed on to `find`. -/
def lowBits (k : BundleKey) : BundleKey :=
  { k with sequenceNumber := k.sequenceNumber.toUInt16.toUInt64 }

/-- The sequence number has at most 16 bits. -/
def NumberFits (k : BundleKey) : Prop := k.sequenceNumber.toNat < 2 ^ 16

theorem toNat_low (q : UInt64) : q.toUInt16.toUInt64.toNat = q.toNat % 2 ^ 16 := by
  simp

theorem lowBits_eq_iff (k : BundleKey) : k.lowBits = k ↔ k.NumberFits := by
  have hlow := toNat_low k.sequenceNumber
  constructor
  · intro h
    have hnumber : k.sequenceNumber.toUInt16.toUInt64 = k.sequenceNumber :=
      congrArg BundleKey.sequenceNumber h
    rw [hnumber] at hlow
    unfold NumberFits
    omega
  · intro h
    have hnumber : k.sequenceNumber.toUInt16.toUInt64 = k.sequenceNumber :=
      UInt64.toNat_inj.mp (hlow.trans (Nat.mod_eq_of_lt h))
    unfold lowBits
    rw [hnumber]

/-- The test of `find`, as `custodyMatch` writes it. -/
theorem custodyMatch_eq_true (k : BundleKey) (c : Bundle) :
    custodyMatch k.creationTimestampMs k.sequenceNumber.toUInt16 k.source k.fragmentOffset
      k.fragmentLength c = true ↔ k.lowBits.Names c := by
  unfold custodyMatch
  constructor
  · intro h
    simp only [Bool.and_eq_true, Bool.or_eq_true, Bool.not_eq_true', decide_eq_true_eq] at h
    obtain ⟨⟨⟨htime, hnumber⟩, hsource⟩, hfragment⟩ := h
    refine ⟨htime, hnumber, hsource, fun hfrag => ?_⟩
    rcases hfragment with hwhole | hsame
    · rw [hfrag] at hwhole
      cases hwhole
    · exact hsame
  · rintro ⟨htime, hnumber, hsource, hfragment⟩
    simp only [Bool.and_eq_true, Bool.or_eq_true, Bool.not_eq_true', decide_eq_true_eq]
    refine ⟨⟨⟨htime, hnumber⟩, hsource⟩, ?_⟩
    cases hfrag : c.isFragmented with
    | false => exact .inl rfl
    | true => exact .inr (hfragment hfrag)

end BundleKey

/-- One of the accepted bundles has the fields of a key. -/
def InCustody (s : Processor) (k : BundleKey) (x : Addr) : Prop :=
  x ∈ s.accepted ∧ ∃ c, s.bundles.cells x = some c ∧ k.Names c

/-- **The property** of `custody_manager_has_redundant_bundle`. -/
def ReportsRedundancy (s : Processor) (a : Addr) (b : Bundle) : Prop :=
  ∃ found, custodyManagerHasRedundantBundle s a = .ok found ∧
    (found = true ↔ ∃ x, InCustody s b.key x)

/-- **The property** of `custody_manager_get_by_record`. -/
def FindsByRecord (s : Processor) (r : AdministrativeRecord) : Prop :=
  ∃ found, custodyManagerGetByRecord s r = .ok found ∧
    (found.isSome = true ↔ ∃ x, InCustody s r.key x) ∧ ∀ x, found = some x → InCustody s r.key x

variable {s : Processor} {a : Addr} {b : Bundle}

/-- What `find` finds: a bundle with the low bits of the number. -/
theorem find_spec (hlive : AcceptedLive s) (k : BundleKey) :
    ∃ found, custodyFind s k.creationTimestampMs k.sequenceNumber.toUInt16 k.source
        k.fragmentOffset k.fragmentLength s.accepted = .ok found ∧
      (found.isSome = true ↔ ∃ x, InCustody s k.lowBits x) ∧
      ∀ x, found = some x → InCustody s k.lowBits x := by
  refine ⟨_, custodyFind_eq _ _ _ _ _ hlive, ?_, ?_⟩
  · rw [List.find?_isSome]
    constructor
    · rintro ⟨x, hx, hmatch⟩
      obtain ⟨c, hc⟩ := hlive x hx
      rw [hc] at hmatch
      exact ⟨x, hx, c, hc, (k.custodyMatch_eq_true c).mp hmatch⟩
    · rintro ⟨x, hx, c, hc, hnames⟩
      refine ⟨x, hx, ?_⟩
      rw [hc]
      exact (k.custodyMatch_eq_true c).mpr hnames
  · intro x hfind
    have hx := List.mem_of_find?_eq_some hfind
    have hmatch := List.find?_some hfind
    obtain ⟨c, hc⟩ := hlive x hx
    rw [hc] at hmatch
    exact ⟨hx, c, hc, (k.custodyMatch_eq_true c).mp hmatch⟩

/-- No bundle has both a number that does not fit and its low bits. -/
theorem InCustody.numberFits {k : BundleKey} {x : Addr} (hfull : InCustody s k x)
    (hlow : InCustody s k.lowBits x) : k.NumberFits := by
  obtain ⟨_, c, hc, hnames⟩ := hfull
  obtain ⟨_, c', hc', hnames'⟩ := hlow
  obtain rfl : c = c' := Option.some.inj (hc.symm.trans hc')
  have hnumber : k.sequenceNumber.toUInt16.toUInt64 = k.sequenceNumber :=
    hnames'.sequenceNumber.symm.trans hnames.sequenceNumber
  rw [← BundleKey.lowBits_eq_iff]
  unfold BundleKey.lowBits
  rw [hnumber]

/-- **When a bundle is reported as redundant rightly**: its number has at most 16 bits, or there are
accepted bundles both with this number and with its low bits, or with neither of them. -/
theorem reportsRedundancy_iff (hlive : AcceptedLive s) (hb : s.bundles.cells a = some b) :
    ReportsRedundancy s a b ↔
      b.key.NumberFits ∨ ((∃ x, InCustody s b.key x) ↔ ∃ x, InCustody s b.key.lowBits x) := by
  obtain ⟨found, hfind, hsome, _⟩ := find_spec hlive b.key
  have hanswer : custodyManagerHasRedundantBundle s a = .ok found.isSome := by
    have hcall : custodyFind s b.creationTimestampMs b.sequenceNumber.toUInt16 b.source
        b.fragmentOffset b.payloadLength s.accepted = .ok found := hfind
    unfold custodyManagerHasRedundantBundle
    rw [bundle_of_cell hb, ok_bind, hcall, ok_bind]
    rfl
  constructor
  · rintro ⟨answer, hrun, hright⟩
    obtain rfl := Except.ok.inj (hanswer.symm.trans hrun)
    exact .inr (hright.symm.trans hsome)
  · intro h
    refine ⟨found.isSome, hanswer, ?_⟩
    rcases h with hfits | hsame
    · rwa [(BundleKey.lowBits_eq_iff _).mpr hfits] at hsome
    · exact hsome.trans hsame.symm

/-- **When a record leads to the right bundle**: its number has at most 16 bits, or no accepted
bundle has this number or its low bits. -/
theorem findsByRecord_iff (hlive : AcceptedLive s) (r : AdministrativeRecord) :
    FindsByRecord s r ↔
      r.key.NumberFits ∨ ∀ x, ¬ InCustody s r.key x ∧ ¬ InCustody s r.key.lowBits x := by
  obtain ⟨found, hfind, hsome, hheld⟩ := find_spec hlive r.key
  have hanswer : custodyManagerGetByRecord s r = .ok found := hfind
  constructor
  · rintro ⟨answer, hrun, hright, hnamed⟩
    obtain rfl := Except.ok.inj (hanswer.symm.trans hrun)
    cases hfound : found with
    | some x => exact .inl ((hnamed x hfound).numberFits (hheld x hfound))
    | none =>
        rw [hfound] at hright hsome
        exact .inr fun x => ⟨fun hx => absurd (hright.mpr ⟨x, hx⟩) Bool.false_ne_true,
          fun hx => absurd (hsome.mpr ⟨x, hx⟩) Bool.false_ne_true⟩
  · intro h
    refine ⟨found, hanswer, ?_⟩
    rcases h with hfits | hneither
    · rw [(BundleKey.lowBits_eq_iff _).mpr hfits] at hsome hheld
      exact ⟨hsome, hheld⟩
    · constructor
      · rw [hsome]
        exact ⟨fun ⟨x, hx⟩ => absurd hx (hneither x).2, fun ⟨x, hx⟩ => absurd hx (hneither x).1⟩
      · intro x hx
        exact absurd (hheld x hx) (hneither x).2

/-- **The lookups of the custody manager.** -/
theorem custody_lookup_iff (hlive : AcceptedLive s) (hb : s.bundles.cells a = some b)
    (r : AdministrativeRecord) :
    (ReportsRedundancy s a b ↔
      b.key.NumberFits ∨ ((∃ x, InCustody s b.key x) ↔ ∃ x, InCustody s b.key.lowBits x)) ∧
    (FindsByRecord s r ↔
      r.key.NumberFits ∨ ∀ x, ¬ InCustody s r.key x ∧ ¬ InCustody s r.key.lowBits x) :=
  ⟨reportsRedundancy_iff hlive hb, findsByRecord_iff hlive r⟩

/-- **A bundle whose number has more than 16 bits is never found again**: no record about it leads
to it. -/
theorem large_number_missed (hlive : AcceptedLive s) {r : AdministrativeRecord}
    (hlarge : ¬ r.key.NumberFits) {x : Addr} (hx : InCustody s r.key x) :
    custodyManagerGetByRecord s r ≠ .ok (some x) := by
  obtain ⟨found, hfind, _, hheld⟩ := find_spec hlive r.key
  have hanswer : custodyManagerGetByRecord s r = .ok found := hfind
  intro hrun
  obtain rfl := Except.ok.inj (hanswer.symm.trans hrun)
  exact hlarge (hx.numberFits (hheld x rfl))

/-- A node that has accepted one bundle. -/
def oneAccepted (b : Bundle) : Processor :=
  { Processor.init.put 4096 b with accepted := [4096] }

theorem oneAccepted_live (b : Bundle) : AcceptedLive (oneAccepted b) := by
  intro x hx
  obtain rfl := List.mem_singleton.mp hx
  exact ⟨b, put_self _ _ _⟩

/-- A custody signal about a bundle that is not a fragment. -/
def signalAbout (b : Bundle) (sequenceNumber : UInt64) : AdministrativeRecord where
  custodySignal := some ⟨true, csReasonNoInfo⟩
  fragmentOffset := 0
  fragmentLength := b.payloadLength
  bundleCreationTimestampMs := b.creationTimestampMs
  bundleSequenceNumber := sequenceNumber
  bundleSourceEid := b.source

/-- Both lookups find the bundle that a node has accepted. -/
theorem custody_lookup_iff_one :
    ReportsRedundancy (oneAccepted (valuable "dtn://m/b")) 4096 (valuable "dtn://m/b") ∧
      FindsByRecord (oneAccepted (valuable "dtn://m/b"))
        (signalAbout (valuable "dtn://m/b") 1) := by
  have hlookup := custody_lookup_iff (oneAccepted_live (valuable "dtn://m/b")) (put_self _ _ _)
    (signalAbout (valuable "dtn://m/b") 1)
  exact ⟨hlookup.1.mpr (.inl (by decide : (1 : UInt64).toNat < 2 ^ 16)),
    hlookup.2.mpr (.inl (by decide : (1 : UInt64).toNat < 2 ^ 16))⟩

/-- **The wrong bundle.**  A custody signal about the bundle with the sequence number 65537 leads to
the one with the number 1. -/
theorem wrong_bundle_found : ¬ ∀ s, AcceptedLive s → ∀ a b, s.bundles.cells a = some b →
    ∀ r, ReportsRedundancy s a b ∧ FindsByRecord s r := by
  intro hall
  have hfinds := (hall (oneAccepted (valuable "dtn://m/b")) (oneAccepted_live _) 4096 _
    (put_self _ _ _) (signalAbout (valuable "dtn://m/b") 65537)).2
  obtain ⟨found, hrun, _, hheld⟩ := hfinds
  have hfound : custodyManagerGetByRecord (oneAccepted (valuable "dtn://m/b"))
      (signalAbout (valuable "dtn://m/b") 65537) = .ok (some 4096) := rfl
  obtain rfl := Except.ok.inj (hfound.symm.trans hrun)
  obtain ⟨_, c, hc, hnames⟩ := hheld 4096 rfl
  obtain rfl : valuable "dtn://m/b" = c := Option.some.inj ((put_self _ _ _).symm.trans hc)
  exact absurd hnames.sequenceNumber (by decide)

end BundleProcessor
