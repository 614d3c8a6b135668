import DisruptaBLE.Bundle6.Parser

/-!
# Feeding the parser of version 6

What the parser does with the bytes of a field is one step: `Feeds` for bytes that it takes, and
`Fails` where it stops with an error on the way.  In the primary block it depends on the length of
the block that was read before which of the two happens (`Takes`).
-/

namespace Bundle6

open BundleProcessor
open ClaRx (ParserStatus)

variable (q : Limits)

/-! ## Bytes that are taken -/

/-- The parser takes some bytes, none of them as the data of a block. -/
inductive Feeds : Parser → List UInt8 → Parser → Prop
  | nil {s : Parser} : Feeds s [] s
  | cons {s s' : Parser} {byte : UInt8} {l : List UInt8} :
      s.status = .good → s.bulkRead = false → Feeds (bundle6ParserReadByte q s byte) l s' →
        Feeds s (byte :: l) s'

/-- The parser stops with an error within some bytes. -/
inductive Fails : Parser → List UInt8 → Prop
  | now {s : Parser} {byte : UInt8} {l : List UInt8} :
      s.status = .good → s.bulkRead = false →
        (bundle6ParserReadByte q s byte).status = .error → Fails s (byte :: l)
  | later {s : Parser} {byte : UInt8} {l : List UInt8} :
      s.status = .good → s.bulkRead = false → Fails (bundle6ParserReadByte q s byte) l →
        Fails s (byte :: l)

variable {q} {s s' s'' : Parser} {l l' : List UInt8}

theorem Feeds.append (h : Feeds q s l s') (h' : Feeds q s' l' s'') :
    Feeds q s (l ++ l') s'' := by
  induction h with
  | nil => exact h'
  | cons hgood hbulk _ ih => exact .cons hgood hbulk (ih h')

theorem Feeds.fails (h : Feeds q s l s') (h' : Fails q s' l') :
    Fails q s (l ++ l') := by
  induction h with
  | nil => exact h'
  | cons hgood hbulk _ ih => exact .later hgood hbulk (ih h')

theorem Feeds.single {byte : UInt8} (hgood : s.status = .good) (hbulk : s.bulkRead = false)
    (hread : bundle6ParserReadByte q s byte = s') : Feeds q s [byte] s' := by
  subst hread
  exact .cons hgood hbulk .nil

/-- The loop goes on behind bytes that are taken. -/
theorem Feeds.loop (h : Feeds q s l s') (passes : Nat) (r : List UInt8) :
    bundle6ParserReadLoop q (l.length + passes) s (l ++ r) =
      bundle6ParserReadLoop q passes s' r := by
  induction h with
  | nil => rw [List.length_nil, Nat.zero_add, List.nil_append]
  | @cons s s' byte l hgood hbulk _ ih =>
      have hlength : (byte :: l).length + passes = l.length + passes + 1 := by
        rw [List.length_cons]
        omega
      rw [hlength, List.cons_append, bundle6ParserReadLoop, hgood, hbulk]
      simpa using ih

theorem loop_of_error (passes : Nat) (h : s.status = .error) :
    (bundle6ParserReadLoop q passes s l).1.status = .error := by
  cases passes with
  | zero => exact h
  | succ passes =>
      cases l with
      | nil => exact h
      | cons byte l => simp [bundle6ParserReadLoop, h]

theorem Fails.loop (h : Fails q s l) {passes : Nat} (hpasses : l.length ≤ passes) :
    (bundle6ParserReadLoop q passes s l).1.status = .error := by
  induction h generalizing passes with
  | @now s byte l hgood hbulk herror =>
      obtain ⟨passes, rfl⟩ : ∃ n, passes = n + 1 :=
        Nat.exists_eq_add_one.mpr (Nat.lt_of_lt_of_le (Nat.succ_pos _) hpasses)
      rw [bundle6ParserReadLoop, hgood, hbulk]
      simpa using loop_of_error passes herror
  | @later s byte l hgood hbulk _ ih =>
      obtain ⟨passes, rfl⟩ : ∃ n, passes = n + 1 :=
        Nat.exists_eq_add_one.mpr (Nat.lt_of_lt_of_le (Nat.succ_pos _) hpasses)
      rw [bundle6ParserReadLoop, hgood, hbulk]
      simpa using ih (Nat.le_of_succ_le_succ hpasses)

/-! ## Bytes of the primary block -/

variable (q)

/-- The parser takes some bytes of the primary block, as far as the length of this block allows. -/
structure Takes (s : Parser) (l : List UInt8) (s' : Parser) : Prop where
  feeds : l.length ≤ s.primaryBytesRemaining.toNat → Feeds q s l s'
  fails : s.primaryBytesRemaining.toNat < l.length → ∀ r, Fails q s (l ++ r)
  remaining : s'.primaryBytesRemaining = s.primaryBytesRemaining - UInt16.ofNat l.length

variable {q}

theorem toNat_sub_length {x : UInt16} {n : Nat} (h : n ≤ x.toNat) :
    (x - UInt16.ofNat n).toNat = x.toNat - n := by
  have hlt := x.toNat_lt
  have hn : (UInt16.ofNat n).toNat = n := by
    rw [UInt16.toNat_ofNat', Nat.mod_eq_of_lt (by omega)]
  rw [UInt16.toNat_sub_of_le _ _ (UInt16.le_iff_toNat_le.mpr (by rw [hn]; exact h)), hn]

theorem Takes.append (h : Takes q s l s') (h' : Takes q s' l' s'') :
    Takes q s (l ++ l') s'' := by
  refine ⟨fun hle => ?_, fun hlt r => ?_, ?_⟩
  · rw [List.length_append] at hle
    refine (h.feeds (by omega)).append (h'.feeds ?_)
    rw [h.remaining, toNat_sub_length (by omega)]
    omega
  · rw [List.length_append] at hlt
    rw [List.append_assoc]
    by_cases hfirst : s.primaryBytesRemaining.toNat < l.length
    · exact h.fails hfirst _
    · refine (h.feeds (by omega)).fails (h'.fails ?_ r)
      rw [h.remaining, toNat_sub_length (by omega)]
      omega
  · rw [h'.remaining, h.remaining, List.length_append, UInt16.ofNat_add]
    grind

/-! ## Fields -/

/-- The parser within a field. -/
def within {α : Type} (f : Field α) (s : Parser) (sdnvState : SdnvState) (value : α)
    (remaining : UInt16) : Parser :=
  { f.set s value with sdnvState := sdnvState, primaryBytesRemaining := remaining }

/-- A field is one of the parser's own, and nothing else. -/
structure Field.Lawful {α : Type} (f : Field α) : Prop where
  set_get : ∀ s, f.set s (f.get s) = s
  get_within : ∀ s sdnvState value remaining, f.get (within f s sdnvState value remaining) = value
  set_within : ∀ s sdnvState value remaining sdnvState' value',
    f.set { within f s sdnvState value remaining with sdnvState := sdnvState' } value' =
      within f s sdnvState' value' remaining
  status : ∀ s value, (f.set s value).status = s.status
  bulkRead : ∀ s value, (f.set s value).bulkRead = s.bulkRead
  currentStage : ∀ s value, (f.set s value).currentStage = s.currentStage
  nextStage : ∀ s value, (f.set s value).nextStage = s.nextStage
  currentBlock : ∀ s value, (f.set s value).currentBlock = s.currentBlock

namespace Field

theorem procFlags_lawful : procFlags.Lawful := by constructor <;> intros <;> rfl

theorem primaryBlockLength_lawful : primaryBlockLength.Lawful := by constructor <;> intros <;> rfl

theorem destinationScheme_lawful : destinationScheme.Lawful := by constructor <;> intros <;> rfl

theorem destinationSsp_lawful : destinationSsp.Lawful := by constructor <;> intros <;> rfl

theorem sourceScheme_lawful : sourceScheme.Lawful := by constructor <;> intros <;> rfl

theorem sourceSsp_lawful : sourceSsp.Lawful := by constructor <;> intros <;> rfl

theorem reportToScheme_lawful : reportToScheme.Lawful := by constructor <;> intros <;> rfl

theorem reportToSsp_lawful : reportToSsp.Lawful := by constructor <;> intros <;> rfl

theorem custodianScheme_lawful : custodianScheme.Lawful := by constructor <;> intros <;> rfl

theorem custodianSsp_lawful : custodianSsp.Lawful := by constructor <;> intros <;> rfl

theorem creationTimestamp_lawful : creationTimestamp.Lawful := by constructor <;> intros <;> rfl

theorem sequenceNumber_lawful : sequenceNumber.Lawful := by constructor <;> intros <;> rfl

theorem lifetime_lawful : lifetime.Lawful := by constructor <;> intros <;> rfl

theorem dictLength_lawful : dictLength.Lawful := by constructor <;> intros <;> rfl

theorem fragmentOffset_lawful : fragmentOffset.Lawful := by constructor <;> intros <;> rfl

theorem totalAduLength_lawful : totalAduLength.Lawful := by constructor <;> intros <;> rfl

theorem eidRefCount_lawful : eidRefCount.Lawful := by constructor <;> intros <;> rfl

theorem eidRefScheme_lawful : eidRefScheme.Lawful := by constructor <;> intros <;> rfl

theorem eidRefSsp_lawful : eidRefSsp.Lawful := by constructor <;> intros <;> rfl

theorem blockLength_lawful : blockLength.Lawful := by constructor <;> intros <;> rfl

/-- The lowest byte of a number is replaced. -/
theorem setLowest_setLowest (flags : UInt32) (x y : UInt8) :
    (UInt32.ofNat (flags.toNat / 256 * 256 + x.toNat)).toNat / 256 * 256 + y.toNat =
      flags.toNat / 256 * 256 + y.toNat := by
  have hflags := flags.toNat_lt
  have hx := x.toNat_lt
  rw [UInt32.toNat_ofNat', Nat.mod_eq_of_lt (by omega)]
  omega

theorem blockFlags_lawful : blockFlags.Lawful where
  set_get := fun s => by
    have hflags : UInt32.ofNat (s.block.flags.toNat / 256 * 256 + s.block.flags.toUInt8.toNat) =
        s.block.flags := by
      rw [← UInt32.toNat_inj, UInt32.toNat_toUInt8, UInt32.toNat_ofNat']
      have hlt := s.block.flags.toNat_lt
      omega
    dsimp only [blockFlags]
    rw [hflags]
  get_within := fun s sdnvState value remaining => by
    change (UInt32.ofNat (s.block.flags.toNat / 256 * 256 + value.toNat)).toUInt8 = value
    rw [← UInt8.toNat_inj, UInt32.toNat_toUInt8, UInt32.toNat_ofNat']
    have hlt := s.block.flags.toNat_lt
    have hvalue := value.toNat_lt
    omega
  set_within := fun s sdnvState value remaining sdnvState' value' => by
    simp only [blockFlags, within, setLowest_setLowest]
  status := fun _ _ => rfl
  bulkRead := fun _ _ => rfl
  currentStage := fun _ _ => rfl
  nextStage := fun _ _ => rfl
  currentBlock := fun _ _ => rfl

end Field

section

variable {α : Type} {f : Field α} {t : Stage} {after : Parser → Parser}
  {sdnvState final : SdnvState}
  {value x : α} {byte : UInt8} {remaining : UInt16}

/-- What is left of the primary block behind a byte. -/
def countDown (s : Parser) (n : Nat) (remaining : UInt16) : UInt16 :=
  if s.currentBlock = .primary then remaining - UInt16.ofNat n else remaining

/-- A stage reads a field, and does something more when it is complete. -/
def ReadsField (f : Field α) (t : Stage) (after : Parser → Parser) (s : Parser) : Prop :=
  ∀ sdnvState value remaining byte,
    stageByte (within f s sdnvState value remaining) byte =
      if (readField f t (within f s sdnvState value remaining) byte).2 then
        after (readField f t (within f s sdnvState value remaining) byte).1
      else (readField f t (within f s sdnvState value remaining) byte).1

theorem readField_within (hf : f.Lawful) {state' : SdnvState} {value' : α}
    (hread : f.read sdnvState value byte = (state', value')) :
    readField f t (within f s sdnvState value remaining) byte =
      bundle6ParserWaitForSdnv (within f s state' value' remaining) t := by
  have hstate : (within f s sdnvState value remaining).sdnvState = sdnvState := rfl
  rw [readField, hf.get_within, hstate, hread]
  dsimp only
  rw [hf.set_within]

theorem count_within (hf : f.Lawful) :
    countPrimaryByte (within f s sdnvState value remaining) =
      within f s sdnvState value (countDown s 1 remaining) := by
  have hblock : (within f s sdnvState value remaining).currentBlock = s.currentBlock :=
    hf.currentBlock s value
  unfold countPrimaryByte countDown
  by_cases h : s.currentBlock = .primary
  · rw [if_pos (hblock.trans h), if_pos h]
    rfl
  · rw [if_neg (fun hprimary => h (hblock.symm.trans hprimary)), if_neg h]

/-- A byte within a field. -/
theorem readByte_within (hf : f.Lawful) (hstage : ReadsField f t after s)
    (hsame : s.currentStage = s.nextStage)
    (hremaining : s.currentBlock = .primary → lengthKnown s = true → remaining ≠ 0)
    {state' : SdnvState} {value' : α} (hread : f.read sdnvState value byte = (state', value')) :
    (state'.status = .inProgress →
      bundle6ParserReadByte q (within f s sdnvState value remaining) byte =
        within f s state' value' (countDown s 1 remaining)) ∧
    (state'.status = .done →
      bundle6ParserReadByte q (within f s sdnvState value remaining) byte =
        changeStage q
          (after { within f s state' value' (countDown s 1 remaining) with nextStage := t })) := by
  have hblock : (within f s sdnvState value remaining).currentBlock = s.currentBlock :=
    hf.currentBlock s value
  have hcurrent : (within f s sdnvState value remaining).currentStage = s.currentStage :=
    hf.currentStage s value
  have hknown : lengthKnown (within f s sdnvState value remaining) = lengthKnown s := by
    rw [lengthKnown, lengthKnown, hcurrent]
  have hleft : (within f s sdnvState value remaining).primaryBytesRemaining = remaining := rfl
  unfold bundle6ParserReadByte
  rw [hblock, hknown, hleft, if_neg (fun h => hremaining h.1 h.2.1 h.2.2), count_within hf, hstage,
    readField_within hf hread]
  unfold bundle6ParserWaitForSdnv
  have hstate : (within f s state' value' (countDown s 1 remaining)).sdnvState = state' := rfl
  rw [hstate]
  constructor
  · intro hstatus
    have hcurrent' : (within f s state' value' (countDown s 1 remaining)).currentStage =
        s.currentStage := hf.currentStage s value'
    have hnext' : (within f s state' value' (countDown s 1 remaining)).nextStage =
        s.nextStage := hf.nextStage s value'
    rw [hstatus]
    simp [changeStage, hcurrent', hnext', hsame]
  · intro hstatus
    rw [hstatus]
    rfl

theorem countDown_countDown (s : Parser) (m n : Nat) (remaining : UInt16) :
    countDown s n (countDown s m remaining) = countDown s (m + n) remaining := by
  unfold countDown
  split
  · rw [UInt16.ofNat_add]
    grind
  · rfl

theorem within_status (hf : f.Lawful) (hgood : s.status = .good) :
    (within f s sdnvState value remaining).status = .good :=
  (hf.status s value).trans hgood

theorem within_bulkRead (hf : f.Lawful) (hbulk : s.bulkRead = false) :
    (within f s sdnvState value remaining).bulkRead = false :=
  (hf.bulkRead s value).trans hbulk

/-- **The bytes of a field** are taken while the primary block has them. -/
theorem feeds_within {bytes : List UInt8} (hreads : Reads f.read sdnvState value bytes final x)
    (hf : f.Lawful) (hstage : ReadsField f t after s) (hgood : s.status = .good)
    (hbulk : s.bulkRead = false) (hsame : s.currentStage = s.nextStage)
    (hremaining : s.currentBlock = .primary → lengthKnown s = true →
      bytes.length ≤ remaining.toNat) :
    Feeds q (within f s sdnvState value remaining) bytes
      (changeStage q
        (after
          { within f s final x (countDown s bytes.length remaining) with nextStage := t })) := by
  induction hreads generalizing remaining with
  | last hread hstatus =>
      have hne : s.currentBlock = .primary → lengthKnown s = true → remaining ≠ 0 := by
        rintro hprimary hknown rfl
        have hle := hremaining hprimary hknown
        simp at hle
      exact .single (within_status hf hgood) (within_bulkRead hf hbulk)
        ((readByte_within hf hstage hsame hne hread).2 hstatus)
  | @more state state' final value value' result byte bytes hread hstatus _ ih =>
      have hne : s.currentBlock = .primary → lengthKnown s = true → remaining ≠ 0 := by
        rintro hprimary hknown rfl
        have hle := hremaining hprimary hknown
        simp at hle
      have hbyte := (readByte_within (q := q) hf hstage hsame hne hread).1 hstatus
      have hrest := @ih (countDown s 1 remaining) (fun hprimary hknown => by
        have hle := hremaining hprimary hknown
        rw [List.length_cons] at hle
        rw [countDown, if_pos hprimary, toNat_sub_length (by omega)]
        omega)
      rw [countDown_countDown, Nat.add_comm] at hrest
      refine .cons (within_status hf hgood) (within_bulkRead hf hbulk) ?_
      rw [hbyte]
      exact hrest

/-- The bytes of a field end the parsing where the primary block ends before. -/
theorem fails_within {bytes : List UInt8} (hreads : Reads f.read sdnvState value bytes final x)
    (hf : f.Lawful) (hstage : ReadsField f t after s) (hgood : s.status = .good)
    (hbulk : s.bulkRead = false) (hsame : s.currentStage = s.nextStage)
    (hprimary : s.currentBlock = .primary) (hknown : lengthKnown s = true)
    (hlt : remaining.toNat < bytes.length) (r : List UInt8) :
    Fails q (within f s sdnvState value remaining) (bytes ++ r) := by
  have hzero {sdnvState : SdnvState} {value : α} {byte : UInt8} :
      (bundle6ParserReadByte q (within f s sdnvState value 0) byte).status = .error := by
    have hblock : (within f s sdnvState value 0).currentBlock = .primary :=
      (hf.currentBlock s value).trans hprimary
    have hlength : lengthKnown (within f s sdnvState value 0) = true := by
      have hcurrent : (within f s sdnvState value 0).currentStage = s.currentStage :=
        hf.currentStage s value
      rw [lengthKnown, hcurrent]
      exact hknown
    rw [bundle6ParserReadByte, if_pos ⟨hblock, hlength, rfl⟩]
  induction hreads generalizing remaining with
  | last hread hstatus =>
      have hremaining : remaining = 0 := by
        rw [← UInt16.toNat_inj]
        simpa using hlt
      rw [hremaining]
      exact .now (within_status hf hgood) (within_bulkRead hf hbulk) hzero
  | @more state state' final value value' result byte bytes hread hstatus _ ih =>
      by_cases hremaining : remaining = 0
      · rw [hremaining]
        exact .now (within_status hf hgood) (within_bulkRead hf hbulk) hzero
      · have hpos : 0 < remaining.toNat :=
          Nat.pos_of_ne_zero fun h => hremaining (UInt16.toNat_inj.mp h)
        have hbyte := (readByte_within (q := q) hf hstage hsame
          (fun _ _ => hremaining) hread).1 hstatus
        refine .later (within_status hf hgood) (within_bulkRead hf hbulk) ?_
        rw [hbyte]
        apply ih
        rw [List.length_cons] at hlt
        rw [countDown, if_pos hprimary, toNat_sub_length hpos]
        omega

end

/-! ## Stages of the primary block -/

/-- The parser stands before a stage of the primary block. -/
structure Standing (s : Parser) (stage : Stage) : Prop where
  status : s.status = .good
  bulkRead : s.bulkRead = false
  currentStage : s.currentStage = stage
  nextStage : s.nextStage = stage
  sdnvState : s.sdnvState = sdnvReset
  currentBlock : s.currentBlock = .primary

/-- The stages behind which the length of the primary block is known. -/
def Stage.lengthKnown : Stage → Bool
  | .version | .procFlags | .blockLength => false
  | _ => true

/-- The stages that begin with a number, and with nothing else. -/
def Stage.plain : Stage → Bool
  | .procFlags | .blockLength | .destinationEidSsp | .sourceEidScheme | .sourceEidSsp
  | .reportEidScheme | .reportEidSsp | .custodianEidScheme | .custodianEidSsp | .timestamp
  | .lifetime | .fragmentOffset | .aduLength | .blockFlags | .blockEidRefCnt | .blockEidRefSch
  | .blockEidRefSsp | .blockDataLength => true
  | _ => false

theorem enterStage_plain (h : s.nextStage.plain = true) :
    enterStage q s = { s with sdnvState := sdnvReset } := by
  unfold enterStage
  cases hnext : s.nextStage <;> simp_all [Stage.plain]

/-- The parser enters a stage that begins with a number. -/
theorem changeStage_plain (hgood : s.status ≠ .error) (hne : s.currentStage ≠ s.nextStage)
    (h : s.nextStage.plain = true) :
    changeStage q s = { s with sdnvState := sdnvReset, currentStage := s.nextStage } := by
  have hdone : s.nextStage ≠ .done := by
    rintro hdone
    rw [hdone] at h
    cases h
  rw [changeStage, if_pos ⟨hne, hgood⟩, bundle6ParserNext, enterStage_plain h]
  simp [hdone]

section

variable {α : Type} {f : Field α} {σ t : Stage} {x : α} {final : SdnvState} {bytes : List UInt8}

/-- The parser behind a field. -/
def behind (f : Field α) (s : Parser) (x : α) (n : Nat) (t : Stage) : Parser :=
  { f.set s x with
    sdnvState := sdnvReset
    primaryBytesRemaining := s.primaryBytesRemaining - UInt16.ofNat n
    currentStage := t
    nextStage := t }

theorem readsField_of_stage (hf : f.Lawful) (hcurrent : s.currentStage = σ)
    (hstage : ∀ s byte, s.currentStage = σ → stageByte s byte = (readField f t s byte).1) :
    ReadsField f t id s := by
  intro sdnvState value remaining byte
  have hwithin : (within f s sdnvState value remaining).currentStage = σ :=
    (hf.currentStage s value).trans hcurrent
  rw [hstage _ byte hwithin]
  split <;> rfl

/-- Only where the length of the primary block becomes known it counts from another number. -/
theorem changeStage_remaining {s : Parser} (hnext : s.nextStage ≠ .destinationEidScheme) :
    (changeStage q s).primaryBytesRemaining = s.primaryBytesRemaining := by
  unfold changeStage bundle6ParserNext bundle6ParserSendBundle enterStage
  cases hstage : s.nextStage with
  | destinationEidScheme => exact absurd hstage hnext
  | _ =>
      simp only
      split_ifs <;> rfl

/-- A field is taken where the length of the primary block does not matter. -/
theorem feeds_field {after : Parser → Parser} (hf : f.Lawful) (hstage : ReadsField f t after s)
    (hgood : s.status = .good) (hbulk : s.bulkRead = false) (hsame : s.currentStage = s.nextStage)
    (hsdnv : s.sdnvState = sdnvReset) (hfree : s.currentBlock = .primary → lengthKnown s = false)
    (hreads : Reads f.read sdnvReset (f.get s) bytes final x) :
    Feeds q s bytes
      (changeStage q (after { within f s final x
        (countDown s bytes.length s.primaryBytesRemaining) with nextStage := t })) := by
  have hstart : within f s sdnvReset (f.get s) s.primaryBytesRemaining = s := by
    rw [within, hf.set_get, ← hsdnv]
  have hfeeds : Feeds q (within f s sdnvReset (f.get s) s.primaryBytesRemaining) bytes
      (changeStage q (after { within f s final x
        (countDown s bytes.length s.primaryBytesRemaining) with nextStage := t })) :=
    feeds_within hreads hf hstage hgood hbulk hsame (fun hprimary hknown => by
      rw [hfree hprimary] at hknown
      cases hknown)
  rwa [hstart] at hfeeds

/-- **A field of the primary block** is taken. -/
theorem takes_field (hf : f.Lawful) (hs : Standing s σ) (hknown : σ.lengthKnown = true)
    (hstage : ∀ s byte, s.currentStage = σ → stageByte s byte = (readField f t s byte).1)
    (hreads : Reads f.read sdnvReset (f.get s) bytes final x) (ht : t ≠ .destinationEidScheme) :
    Takes q s bytes
      (changeStage q { within f s final x
        (s.primaryBytesRemaining - UInt16.ofNat bytes.length) with nextStage := t }) := by
  have hstart : within f s sdnvReset (f.get s) s.primaryBytesRemaining = s := by
    rw [within, hf.set_get, ← hs.sdnvState]
  have hreadsField := readsField_of_stage hf hs.currentStage hstage
  have hlength : lengthKnown s = true := by
    rw [lengthKnown, hs.currentStage]
    exact hknown
  have hsame : s.currentStage = s.nextStage := hs.currentStage.trans hs.nextStage.symm
  refine ⟨fun hle => ?_, fun hlt r => ?_, ?_⟩
  · have hfeeds : Feeds q (within f s sdnvReset (f.get s) s.primaryBytesRemaining) bytes _ :=
      feeds_within hreads hf hreadsField hs.status hs.bulkRead hsame (fun _ _ => hle)
    rw [hstart, countDown, if_pos hs.currentBlock] at hfeeds
    exact hfeeds
  · have hfails : Fails q (within f s sdnvReset (f.get s) s.primaryBytesRemaining) (bytes ++ r) :=
      fails_within hreads hf hreadsField hs.status hs.bulkRead hsame hs.currentBlock hlength hlt r
    rwa [hstart] at hfails
  · rw [changeStage_remaining (show t ≠ .destinationEidScheme from ht)]
    rfl

theorem changeStage_of_ne (hgood : s.status = .good) (hne : s.currentStage ≠ s.nextStage) :
    changeStage q s = bundle6ParserNext q s := by
  rw [changeStage, if_pos ⟨hne, by rw [hgood]; decide⟩]

/-- The parser at the end of a field. -/
def leaving (f : Field α) (s : Parser) (final : SdnvState) (x : α) (n : Nat) (t : Stage) : Parser :=
  { within f s final x (s.primaryBytesRemaining - UInt16.ofNat n) with nextStage := t }

/-- A field before any other stage. -/
theorem takes_next (hf : f.Lawful) (hs : Standing s σ) (hknown : σ.lengthKnown = true)
    (hstage : ∀ s byte, s.currentStage = σ → stageByte s byte = (readField f t s byte).1)
    (hreads : Reads f.read sdnvReset (f.get s) bytes final x) (ht : t ≠ .destinationEidScheme)
    (hne : σ ≠ t) :
    Takes q s bytes (bundle6ParserNext q (leaving f s final x bytes.length t)) := by
  have htakes := takes_field (q := q) hf hs hknown hstage hreads ht
  have hcurrent : (leaving f s final x bytes.length t).currentStage = σ :=
    (hf.currentStage s x).trans hs.currentStage
  have hstatus : (leaving f s final x bytes.length t).status = .good :=
    (hf.status s x).trans hs.status
  rwa [← leaving, changeStage_of_ne hstatus (by rw [hcurrent]; exact hne)] at htakes

/-- A field before a stage that begins with a number. -/
theorem takes_plain (hf : f.Lawful) (hs : Standing s σ) (hknown : σ.lengthKnown = true)
    (hstage : ∀ s byte, s.currentStage = σ → stageByte s byte = (readField f t s byte).1)
    (hreads : Reads f.read sdnvReset (f.get s) bytes final x) (hne : σ ≠ t)
    (ht : t.plain = true) :
    Takes q s bytes (behind f s x bytes.length t) ∧
      Standing (behind f s x bytes.length t) t := by
  have hdestination : t ≠ .destinationEidScheme := by
    rintro rfl
    cases ht
  have htakes := takes_field (q := q) hf hs hknown hstage hreads hdestination
  have hstatus : (within f s final x
      (s.primaryBytesRemaining - UInt16.ofNat bytes.length)).status = .good :=
    within_status hf hs.status
  have hcurrent : (within f s final x
      (s.primaryBytesRemaining - UInt16.ofNat bytes.length)).currentStage = σ :=
    (hf.currentStage s x).trans hs.currentStage
  rw [changeStage_plain (by rw [hstatus]; decide) (by rw [hcurrent]; exact hne) ht] at htakes
  exact ⟨htakes, hstatus, (hf.bulkRead s x).trans hs.bulkRead, rfl, rfl, rfl,
    (hf.currentBlock s x).trans hs.currentBlock⟩

end

end Bundle6
