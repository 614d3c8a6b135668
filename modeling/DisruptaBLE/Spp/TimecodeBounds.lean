import Mathlib.Algebra.GroupWithZero.Nat
import Mathlib.Data.Nat.Find
import DisruptaBLE.Spp.Timecodes

/-!
# How many octets a time code takes

`components/spp/spp_timecodes.c`: the P-field says how many octets of seconds and of fractions
come after it.  Each of its octets may announce another one, and what the other one says is
added.  Nothing compares the sums with the size of the buffer for fractions.

A peer is a sequence of octets without an end, and the parser is fed until it is done or
refuses an octet.  `timecode_bounded_iff` says for which sequences the parser keeps to its
buffer and to its counters, and stops.
-/

namespace Spp

open PtrHeap

/-! ## Definitions -/

/-- What an octet is for. -/
inductive TcTarget where
  | pField
  | baseUnit
  | fractional
  | refused
  deriving DecidableEq, Repr

/-- What the next octet is for. -/
def TcParser.target (p : TcParser) : TcTarget :=
  match p.format.type with
  | .unknown => .pField
  | .unsegmentedCcsdsEpoch => if p.state.hasSecondOctet then .fractional else .baseUnit
  | _ => .refused

/-- The index at which the next octet is written to `fractional_buf`. -/
def TcParser.fractionalIndex (p : TcParser) : Option Nat :=
  match p.target, p.state with
  | .fractional, .unsegmented u => some u.fractionalPtr.toNat
  | _, _ => none

/-- What the first octet of a P-field says of the seconds. -/
def firstBaseUnit (byte : UInt8) : Nat := ((byte &&& 0x0c) >>> 2).toNat + 1

/-- What another octet of a P-field adds to the seconds. -/
def moreBaseUnit (byte : UInt8) : Nat := ((byte &&& 0x60) >>> 5).toNat

/-- What the first octet of a P-field says of the fractions. -/
def firstFractional (byte : UInt8) : Nat := (byte &&& 0x03).toNat

/-- What another octet of a P-field adds to the fractions. -/
def moreFractional (byte : UInt8) : Nat := ((byte &&& 0x1c) >>> 2).toNat

/-- The sum of what the octets of a P-field say. -/
def announced (first more : UInt8 → Nat) : List UInt8 → Nat
  | [] => 0
  | byte :: bytes => first byte + (bytes.map more).sum

/-- The octets of seconds that a P-field announces. -/
def baseUnitSum : List UInt8 → Nat := announced firstBaseUnit moreBaseUnit

/-- The octets of fractions that a P-field announces. -/
def fractionalSum : List UInt8 → Nat := announced firstFractional moreFractional

/-- An octet that makes one of the counters wrap. -/
def TcParser.Wraps (p : TcParser) (byte : UInt8) : Prop :=
  match p.target, p.state with
  | .pField, .preamble true _ =>
      2 ^ 8 ≤ p.format.unsegmented.baseUnitOctets.toNat + moreBaseUnit byte ∨
        2 ^ 8 ≤ p.format.unsegmented.fractionalOctets.toNat + moreFractional byte
  | .baseUnit, .unsegmented u => u.baseUnitRemaining = 0
  | .fractional, .unsegmented u => u.fractionalRemaining = 0 ∨ u.fractionalPtr = 0xff
  | _, _ => False

/-- A parser with the octets that it has accepted. -/
structure TcRun where
  parser : TcParser
  pField : List UInt8
  baseUnit : Nat
  fractional : Nat
  deriving Repr

/-- The parser is fed an octet. -/
def TcRun.feed (r : TcRun) (byte : UInt8) : Except Fault TcRun :=
  match tcParserFeed r.parser byte with
  | .error f => .error f
  | .ok (_, p) =>
      .ok (match r.parser.target with
        | .pField => { r with parser := p, pField := r.pField ++ [byte] }
        | .baseUnit => { r with parser := p, baseUnit := r.baseUnit + 1 }
        | .fractional => { r with parser := p, fractional := r.fractional + 1 }
        | .refused => { r with parser := p })

/-- The parser in front of a time code. -/
def tcRunStart (ctx : TcContext) (p : TcParser) : TcRun := ⟨tcParserInit ctx p, [], 0, 0⟩

/-- The parser is fed octets until it is done or refuses one. -/
def tcRun (ctx : TcContext) (p : TcParser) (octets : Nat → UInt8) : Nat → Except Fault TcRun
  | 0 => .ok (tcRunStart ctx p)
  | n + 1 =>
      match tcRun ctx p octets n with
      | .error f => .error f
      | .ok r => if r.parser.status = .good then r.feed (octets n) else .ok r

/-- The parser keeps to its buffer and to its counters, and the P-field bounds what it takes. -/
structure TcBounded (ctx : TcContext) (p : TcParser) (octets : Nat → UInt8) : Prop where
  writes : ∀ {n r}, tcRun ctx p octets n = .ok r → r.parser.status = .good →
    ∀ i ∈ r.parser.fractionalIndex, i < fractionalMaxOctets
  baseUnit : ∀ {n r}, tcRun ctx p octets n = .ok r → r.baseUnit ≤ 7
  fractional : ∀ {n r}, tcRun ctx p octets n = .ok r → r.fractional ≤ 6
  counters : ∀ {n r}, tcRun ctx p octets n = .ok r → r.parser.status = .good →
    ¬ r.parser.Wraps (octets n)
  stops : ∃ n r, tcRun ctx p octets n = .ok r ∧ r.parser.status ≠ .good ∧
    n ≤ r.pField.length + baseUnitSum r.pField + fractionalSum r.pField

/-- The first octets of a sequence. -/
def firstOctets (octets : Nat → UInt8) (n : Nat) : List UInt8 := (List.range n).map octets

/-- The type that the first octet of a P-field says. -/
def sentType (octets : Nat → UInt8) : TcType := TcType.ofCode ((octets 0 &&& 0x70) >>> 4)

/-- The number of the last octet of a P-field. -/
structure PFieldEnds (octets : Nat → UInt8) (k : Nat) : Prop where
  more : ∀ i < k, octets i &&& 0x80 ≠ 0
  last : octets k &&& 0x80 = 0

/-- The octets that a P-field of a type may announce.  Those of the custom epoch are never read,
so they need only be counted. -/
def announcedLimits : TcType → Option (Nat × Nat)
  | .unsegmentedCcsdsEpoch => some (7, 6)
  | .unsegmentedCustomEpoch => some (255, 255)
  | _ => none

/-- The P-field ends, and does not announce too many octets. -/
def PFieldFits (octets : Nat → UInt8) : Prop :=
  ∀ limits ∈ announcedLimits (sentType octets), ∃ k, PFieldEnds octets k ∧
    baseUnitSum (firstOctets octets (k + 1)) ≤ limits.1 ∧
    fractionalSum (firstOctets octets (k + 1)) ≤ limits.2

/-! ## Sums -/

theorem announced_append {first more : UInt8 → Nat} {pField : List UInt8} (h : pField ≠ [])
    (byte : UInt8) :
    announced first more (pField ++ [byte]) = announced first more pField + more byte := by
  cases pField with
  | nil => exact absurd rfl h
  | cons _ _ =>
      simp only [announced, List.cons_append, List.map_append, List.sum_append, List.map_cons,
        List.map_nil, List.sum_cons, List.sum_nil]
      omega

theorem baseUnitSum_append {pField : List UInt8} (h : pField ≠ []) (byte : UInt8) :
    baseUnitSum (pField ++ [byte]) = baseUnitSum pField + moreBaseUnit byte :=
  announced_append h byte

theorem fractionalSum_append {pField : List UInt8} (h : pField ≠ []) (byte : UInt8) :
    fractionalSum (pField ++ [byte]) = fractionalSum pField + moreFractional byte :=
  announced_append h byte

theorem baseUnitSum_pos {pField : List UInt8} (h : pField ≠ []) : 1 ≤ baseUnitSum pField := by
  cases pField with
  | nil => exact absurd rfl h
  | cons _ _ =>
      simp only [baseUnitSum, announced, firstBaseUnit]
      omega

section Octets

variable {octets : Nat → UInt8}

theorem firstOctets_succ (n : Nat) :
    firstOctets octets (n + 1) = firstOctets octets n ++ [octets n] := by
  rw [firstOctets, List.range_succ, List.map_append]
  rfl

theorem length_firstOctets (n : Nat) : (firstOctets octets n).length = n := by
  rw [firstOctets, List.length_map, List.length_range]

theorem firstOctets_ne_nil {n : Nat} (hn : 1 ≤ n) : firstOctets octets n ≠ [] := by
  apply List.ne_nil_of_length_pos
  rw [length_firstOctets]
  exact hn

end Octets

/-! ## The P-field -/

/-- What a P-field leaves in the format. -/
def described (pField : List UInt8) : UnsegmentedConfig :=
  ⟨UInt8.ofNat (baseUnitSum pField), UInt8.ofNat (fractionalSum pField)⟩

/-- The parser in a P-field that announces another octet. -/
def pFieldRun (type : TcType) (pField : List UInt8) : TcRun :=
  ⟨⟨.good, ⟨.unknown, described pField⟩, .preamble true type⟩, pField, 0, 0⟩

/-- The parser behind a P-field. -/
def describedRun (type : TcType) (pField : List UInt8) : TcRun :=
  ⟨tcStarted ⟨type, described pField⟩, pField, 0, 0⟩

/-- The parser behind an octet of a P-field. -/
def pFieldNext (type : TcType) (pField : List UInt8) (byte : UInt8) : TcRun :=
  if byte &&& 0x80 != 0 then pFieldRun type (pField ++ [byte])
  else describedRun type (pField ++ [byte])

theorem described_first (byte : UInt8) :
    described [byte] = ⟨((byte &&& 0x0c) >>> 2) + 1, byte &&& 0x03⟩ := by
  unfold described baseUnitSum fractionalSum announced firstBaseUnit firstFractional
  simp only [List.map_nil, List.sum_nil, Nat.add_zero, UInt8.ofNat_add, UInt8.ofNat_toNat]
  rfl

theorem described_append {pField : List UInt8} (h : pField ≠ []) (byte : UInt8) :
    described (pField ++ [byte]) =
      ⟨(described pField).baseUnitOctets + ((byte &&& 0x60) >>> 5),
        (described pField).fractionalOctets + ((byte &&& 0x1c) >>> 2)⟩ := by
  unfold described
  rw [baseUnitSum_append h, fractionalSum_append h, moreBaseUnit, moreFractional,
    UInt8.ofNat_add, UInt8.ofNat_add, UInt8.ofNat_toNat, UInt8.ofNat_toNat]

/-- The types whose P-field is read. -/
theorem type_of_limits {type : TcType} {limits : Nat × Nat}
    (h : limits ∈ announcedLimits type) :
    (type = .unsegmentedCcsdsEpoch ∧ limits = (7, 6)) ∨
      (type = .unsegmentedCustomEpoch ∧ limits = (255, 255)) := by
  cases type with
  | unsegmentedCcsdsEpoch => exact .inl ⟨rfl, (Option.some.inj h).symm⟩
  | unsegmentedCustomEpoch => exact .inr ⟨rfl, (Option.some.inj h).symm⟩
  | _ => cases h

/-- The first octet of a P-field. -/
theorem feed_first {ctx : TcContext} (hwith : ctx.withPField = true) (p : TcParser) {byte : UInt8}
    {type : TcType} (htype : TcType.ofCode ((byte &&& 0x70) >>> 4) = type) {limits : Nat × Nat}
    (hlimits : limits ∈ announcedLimits type) :
    (tcRunStart ctx p).feed byte = .ok (pFieldNext type [] byte) := by
  unfold tcRunStart tcParserInit TcRun.feed tcParserFeed tcParserFeedInner tcPfieldFeed
    tcPfieldParseFirst TcParser.target pFieldNext pFieldRun describedRun
  rw [if_pos hwith]
  dsimp only [TcState.hasSecondOctet]
  rw [htype, List.nil_append, described_first]
  rcases type_of_limits hlimits with ⟨rfl, -⟩ | ⟨rfl, -⟩ <;>
    cases byte &&& 0x80 != 0 <;> rfl

/-- Another octet of a P-field. -/
theorem feed_more {type : TcType} {pField : List UInt8} (hne : pField ≠ []) {limits : Nat × Nat}
    (hlimits : limits ∈ announcedLimits type) (byte : UInt8) :
    (pFieldRun type pField).feed byte = .ok (pFieldNext type pField byte) := by
  unfold pFieldNext pFieldRun describedRun TcRun.feed tcParserFeed tcParserFeedInner tcPfieldFeed
    tcPfieldParseSecond TcParser.target
  dsimp only [TcState.hasSecondOctet, TcState.detectedType]
  rw [described_append hne]
  rcases type_of_limits hlimits with ⟨rfl, -⟩ | ⟨rfl, -⟩ <;>
    cases byte &&& 0x80 != 0 <;> rfl

/-- A P-field of another type is refused. -/
theorem feed_refused {ctx : TcContext} (hwith : ctx.withPField = true) (p : TcParser)
    {byte : UInt8} (htype : announcedLimits (TcType.ofCode ((byte &&& 0x70) >>> 4)) = none) :
    ∃ q, (tcRunStart ctx p).feed byte = .ok ⟨q, [byte], 0, 0⟩ ∧ q.status = .error := by
  unfold tcRunStart tcParserInit TcRun.feed tcParserFeed tcParserFeedInner tcPfieldFeed
    tcPfieldParseFirst TcParser.target
  rw [if_pos hwith]
  dsimp only [TcState.hasSecondOctet]
  cases hcode : TcType.ofCode ((byte &&& 0x70) >>> 4) with
  | unsegmentedCcsdsEpoch => rw [hcode] at htype; cases htype
  | unsegmentedCustomEpoch => rw [hcode] at htype; cases htype
  | _ => exact ⟨_, rfl, rfl⟩

section Run

variable {ctx : TcContext} {p : TcParser} {octets : Nat → UInt8} {n k : Nat} {r : TcRun}

/-- A parser that wants an octet gets it. -/
theorem tcRun_succ (hrun : tcRun ctx p octets n = .ok r) (hgood : r.parser.status = .good) :
    tcRun ctx p octets (n + 1) = r.feed (octets n) := by
  rw [tcRun, hrun]
  exact if_pos hgood

/-- A parser that has stopped gets no other octet. -/
theorem tcRun_stopped (hrun : tcRun ctx p octets n = .ok r) (hstop : r.parser.status ≠ .good)
    (m : Nat) : tcRun ctx p octets (n + m) = .ok r := by
  induction m with
  | zero => exact hrun
  | succ m ih =>
      rw [← Nat.add_assoc, tcRun, ih]
      exact if_neg hstop

variable {limits : Nat × Nat}

/-- An octet of a P-field. -/
theorem tcRun_pField_succ (hwith : ctx.withPField = true)
    (hlimits : limits ∈ announcedLimits (sentType octets))
    (hmore : ∀ i < n, octets i &&& 0x80 ≠ 0) :
    tcRun ctx p octets (n + 1) =
      .ok (pFieldNext (sentType octets) (firstOctets octets n) (octets n)) := by
  induction n with
  | zero =>
      have hgood : (tcRunStart ctx p).parser.status = .good := by
        unfold tcRunStart tcParserInit
        rw [if_pos hwith]
      rw [tcRun_succ rfl hgood]
      exact feed_first hwith p rfl hlimits
  | succ n ih =>
      have hrun := ih fun i hi => hmore i (Nat.lt_succ_of_lt hi)
      have hnext : pFieldNext (sentType octets) (firstOctets octets n) (octets n) =
          pFieldRun (sentType octets) (firstOctets octets (n + 1)) := by
        rw [pFieldNext, if_pos (bne_iff_ne.mpr (hmore n (Nat.lt_succ_self n))), firstOctets_succ]
      rw [hnext] at hrun
      rw [tcRun_succ hrun rfl]
      exact feed_more (firstOctets_ne_nil (Nat.le_add_left 1 n)) hlimits (octets (n + 1))

/-- **A P-field** that is not at its end. -/
theorem tcRun_in_pField (hwith : ctx.withPField = true)
    (hlimits : limits ∈ announcedLimits (sentType octets))
    (hmore : ∀ i < n + 1, octets i &&& 0x80 ≠ 0) :
    tcRun ctx p octets (n + 1) =
      .ok (pFieldRun (sentType octets) (firstOctets octets (n + 1))) := by
  rw [tcRun_pField_succ hwith hlimits fun i hi => hmore i (Nat.lt_succ_of_lt hi), pFieldNext,
    if_pos (bne_iff_ne.mpr (hmore n (Nat.lt_succ_self n))), firstOctets_succ]

/-- **A P-field** at its end. -/
theorem tcRun_behind_pField (hwith : ctx.withPField = true)
    (hlimits : limits ∈ announcedLimits (sentType octets)) (hends : PFieldEnds octets k) :
    tcRun ctx p octets (k + 1) =
      .ok (describedRun (sentType octets) (firstOctets octets (k + 1))) := by
  have hlast : ¬ (octets k &&& 0x80 != 0) = true := by
    rw [hends.last]
    decide
  rw [tcRun_pField_succ hwith hlimits hends.more, pFieldNext, if_neg hlast, firstOctets_succ]

/-- A P-field ends if the parser stops. -/
theorem exists_pFieldEnds (hwith : ctx.withPField = true)
    (hlimits : limits ∈ announcedLimits (sentType octets))
    (hstops : ∃ n r, tcRun ctx p octets n = .ok r ∧ r.parser.status ≠ .good) :
    ∃ k, PFieldEnds octets k := by
  by_cases hlast : ∃ k, octets k &&& 0x80 = 0
  · exact ⟨Nat.find hlast, fun _ hi => Nat.find_min hlast hi, Nat.find_spec hlast⟩
  · obtain ⟨n, r, hrun, hstop⟩ := hstops
    have hmore : ∀ i, octets i &&& 0x80 ≠ 0 := fun i hi => hlast ⟨i, hi⟩
    have hlater := tcRun_stopped hrun hstop 1
    rw [tcRun_in_pField hwith hlimits fun i _ => hmore i] at hlater
    obtain rfl := Except.ok.inj hlater
    exact absurd rfl hstop

/-- What is announced only grows. -/
theorem announced_mono {first more : UInt8 → Nat} {i j : Nat} (hij : i ≤ j) :
    announced first more (firstOctets octets (i + 1)) ≤
      announced first more (firstOctets octets (j + 1)) := by
  induction hij with
  | refl => exact Nat.le_refl _
  | @step j _ ih =>
      rw [firstOctets_succ (j + 1), announced_append (firstOctets_ne_nil (Nat.le_add_left 1 j))]
      exact Nat.le_add_right_of_le ih

/-- When another octet of a P-field makes a counter wrap. -/
theorem wraps_pFieldRun {type : TcType} {pField : List UInt8} (hne : pField ≠ [])
    (hbase : baseUnitSum pField < 2 ^ 8) (hfractional : fractionalSum pField < 2 ^ 8)
    (byte : UInt8) :
    (pFieldRun type pField).parser.Wraps byte ↔
      2 ^ 8 ≤ baseUnitSum (pField ++ [byte]) ∨ 2 ^ 8 ≤ fractionalSum (pField ++ [byte]) := by
  have hbaseOctets : (described pField).baseUnitOctets.toNat = baseUnitSum pField :=
    UInt8.toNat_ofNat_of_lt' hbase
  have hfractionalOctets : (described pField).fractionalOctets.toNat = fractionalSum pField :=
    UInt8.toNat_ofNat_of_lt' hfractional
  rw [baseUnitSum_append hne, fractionalSum_append hne, ← hbaseOctets, ← hfractionalOctets]
  exact Iff.rfl

theorem baseUnitSum_one (byte : UInt8) : baseUnitSum [byte] < 2 ^ 8 := by
  have hle : ((byte &&& 0x0c) >>> 2).toNat ≤ 3 := by
    rw [UInt8.toNat_shiftRight, UInt8.toNat_and, Nat.shiftRight_eq_div_pow]
    have hand : byte.toNat &&& (0x0c : UInt8).toNat ≤ (0x0c : UInt8).toNat := Nat.and_le_right
    exact Nat.div_le_div_right hand
  change ((byte &&& 0x0c) >>> 2).toNat + 1 + 0 < 2 ^ 8
  omega

theorem fractionalSum_one (byte : UInt8) : fractionalSum [byte] < 2 ^ 8 := by
  change (byte &&& 0x03).toNat + 0 < 2 ^ 8
  exact (byte &&& 0x03).toNat_lt

/-- **Counters** that do not wrap hold the sums. -/
theorem sums_lt_of_counters (hwith : ctx.withPField = true)
    (hlimits : limits ∈ announcedLimits (sentType octets))
    (hcounters : ∀ {n r}, tcRun ctx p octets n = .ok r → r.parser.status = .good →
      ¬ r.parser.Wraps (octets n))
    (hmore : ∀ i < k, octets i &&& 0x80 ≠ 0) :
    baseUnitSum (firstOctets octets (k + 1)) < 2 ^ 8 ∧
      fractionalSum (firstOctets octets (k + 1)) < 2 ^ 8 := by
  induction k with
  | zero => exact ⟨baseUnitSum_one (octets 0), fractionalSum_one (octets 0)⟩
  | succ k ih =>
      obtain ⟨hbase, hfractional⟩ := ih fun i hi => hmore i (Nat.lt_succ_of_lt hi)
      have hkept := hcounters (tcRun_in_pField hwith hlimits hmore) rfl
      rw [wraps_pFieldRun (firstOctets_ne_nil (Nat.le_add_left 1 k)) hbase hfractional,
        ← firstOctets_succ] at hkept
      omega

end Run

/-! ## The octets behind a P-field -/

/-- The state of a time code of which some octets are read. -/
structure Taking (pField : List UInt8) (i j : Nat) (u : UnsegmentedState) : Prop where
  readBaseUnit : u.readBaseUnit = decide (i = baseUnitSum pField)
  baseUnit : u.baseUnitRemaining.toNat + i = baseUnitSum pField
  fractional : u.fractionalRemaining.toNat + j = fractionalSum pField
  fractionalPtr : u.fractionalPtr.toNat = j

/-- The parser behind `i` octets of seconds and `j` octets of fractions. -/
def takenRun (pField : List UInt8) (i j : Nat) (u : UnsegmentedState) : TcRun :=
  ⟨⟨if i = baseUnitSum pField ∧ j = fractionalSum pField then .done else .good,
    ⟨.unsegmentedCcsdsEpoch, described pField⟩, .unsegmented u⟩, pField, i, j⟩

section Taking

variable {pField : List UInt8} {i j : Nat} {u : UnsegmentedState}

theorem tcParserFeed_unsegmented {status status' : TcParserStatus} {config : UnsegmentedConfig}
    {u' : UnsegmentedState} {byte : UInt8} (hfeed : tcUnsegmentedFeed u byte = .ok (status', u')) :
    tcParserFeed ⟨status, ⟨.unsegmentedCcsdsEpoch, config⟩, .unsegmented u⟩ byte =
      .ok (status', ⟨status', ⟨.unsegmentedCcsdsEpoch, config⟩, .unsegmented u'⟩) := by
  unfold tcParserFeed tcParserFeedInner
  dsimp only
  rw [hfeed]
  rfl

theorem target_takenRun : (takenRun pField i j u).parser.target =
    if u.readBaseUnit then .fractional else .baseUnit := rfl

theorem Taking.in_baseUnit (h : Taking pField i j u) (hi : i < baseUnitSum pField) :
    u.readBaseUnit = false ∧ (takenRun pField i j u).parser.target = .baseUnit := by
  have hread : u.readBaseUnit = false := h.readBaseUnit.trans (decide_eq_false (Nat.ne_of_lt hi))
  refine ⟨hread, ?_⟩
  rw [target_takenRun, hread]
  rfl

theorem Taking.in_fractional (h : Taking pField (baseUnitSum pField) j u) :
    u.readBaseUnit = true ∧
      (takenRun pField (baseUnitSum pField) j u).parser.target = .fractional := by
  have hread : u.readBaseUnit = true := h.readBaseUnit.trans (decide_eq_true rfl)
  refine ⟨hread, ?_⟩
  rw [target_takenRun, hread]
  rfl

/-- No octet is read behind the P-field. -/
theorem exists_taking_start (hne : pField ≠ []) (hbase : baseUnitSum pField < 2 ^ 8)
    (hfractional : fractionalSum pField < 2 ^ 8) :
    ∃ u, describedRun .unsegmentedCcsdsEpoch pField = takenRun pField 0 0 u ∧
      Taking pField 0 0 u := by
  have hpos := baseUnitSum_pos hne
  have hnone : ¬ (0 = baseUnitSum pField ∧ 0 = fractionalSum pField) := by omega
  refine ⟨⟨false, (described pField).baseUnitOctets, (described pField).fractionalOctets, 0, 0,
    List.replicate fractionalMaxOctets 0⟩, ?_, ?_, UInt8.toNat_ofNat_of_lt' hbase,
    UInt8.toNat_ofNat_of_lt' hfractional, rfl⟩
  · unfold takenRun
    rw [if_neg hnone]
    rfl
  · exact (decide_eq_false (by omega)).symm

/-- **An octet of the seconds** is counted down. -/
theorem Taking.feed_baseUnit (h : Taking pField i 0 u) (hi : i < baseUnitSum pField)
    (byte : UInt8) :
    ∃ u', (takenRun pField i 0 u).feed byte = .ok (takenRun pField (i + 1) 0 u') ∧
      Taking pField (i + 1) 0 u' := by
  obtain ⟨hread, htarget⟩ := h.in_baseUnit hi
  have hfractional := h.fractional
  obtain ⟨m, hm⟩ : ∃ m, u.baseUnitRemaining.toNat = m + 1 :=
    ⟨baseUnitSum pField - i - 1, by have := h.baseUnit; omega⟩
  have hleft : (u.appendBase byte).baseUnitRemaining.toNat = m := toNat_sub_one hm
  have hsum : m + (i + 1) = baseUnitSum pField := by
    have := h.baseUnit
    omega
  have hfeed : tcUnsegmentedFeed u byte = .ok (tcUnsegmentedAdvance (u.appendBase byte)) := by
    unfold tcUnsegmentedFeed
    rw [hread]
    rfl
  by_cases hlast : m = 0
  · have hzero := (eq_zero_iff_of_toNat hleft).mpr hlast
    have hend : i + 1 = baseUnitSum pField := by omega
    have hdone : u.fractionalRemaining = 0 ↔ 0 = fractionalSum pField := by
      rw [eq_zero_iff_of_toNat rfl]
      omega
    rw [advance_last_base (by exact hread) hzero] at hfeed
    refine ⟨{ u.appendBase byte with readBaseUnit := true }, ?_, ?_⟩
    · unfold TcRun.feed
      rw [htarget]
      unfold takenRun
      rw [tcParserFeed_unsegmented hfeed]
      change Except.ok (TcRun.mk ⟨if u.fractionalRemaining = 0 then _ else _, _, _⟩ _ _ _) = _
      simp only [hend, hdone, true_and]
    · exact ⟨(decide_eq_true hend).symm, hleft ▸ hsum, hfractional, h.fractionalPtr⟩
  · have hmore := mt (eq_zero_iff_of_toNat hleft).mp hlast
    have hend : ¬ i + 1 = baseUnitSum pField := by omega
    have hwants : ¬ (i + 1 = baseUnitSum pField ∧ 0 = fractionalSum pField) :=
      fun hboth => hend hboth.1
    rw [advance_base (by exact hread) hmore] at hfeed
    refine ⟨u.appendBase byte, ?_, ?_⟩
    · unfold TcRun.feed
      rw [htarget]
      unfold takenRun
      rw [tcParserFeed_unsegmented hfeed, if_neg hwants]
    · exact ⟨hread.trans (decide_eq_false hend).symm, hleft ▸ hsum, hfractional, h.fractionalPtr⟩

/-- **An octet of the fractions** is written to the buffer and counted down. -/
theorem Taking.feed_fractional (h : Taking pField (baseUnitSum pField) j u)
    (hj : j < fractionalSum pField) (hroom : j < fractionalMaxOctets) (byte : UInt8) :
    ∃ u', (takenRun pField (baseUnitSum pField) j u).feed byte =
        .ok (takenRun pField (baseUnitSum pField) (j + 1) u') ∧
      Taking pField (baseUnitSum pField) (j + 1) u' := by
  obtain ⟨hread, htarget⟩ := h.in_fractional
  obtain ⟨m, hm⟩ : ∃ m, u.fractionalRemaining.toNat = m + 1 :=
    ⟨fractionalSum pField - j - 1, by have := h.fractional; omega⟩
  have hleft : (u.appendFractional byte).fractionalRemaining.toNat = m := toNat_sub_one hm
  have hsum : m + (j + 1) = fractionalSum pField := by
    have := h.fractional
    omega
  have hptr : (u.appendFractional byte).fractionalPtr.toNat = j + 1 := by
    have hj' : u.fractionalPtr.toNat = j := h.fractionalPtr
    have hroom' : j < 6 := hroom
    change (u.fractionalPtr.toNat + 1) % 256 = j + 1
    omega
  have hfeed : tcUnsegmentedFeed u byte =
      .ok (tcUnsegmentedAdvance (u.appendFractional byte)) := by
    unfold tcUnsegmentedFeed
    rw [hread, Bool.not_true, if_neg Bool.false_ne_true, if_pos (h.fractionalPtr ▸ hroom)]
  have hdone : (u.appendFractional byte).fractionalRemaining = 0 ↔
      j + 1 = fractionalSum pField := by
    rw [eq_zero_iff_of_toNat hleft]
    omega
  rw [advance_fractional (by exact hread)] at hfeed
  refine ⟨u.appendFractional byte, ?_, h.readBaseUnit, ?_, hleft ▸ hsum, hptr⟩
  · unfold TcRun.feed
    rw [htarget]
    unfold takenRun
    rw [tcParserFeed_unsegmented hfeed]
    simp only [hdone, true_and]
  · exact h.baseUnit

variable {ctx : TcContext} {p : TcParser} {octets : Nat → UInt8} {k : Nat}

/-- **The seconds** behind a P-field. -/
theorem tcRun_baseUnit (hwith : ctx.withPField = true)
    (htype : sentType octets = .unsegmentedCcsdsEpoch) (hends : PFieldEnds octets k)
    (hpField : firstOctets octets (k + 1) = pField) (hbase : baseUnitSum pField < 2 ^ 8)
    (hfractional : fractionalSum pField < 2 ^ 8) (hi : i ≤ baseUnitSum pField) :
    ∃ u, tcRun ctx p octets (k + 1 + i) = .ok (takenRun pField i 0 u) ∧
      Taking pField i 0 u := by
  induction i with
  | zero =>
      have hlimits : (7, 6) ∈ announcedLimits (sentType octets) := by
        rw [htype]
        rfl
      have hne : pField ≠ [] := hpField ▸ firstOctets_ne_nil (Nat.le_add_left 1 k)
      obtain ⟨u, hstart, htaking⟩ := exists_taking_start hne hbase hfractional
      refine ⟨u, ?_, htaking⟩
      rw [← hstart, ← hpField, ← htype]
      exact tcRun_behind_pField hwith hlimits hends
  | succ i ih =>
      obtain ⟨u, hrun, htaking⟩ := ih (Nat.le_of_lt hi)
      have hgood : (takenRun pField i 0 u).parser.status = .good :=
        if_neg fun hboth => Nat.ne_of_lt hi hboth.1
      rw [← Nat.add_assoc, tcRun_succ hrun hgood]
      exact htaking.feed_baseUnit hi (octets (k + 1 + i))

/-- **The fractions** behind the seconds, as far as the buffer goes. -/
theorem tcRun_fractional (hwith : ctx.withPField = true)
    (htype : sentType octets = .unsegmentedCcsdsEpoch) (hends : PFieldEnds octets k)
    (hpField : firstOctets octets (k + 1) = pField) (hbase : baseUnitSum pField < 2 ^ 8)
    (hfractional : fractionalSum pField < 2 ^ 8) (hj : j ≤ fractionalSum pField)
    (hroom : j ≤ fractionalMaxOctets) :
    ∃ u, tcRun ctx p octets (k + 1 + baseUnitSum pField + j) =
        .ok (takenRun pField (baseUnitSum pField) j u) ∧
      Taking pField (baseUnitSum pField) j u := by
  induction j with
  | zero => exact tcRun_baseUnit hwith htype hends hpField hbase hfractional (Nat.le_refl _)
  | succ j ih =>
      obtain ⟨u, hrun, htaking⟩ := ih (Nat.le_of_lt hj) (Nat.le_of_lt hroom)
      have hgood : (takenRun pField (baseUnitSum pField) j u).parser.status = .good :=
        if_neg fun hboth => Nat.ne_of_lt hj hboth.2
      rw [← Nat.add_assoc, tcRun_succ hrun hgood]
      exact htaking.feed_fractional hj hroom _

end Taking

/-! ## The bounds -/

/-- What the bounds say of a parser in front of an octet. -/
structure TcRun.Within (r : TcRun) (byte : UInt8) : Prop where
  writes : r.parser.status = .good → ∀ i ∈ r.parser.fractionalIndex, i < fractionalMaxOctets
  baseUnit : r.baseUnit ≤ 7
  fractional : r.fractional ≤ 6
  counters : r.parser.status = .good → ¬ r.parser.Wraps byte

/-- The bounds hold if they hold in front of each octet. -/
theorem TcBounded.of_within {ctx : TcContext} {p : TcParser} {octets : Nat → UInt8}
    (hwithin : ∀ n, ∃ r, tcRun ctx p octets n = .ok r ∧ r.Within (octets n))
    (hstops : ∃ n r, tcRun ctx p octets n = .ok r ∧ r.parser.status ≠ .good ∧
      n ≤ r.pField.length + baseUnitSum r.pField + fractionalSum r.pField) :
    TcBounded ctx p octets := by
  have hkept : ∀ {n r}, tcRun ctx p octets n = .ok r → r.Within (octets n) := by
    intro n r hrun
    obtain ⟨r', hrun', hr'⟩ := hwithin n
    obtain rfl := Except.ok.inj (hrun'.symm.trans hrun)
    exact hr'
  exact ⟨fun hrun => (hkept hrun).writes, fun hrun => (hkept hrun).baseUnit,
    fun hrun => (hkept hrun).fractional, fun hrun => (hkept hrun).counters, hstops⟩

section Within

variable {ctx : TcContext} {p : TcParser} {pField : List UInt8} {r : TcRun}

theorem within_start (hwith : ctx.withPField = true) (byte : UInt8) :
    (tcRunStart ctx p).Within byte := by
  unfold tcRunStart tcParserInit
  rw [if_pos hwith]
  refine ⟨fun _ i hi => ?_, Nat.zero_le 7, Nat.zero_le 6, fun _ hwraps => hwraps⟩
  cases hi

theorem within_pFieldRun (type : TcType) (hne : pField ≠ []) {byte : UInt8}
    (hbase : baseUnitSum (pField ++ [byte]) < 2 ^ 8)
    (hfractional : fractionalSum (pField ++ [byte]) < 2 ^ 8) :
    (pFieldRun type pField).Within byte := by
  refine ⟨fun _ i hi => ?_, Nat.zero_le 7, Nat.zero_le 6, fun _ hwraps => ?_⟩
  · cases hi
  · have hbase' := baseUnitSum_append hne byte
    have hfractional' := fractionalSum_append hne byte
    rw [wraps_pFieldRun hne (by omega) (by omega)] at hwraps
    omega

/-- A parser that refuses every octet. -/
theorem within_custom (byte : UInt8) :
    (describedRun .unsegmentedCustomEpoch pField).Within byte := by
  refine ⟨fun _ i hi => ?_, Nat.zero_le 7, Nat.zero_le 6, fun _ hwraps => hwraps⟩
  cases hi

theorem within_stopped (hstop : r.parser.status ≠ .good) (hbase : r.baseUnit ≤ 7)
    (hfractional : r.fractional ≤ 6) (byte : UInt8) : r.Within byte :=
  ⟨fun hgood => absurd hgood hstop, hbase, hfractional, fun hgood => absurd hgood hstop⟩

/-- A parser in the seconds. -/
theorem Taking.within_baseUnit {i : Nat} {u : UnsegmentedState} (h : Taking pField i 0 u)
    (hi : i < baseUnitSum pField) (hbase : baseUnitSum pField ≤ 7) (byte : UInt8) :
    (takenRun pField i 0 u).Within byte := by
  have htarget := (h.in_baseUnit hi).2
  refine ⟨fun _ i hi => ?_, by change i ≤ 7; omega, Nat.zero_le 6, fun _ hwraps => ?_⟩
  · unfold TcParser.fractionalIndex at hi
    rw [htarget] at hi
    cases hi
  · unfold TcParser.Wraps at hwraps
    rw [htarget] at hwraps
    have hzero : u.baseUnitRemaining = 0 := hwraps
    have hleft := h.baseUnit
    rw [hzero] at hleft
    exact Nat.ne_of_lt hi ((Nat.zero_add i).symm.trans hleft)

/-- A parser in the fractions. -/
theorem Taking.within_fractional {j : Nat} {u : UnsegmentedState}
    (h : Taking pField (baseUnitSum pField) j u) (hj : j < fractionalSum pField)
    (hbase : baseUnitSum pField ≤ 7) (hfractional : fractionalSum pField ≤ 6) (byte : UInt8) :
    (takenRun pField (baseUnitSum pField) j u).Within byte := by
  have htarget := h.in_fractional.2
  have hptr := h.fractionalPtr
  refine ⟨fun _ i hi => ?_, hbase, by change j ≤ 6; omega, fun _ hwraps => ?_⟩
  · unfold TcParser.fractionalIndex at hi
    rw [htarget] at hi
    have hindex : u.fractionalPtr.toNat = i := Option.some.inj hi
    change i < 6
    omega
  · unfold TcParser.Wraps at hwraps
    rw [htarget] at hwraps
    have hend : u.fractionalRemaining = 0 ∨ u.fractionalPtr = 0xff := hwraps
    rcases hend with hzero | hlast
    · have hleft := h.fractional
      rw [hzero] at hleft
      exact Nat.ne_of_lt hj ((Nat.zero_add j).symm.trans hleft)
    · rw [hlast] at hptr
      change 255 = j at hptr
      omega

variable {octets : Nat → UInt8} {k : Nat} {limits : Nat × Nat}

/-- **A P-field** whose sums fit their counters. -/
theorem within_pField (hwith : ctx.withPField = true)
    (hlimits : limits ∈ announcedLimits (sentType octets)) (hends : PFieldEnds octets k)
    (hbase : baseUnitSum (firstOctets octets (k + 1)) < 2 ^ 8)
    (hfractional : fractionalSum (firstOctets octets (k + 1)) < 2 ^ 8) {n : Nat} (hn : n ≤ k) :
    ∃ r, tcRun ctx p octets n = .ok r ∧ r.Within (octets n) := by
  cases n with
  | zero => exact ⟨_, rfl, within_start hwith (octets 0)⟩
  | succ n =>
      refine ⟨_, tcRun_in_pField hwith hlimits fun i hi => hends.more i (Nat.lt_of_lt_of_le hi hn),
        within_pFieldRun _ (firstOctets_ne_nil (Nat.le_add_left 1 n)) ?_ ?_⟩
      · rw [← firstOctets_succ]
        exact Nat.lt_of_le_of_lt (announced_mono hn) hbase
      · rw [← firstOctets_succ]
        exact Nat.lt_of_le_of_lt (announced_mono hn) hfractional

/-- **Time codes of the custom epoch** are refused behind their P-field. -/
theorem bounded_custom (hwith : ctx.withPField = true)
    (htype : sentType octets = .unsegmentedCustomEpoch) (hends : PFieldEnds octets k)
    (hbase : baseUnitSum (firstOctets octets (k + 1)) ≤ 255)
    (hfractional : fractionalSum (firstOctets octets (k + 1)) ≤ 255) :
    TcBounded ctx p octets := by
  have hlimits : (255, 255) ∈ announcedLimits (sentType octets) := by
    rw [htype]
    rfl
  have hbehind := tcRun_behind_pField (p := p) hwith hlimits hends
  rw [htype] at hbehind
  obtain ⟨r, hrun, hstop, hr, hbaseUnit, hfractionals⟩ : ∃ r,
      tcRun ctx p octets (k + 1 + 1) = .ok r ∧ r.parser.status ≠ .good ∧
        r.pField = firstOctets octets (k + 1) ∧ r.baseUnit = 0 ∧ r.fractional = 0 := by
    rw [tcRun_succ hbehind rfl]
    exact ⟨_, rfl, nofun, rfl, rfl, rfl⟩
  refine .of_within (fun n => ?_) ⟨_, r, hrun, hstop, ?_⟩
  · rcases Nat.lt_trichotomy n (k + 1) with hn | rfl | hn
    · exact within_pField hwith hlimits hends (by omega) (by omega) (Nat.le_of_lt_succ hn)
    · exact ⟨_, hbehind, within_custom (octets (k + 1))⟩
    · obtain ⟨m, rfl⟩ : ∃ m, n = k + 1 + 1 + m := ⟨n - (k + 1 + 1), by omega⟩
      exact ⟨r, tcRun_stopped hrun hstop m,
        within_stopped hstop (by omega) (by omega) _⟩
  · have hpos : 1 ≤ baseUnitSum (firstOctets octets (k + 1)) :=
      baseUnitSum_pos (firstOctets_ne_nil (Nat.le_add_left 1 k))
    rw [hr, length_firstOctets]
    omega

/-- **Time codes of the epoch of CCSDS** are read to their last octet. -/
theorem bounded_ccsds (hwith : ctx.withPField = true)
    (htype : sentType octets = .unsegmentedCcsdsEpoch) (hends : PFieldEnds octets k)
    (hpField : firstOctets octets (k + 1) = pField) (hbase : baseUnitSum pField ≤ 7)
    (hfractional : fractionalSum pField ≤ 6) :
    TcBounded ctx p octets := by
  have hlimits : (7, 6) ∈ announcedLimits (sentType octets) := by
    rw [htype]
    rfl
  have hbase' : baseUnitSum pField < 2 ^ 8 := by omega
  have hfractional' : fractionalSum pField < 2 ^ 8 := by omega
  obtain ⟨u, hrun, -⟩ := tcRun_fractional (p := p) hwith htype hends hpField hbase' hfractional'
    (Nat.le_refl _) hfractional
  have hstop : (takenRun pField (baseUnitSum pField) (fractionalSum pField) u).parser.status ≠
      .good := by
    unfold takenRun
    rw [if_pos ⟨rfl, rfl⟩]
    nofun
  refine .of_within (fun n => ?_) ⟨_, _, hrun, hstop, ?_⟩
  · by_cases hpart : n ≤ k
    · exact within_pField hwith hlimits hends (hpField ▸ hbase') (hpField ▸ hfractional') hpart
    · obtain ⟨i, rfl⟩ : ∃ i, n = k + 1 + i := ⟨n - (k + 1), by omega⟩
      by_cases hi : i < baseUnitSum pField
      · obtain ⟨u', hrun', htaking⟩ := tcRun_baseUnit (p := p) hwith htype hends hpField hbase'
          hfractional' (Nat.le_of_lt hi)
        exact ⟨_, hrun', htaking.within_baseUnit hi hbase _⟩
      · obtain ⟨j, rfl⟩ : ∃ j, i = baseUnitSum pField + j := ⟨i - baseUnitSum pField, by omega⟩
        rw [← Nat.add_assoc]
        by_cases hj : j < fractionalSum pField
        · obtain ⟨u', hrun', htaking⟩ := tcRun_fractional (p := p) hwith htype hends hpField
            hbase' hfractional' (Nat.le_of_lt hj) (Nat.le_trans (Nat.le_of_lt hj) hfractional)
          exact ⟨_, hrun', htaking.within_fractional hj hbase hfractional _⟩
        · obtain ⟨m, rfl⟩ : ∃ m, j = fractionalSum pField + m :=
            ⟨j - fractionalSum pField, by omega⟩
          rw [← Nat.add_assoc]
          exact ⟨_, tcRun_stopped hrun hstop m, within_stopped hstop hbase hfractional _⟩
  · change k + 1 + baseUnitSum pField + fractionalSum pField ≤
      pField.length + baseUnitSum pField + fractionalSum pField
    rw [← hpField, length_firstOctets]

/-- A P-field of another type is refused at once. -/
theorem bounded_refused (hwith : ctx.withPField = true)
    (htype : announcedLimits (sentType octets) = none) : TcBounded ctx p octets := by
  obtain ⟨q, hfeed, hstatus⟩ := feed_refused hwith p htype
  have hgood : (tcRunStart ctx p).parser.status = .good := by
    unfold tcRunStart tcParserInit
    rw [if_pos hwith]
  have hstop : q.status ≠ .good := by
    rw [hstatus]
    decide
  have hrun : tcRun ctx p octets 1 = .ok ⟨q, [octets 0], 0, 0⟩ :=
    (tcRun_succ rfl hgood).trans hfeed
  refine .of_within (fun n => ?_) ⟨1, _, hrun, hstop, ?_⟩
  · cases n with
    | zero => exact ⟨_, rfl, within_start hwith (octets 0)⟩
    | succ n =>
        rw [Nat.add_comm n 1]
        exact ⟨_, tcRun_stopped hrun hstop n,
          within_stopped hstop (Nat.zero_le 7) (Nat.zero_le 6) _⟩
  · exact Nat.le_add_right_of_le (Nat.le_add_right 1 _)

/-- **Seven octets of seconds** are all that may be announced. -/
theorem baseUnitSum_le_of_bounded (hwith : ctx.withPField = true)
    (htype : sentType octets = .unsegmentedCcsdsEpoch) (hends : PFieldEnds octets k)
    (hpField : firstOctets octets (k + 1) = pField) (hbase : baseUnitSum pField < 2 ^ 8)
    (hfractional : fractionalSum pField < 2 ^ 8) (hbounded : TcBounded ctx p octets) :
    baseUnitSum pField ≤ 7 := by
  by_contra hmany
  obtain ⟨u, hrun, -⟩ := tcRun_baseUnit (p := p) (i := 8) hwith htype hends hpField hbase
    hfractional (by omega)
  have haccepted : 8 ≤ 7 := hbounded.baseUnit hrun
  omega

/-- **Six octets of fractions** are all that may be announced. -/
theorem fractionalSum_le_of_bounded (hwith : ctx.withPField = true)
    (htype : sentType octets = .unsegmentedCcsdsEpoch) (hends : PFieldEnds octets k)
    (hpField : firstOctets octets (k + 1) = pField) (hbase : baseUnitSum pField < 2 ^ 8)
    (hfractional : fractionalSum pField < 2 ^ 8) (hbounded : TcBounded ctx p octets) :
    fractionalSum pField ≤ 6 := by
  by_contra hmany
  obtain ⟨u, hrun, htaking⟩ := tcRun_fractional (p := p) (j := 6) hwith htype hends hpField hbase
    hfractional (by omega) (Nat.le_refl 6)
  have hgood : (takenRun pField (baseUnitSum pField) 6 u).parser.status = .good :=
    if_neg fun hboth => hmany (Nat.le_of_eq hboth.2.symm)
  have hindex : (takenRun pField (baseUnitSum pField) 6 u).parser.fractionalIndex =
      some u.fractionalPtr.toNat := by
    unfold TcParser.fractionalIndex
    rw [htaking.in_fractional.2]
    rfl
  have hwritten : u.fractionalPtr.toNat < 6 := hbounded.writes hrun hgood _ hindex
  have hptr := htaking.fractionalPtr
  omega

end Within

/-- **A time code is bounded** exactly when its P-field ends and announces at most seven octets of
seconds and six of fractions, or is refused: at its first octet, or behind a P-field of the
custom epoch that the counters hold. -/
theorem timecode_bounded_iff (ctx : TcContext) (hwith : ctx.withPField = true) (p : TcParser)
    (octets : Nat → UInt8) : TcBounded ctx p octets ↔ PFieldFits octets := by
  constructor
  · intro hbounded limits hlimits
    obtain ⟨n, r, hrun, hstop, -⟩ := hbounded.stops
    obtain ⟨k, hends⟩ := exists_pFieldEnds hwith hlimits ⟨n, r, hrun, hstop⟩
    obtain ⟨hbase, hfractional⟩ :=
      sums_lt_of_counters hwith hlimits hbounded.counters hends.more
    rcases type_of_limits hlimits with ⟨htype, rfl⟩ | ⟨htype, rfl⟩
    · exact ⟨k, hends,
        baseUnitSum_le_of_bounded hwith htype hends rfl hbase hfractional hbounded,
        fractionalSum_le_of_bounded hwith htype hends rfl hbase hfractional hbounded⟩
    · exact ⟨k, hends, Nat.le_of_lt_succ hbase, Nat.le_of_lt_succ hfractional⟩
  · intro hfits
    cases htype : announcedLimits (sentType octets) with
    | none => exact bounded_refused hwith htype
    | some limits =>
        obtain ⟨k, hends, hbase, hfractional⟩ := hfits limits htype
        rcases type_of_limits htype with ⟨hsent, rfl⟩ | ⟨hsent, rfl⟩
        · exact bounded_ccsds hwith hsent hends rfl hbase hfractional
        · exact bounded_custom hwith hsent hends hbase hfractional

/-- A context whose time codes have a P-field. -/
def announcingContext : TcContext := ⟨true, ⟨.unsegmentedCcsdsEpoch, ⟨4, 0⟩⟩⟩

/-- A parser before it is set up. -/
def unusedParser : TcParser := ⟨.good, ⟨.unknown, ⟨0, 0⟩⟩, .preamble false .unknown⟩

/-- A P-field of two octets, which announces five octets of seconds and two of fractions. -/
def twoOctetPField : Nat → UInt8
  | 0 => 0x9d
  | 1 => 0x24
  | _ => 0

theorem timecode_bounded_iff_two : TcBounded announcingContext unusedParser twoOctetPField := by
  refine (timecode_bounded_iff _ rfl _ _).mpr fun limits hlimits => ?_
  obtain rfl : (7, 6) = limits := Option.some.inj hlimits
  exact ⟨1, ⟨by decide, rfl⟩, by decide, by decide⟩

/-- A P-field of two octets, which announces one octet of seconds and ten of fractions. -/
def tenFractions : Nat → UInt8
  | 0 => 0x93
  | 1 => 0x1c
  | _ => 0

/-- The tenth octet is the seventh of the fractions, and is written behind the buffer. -/
theorem writes_behind_buffer :
    (∃ r, tcRun announcingContext unusedParser tenFractions 9 = .ok r ∧
      r.parser.status = .good ∧ r.parser.fractionalIndex = some fractionalMaxOctets) ∧
    ¬ TcBounded announcingContext unusedParser tenFractions := by
  have hrun : ∃ r, tcRun announcingContext unusedParser tenFractions 9 = .ok r ∧
      r.parser.status = .good ∧ r.parser.fractionalIndex = some fractionalMaxOctets :=
    ⟨_, rfl, rfl, rfl⟩
  refine ⟨hrun, fun hbounded => ?_⟩
  obtain ⟨r, hr, hgood, hindex⟩ := hrun
  exact Nat.lt_irrefl _ (hbounded.writes hr hgood _ hindex)

end Spp
