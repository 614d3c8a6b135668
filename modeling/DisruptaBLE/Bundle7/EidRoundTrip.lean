import DisruptaBLE.Bundle7.Eid
import DisruptaBLE.Bundle7.Items
import Mathlib.Data.List.TakeWhile

/-!
# What is read back of an endpoint identifier

The parser makes a text of what the serializer wrote (`parse_serialized`), and this text is
`readBack`: the identifier itself for the scheme `dtn`, and the two numbers in decimal digits for
the scheme `ipn`. The space for an `ipn` text has no room for the digit of a zero, and so an
identifier is read back as it was exactly when it is `Canonical` (`readBack_eq_iff`).
-/

namespace Bundle7

open Cbor BundleProcessor PtrHeap

/-- The characters of a C string are bytes other than the terminator. -/
def IsCString (s : CStr) : Prop := ∀ c ∈ s, 0 < c.toNat ∧ c.toNat < 256

instance (s : CStr) : Decidable (IsCString s) :=
  List.decidableBAll (fun c : Char => 0 < c.toNat ∧ c.toNat < 256) s

/-- The text of an `ipn` identifier. -/
def ipnName (nodenum servicenum : Nat) : CStr :=
  "ipn:".toList ++ Nat.toDigits 10 nodenum ++ '.' :: Nat.toDigits 10 servicenum

/-- What the parser makes of what the serializer writes of an identifier. -/
def readBack (eid : CStr) : CStr :=
  if eid.take 4 = "dtn:".toList then eid
  else
    match sscanfIpn eid with
    | none => []
    | some (nodenum, servicenum) => ipnText nodenum.toUInt64 servicenum.toUInt64

/-- An identifier of the scheme `dtn`, or one of the scheme `ipn` with two positive numbers in
decimal digits. -/
def Canonical (eid : CStr) : Prop :=
  eid.take 4 = "dtn:".toList ∨
    ∃ nodenum servicenum : Nat, 0 < nodenum ∧ nodenum < 2 ^ 32 ∧ 0 < servicenum ∧
      servicenum < 2 ^ 32 ∧ eid = ipnName nodenum servicenum

variable {eid : CStr} {r : List UInt8} {n : Nat}

theorem cString_cBytes (h : IsCString eid) : cString (cBytes eid) = eid := by
  have hbyte (c : Char) (hc : c ∈ eid) : (UInt8.ofNat c.toNat).toNat = c.toNat := by
    rw [UInt8.toNat_ofNat']
    exact Nat.mod_eq_of_lt (h c hc).2
  have hne : ∀ b ∈ cBytes eid, b ≠ 0 := by
    intro b hb
    obtain ⟨c, hc, rfl⟩ := List.mem_map.mp hb
    intro hzero
    have hnat := hbyte c hc
    rw [hzero] at hnat
    exact absurd hnat.symm (Nat.ne_of_gt (h c hc).1)
  unfold cString
  rw [List.takeWhile_eq_self_iff.mpr (by simpa using hne)]
  unfold cBytes
  rw [List.map_map]
  conv_rhs => rw [← List.map_id eid]
  apply List.map_congr_left
  intro c hc
  simp [hbyte c hc, Char.ofNat_toNat]

/-! ## Parsing what was written -/

/-- The array of an identifier around its scheme. -/
theorem parse_of_scheme {w body : List UInt8} {e : CStr} {m : Nat} (hw : IsHead .array 2 w)
    (hready : Ready n r) (hbody : Starts body)
    (h : eidParseScheme reference (stand 2 body) = .ok (e, stand m r)) :
    bundle7EidParseCbor reference (stand (n + 1) (w ++ body)) = .ok (e, stand n r) := by
  have henter : reference.enterContainer (stand (n + 1) (w ++ body)) = .ok (stand 2 body) :=
    hw.enter (by decide) (ready_of_starts hbody)
  have hleave : reference.leaveContainer (stand (n + 1) (w ++ body)) (stand m r) =
      .ok (stand n r) := hw.leave hready m
  have hlength : reference.getArrayLength (stand (n + 1) (w ++ body)) = .ok 2 := hw.knownLength
  unfold bundle7EidParseCbor
  rw [hw.isArray, hw.lengthKnown, hlength]
  simp only [Bool.and_self, if_true, ne_eq, not_true_eq_false, if_false, henter, ok_bind, h, hleave]

/-- The number of the scheme. -/
theorem parseScheme_eq {w body : List UInt8} {v : Nat} (hw : IsHead .uint v w)
    (hbody : Starts body) :
    eidParseScheme reference (stand 2 (w ++ body)) =
      if UInt64.ofNat v = 1 then eidParseDtn reference (stand 1 body)
      else if UInt64.ofNat v = 2 then eidParseIpn reference (stand 1 body)
      else .error .illegalType := by
  unfold eidParseScheme
  rw [hw.isUnsignedInteger, hw.getUint64, hw.advance (ready_of_starts hbody)]
  rfl

/-- The array of two, as it is written. -/
theorem isHead_pair : IsHead .array 2 (encodeHead .array 2) :=
  isHead_encodeHead (by decide) (by decide)

/-- A number, as it is written. -/
theorem isHead_uint {v : Nat} (hv : v < 2 ^ 64) : IsHead .uint v (encodeHead .uint v) :=
  isHead_encodeHead (by decide) hv

/-- Some bytes are the array of an identifier, of which the parser makes a text, whatever stands
behind them. -/
def ReadsAs (bytes : List UInt8) (e : CStr) : Prop :=
  ∃ w body, bytes = w ++ body ∧ IsHead .array 2 w ∧ ∀ r, Starts (body ++ r) ∧
    eidParseScheme reference (stand 2 (body ++ r)) = .ok (e, stand 0 r)

theorem ReadsAs.parse {bytes : List UInt8} {e : CStr} (h : ReadsAs bytes e) (hready : Ready n r) :
    bundle7EidParseCbor reference (stand (n + 1) (bytes ++ r)) = .ok (e, stand n r) := by
  obtain ⟨w, body, rfl, hw, hscheme⟩ := h
  rw [List.append_assoc]
  exact parse_of_scheme hw hready (hscheme r).1 (hscheme r).2

theorem readsAs_dtnNone : ReadsAs (serializeDtnNone reference) "dtn:none".toList := by
  refine ⟨encodeHead .array 2, encodeHead .uint 1 ++ encodeHead .uint 0, ?_, isHead_pair,
    fun r => ?_⟩
  · simp [serializeDtnNone, reference]
  · rw [List.append_assoc]
    refine ⟨starts_encode (by decide) (by decide) _, ?_⟩
    rw [parseScheme_eq (isHead_uint (by decide)) (starts_encode (by decide) (by decide) _),
      if_pos (by decide)]
    unfold eidParseDtn
    rw [isUnsignedInteger_stand (by decide), getUint64_stand (by decide),
      advance_uint (by decide) (ready_zero _)]
    rfl

theorem readsAs_dtn (hstring : IsCString eid) (hlen : eid.length < 2 ^ 64)
    (hdtn : eid.take 4 = "dtn:".toList) : ReadsAs (serializeDtn reference eid) eid := by
  have hssp : (cBytes (eid.drop 4)).length < 2 ^ 64 := by
    rw [cBytes, List.length_map, List.length_drop]
    omega
  have hback : "dtn:".toList ++ cString (cBytes (eid.drop 4)) = eid := by
    rw [cString_cBytes fun c hc => hstring c (List.mem_of_mem_drop hc), ← hdtn,
      List.take_append_drop]
  refine ⟨encodeHead .array 2, encodeHead .uint 1 ++
    (encodeHead .text (cBytes (eid.drop 4)).length ++ cBytes (eid.drop 4)), ?_, isHead_pair,
    fun r => ?_⟩
  · simp [serializeDtn, reference]
  · rw [List.append_assoc, List.append_assoc]
    refine ⟨starts_encode (by decide) (by decide) _, ?_⟩
    rw [parseScheme_eq (isHead_uint (by decide)) (starts_encode (by decide) hssp _),
      if_pos (by decide)]
    unfold eidParseDtn
    rw [not_isUnsignedInteger_stand (by decide) (by decide) hssp, isTextString_stand hssp,
      getStringLength_stand (by decide) hssp, rest_stand]
    simp only [Bool.false_eq_true, if_false, if_true]
    rw [ok_bind, if_neg (by simp only [List.length_append]; omega), copy_string (by decide)
      (by decide) hssp (by omega) (ready_zero _),
      ok_bind, hback]

/-- The item `[2, [nodenum, servicenum]]`, with heads of any width. -/
theorem readsAs_ipnItem {w₁ w₂ w₃ w₄ w₅ : List UInt8} {nodenum servicenum : Nat}
    (h₁ : IsHead .array 2 w₁) (h₂ : IsHead .uint 2 w₂) (h₃ : IsHead .array 2 w₃)
    (h₄ : IsHead .uint nodenum w₄) (h₅ : IsHead .uint servicenum w₅) :
    ReadsAs (w₁ ++ (w₂ ++ (w₃ ++ (w₄ ++ w₅))))
      (ipnText (UInt64.ofNat nodenum) (UInt64.ofNat servicenum)) := by
  refine ⟨w₁, _, rfl, h₁, fun r => ?_⟩
  simp only [List.append_assoc]
  refine ⟨h₂.starts _, ?_⟩
  rw [parseScheme_eq h₂ (h₃.starts _), if_neg (by decide), if_pos (by decide)]
  unfold eidParseIpn
  rw [h₃.isArray, h₃.lengthKnown]
  simp only [Bool.and_self, if_true]
  rw [h₃.enter (by decide) (ready_of_starts (h₄.starts _)), ok_bind, h₄.isUnsignedInteger,
    h₄.getUint64, h₄.advance (ready_of_starts (h₅.starts _))]
  simp only [checked, ok_bind, if_true]
  rw [h₅.isUnsignedInteger, h₅.getUint64, h₅.advance (ready_zero _)]
  simp only [if_true]
  rw [ok_bind]
  simp only [atEnd_stand, beq_self_eq_true, if_true]
  rw [h₃.leave (ready_zero _), ok_bind]

theorem readsAs_ipn {bytes : List UInt8} {nodenum servicenum : UInt32}
    (hscan : sscanfIpn eid = some (nodenum, servicenum))
    (hwire : serializeIpn reference eid = some bytes) :
    ReadsAs bytes (ipnText nodenum.toUInt64 servicenum.toUInt64) := by
  have hbytes : bytes = encodeHead .array 2 ++ (encodeHead .uint 2 ++ (encodeHead .array 2 ++
      (encodeHead .uint nodenum.toNat ++ encodeHead .uint servicenum.toNat))) := by
    rw [serializeIpn, hscan] at hwire
    rw [← Option.some.inj hwire]
    simp [reference]
  have hlt (v : UInt32) : v.toNat < 2 ^ 64 := Nat.lt_trans v.toNat_lt (by decide)
  have hreads := readsAs_ipnItem isHead_pair (isHead_uint (by decide)) isHead_pair
    (isHead_uint (hlt nodenum)) (isHead_uint (hlt servicenum))
  rw [hbytes]
  simpa using hreads

theorem readsAs_serialized {bytes : List UInt8} (hstring : IsCString eid)
    (hlen : eid.take 4 = "dtn:".toList → eid.length < 2 ^ 64)
    (hwire : bundle7EidSerializeCbor reference eid = some bytes) :
    ReadsAs bytes (readBack eid) := by
  unfold bundle7EidSerializeCbor at hwire
  split at hwire
  · next hnone =>
    subst hnone
    obtain rfl := Option.some.inj hwire
    exact readsAs_dtnNone
  · split at hwire
    · next hdtn =>
      obtain rfl := Option.some.inj hwire
      rw [readBack, if_pos hdtn]
      exact readsAs_dtn hstring (hlen hdtn) hdtn
    · next hdtn =>
      split at hwire
      · rw [readBack, if_neg hdtn]
        cases hscan : sscanfIpn eid with
        | none =>
            rw [serializeIpn, hscan] at hwire
            cases hwire
        | some p => exact readsAs_ipn hscan hwire
      · cases hwire

/-- **What the parser makes of what the serializer wrote.** -/
theorem parse_serialized {bytes : List UInt8} (hready : Ready n r) (hstring : IsCString eid)
    (hlen : eid.take 4 = "dtn:".toList → eid.length < 2 ^ 64)
    (hwire : bundle7EidSerializeCbor reference eid = some bytes) :
    bundle7EidParseCbor reference (stand (n + 1) (bytes ++ r)) = .ok (readBack eid, stand n r) :=
  (readsAs_serialized hstring hlen hwire).parse hready

/-- An identifier is written as an array of two items. -/
theorem exists_wire {bytes : List UInt8}
    (hwire : bundle7EidSerializeCbor reference eid = some bytes) :
    ∃ body, bytes = encodeHead .array 2 ++ body := by
  unfold bundle7EidSerializeCbor at hwire
  split at hwire
  · obtain rfl := Option.some.inj hwire
    exact ⟨_, List.append_assoc _ _ _⟩
  · split at hwire
    · obtain rfl := Option.some.inj hwire
      exact ⟨_, List.append_assoc _ _ _⟩
    · split at hwire
      · unfold serializeIpn at hwire
        split at hwire
        · cases hwire
        · obtain rfl := Option.some.inj hwire
          exact ⟨_, List.append_assoc _ _ _⟩
      · cases hwire

theorem starts_eid {bytes : List UInt8} (hwire : bundle7EidSerializeCbor reference eid = some bytes)
    (r : List UInt8) : Starts (bytes ++ r) := by
  obtain ⟨body, rfl⟩ := exists_wire hwire
  rw [List.append_assoc]
  exact starts_encode (by decide) (by decide) _

/-! ## Identifiers that are read back as they were -/

theorem decimalValue_toDigits (v : Nat) : decimalValue (Nat.toDigits 10 v) = v :=
  Nat.ofDigitChars_ten_toDigits

theorem takeWhile_toDigits (v : Nat) {rest : CStr}
    (hrest : ∀ c, rest.head? = some c → ¬ c.isDigit) :
    (Nat.toDigits 10 v ++ rest).takeWhile Char.isDigit = Nat.toDigits 10 v := by
  have hdigits : ∀ c ∈ Nat.toDigits 10 v, c.isDigit = true := fun c hc =>
    Nat.isDigit_of_mem_toDigits (by decide) (by decide) hc
  rw [List.takeWhile_append_of_pos hdigits]
  cases rest with
  | nil => simp
  | cons c rest =>
      have hc := hrest c rfl
      rw [List.takeWhile_cons_of_neg (by simpa using hc), List.append_nil]

theorem head?_toDigits (v : Nat) : ∃ c cs, Nat.toDigits 10 v = c :: cs ∧ c.isDigit = true := by
  cases hdigits : Nat.toDigits 10 v with
  | nil => exact absurd hdigits Nat.toDigits_ne_nil
  | cons c cs =>
      have hmem : c ∈ Nat.toDigits 10 v := by
        rw [hdigits]
        exact List.mem_cons_self
      exact ⟨c, cs, rfl, Nat.isDigit_of_mem_toDigits (by decide) (by decide) hmem⟩

theorem digit_not_space {c : Char} (hc : c.isDigit = true) : isSpace c = false := by
  rw [Char.isDigit_iff_toNat] at hc
  have hspace : c ≠ ' ' := by
    rintro rfl
    exact absurd hc (by decide)
  have hzero : '0'.toNat = 48 := rfl
  simp only [isSpace, hspace, decide_false, Bool.false_or, Bool.and_eq_false_iff,
    decide_eq_false_iff_not]
  omega

/-- A number is scanned as it was printed. -/
theorem scanNumber_toDigits (v : Nat) {rest : CStr}
    (hrest : ∀ c, rest.head? = some c → ¬ c.isDigit) :
    scanNumber (Nat.toDigits 10 v ++ rest) = some (false, v, rest) := by
  obtain ⟨c, cs, hdigits, hc⟩ := head?_toDigits v
  have htake := takeWhile_toDigits v hrest
  have hminus : c ≠ '-' := by
    rintro rfl
    exact absurd hc (by decide)
  have hplus : c ≠ '+' := by
    rintro rfl
    exact absurd hc (by decide)
  have hspace : (Nat.toDigits 10 v ++ rest).dropWhile isSpace = Nat.toDigits 10 v ++ rest := by
    rw [hdigits, List.cons_append, List.dropWhile_cons_of_neg (by simp [digit_not_space hc])]
  have hhead : (Nat.toDigits 10 v ++ rest).head? = some c := by
    rw [hdigits]
    rfl
  unfold scanNumber
  simp only [hspace, hhead, Option.some.injEq, hminus, hplus, or_self, if_false, htake,
    decimalValue_toDigits, List.drop_left, Nat.toDigits_ne_nil, decide_false]

/-- A number is scanned as it was printed, up to its 32 bits. -/
theorem scanU32_toDigits (v : Nat) {rest : CStr}
    (hrest : ∀ c, rest.head? = some c → ¬ c.isDigit) :
    scanU32 (Nat.toDigits 10 v ++ rest) = some (UInt32.ofNat v, rest) := by
  rw [scanU32, scanNumber_toDigits v hrest]
  rfl

/-- Behind the first number there is a point, or the scan has failed. -/
theorem sscanfIpn_append (nodenum : Nat) {rest : CStr}
    (hrest : ∀ c, rest.head? = some c → ¬ c.isDigit) :
    sscanfIpn ("ipn:".toList ++ Nat.toDigits 10 nodenum ++ rest) =
      if rest.head? = some '.' then
        (scanU32 rest.tail).map fun p => (UInt32.ofNat nodenum, p.1)
      else none := by
  have htake : ("ipn:".toList ++ Nat.toDigits 10 nodenum ++ rest).take 4 = "ipn:".toList := rfl
  have hdrop : ("ipn:".toList ++ Nat.toDigits 10 nodenum ++ rest).drop 4 =
      Nat.toDigits 10 nodenum ++ rest := rfl
  unfold sscanfIpn sscanfIpnWith
  rw [if_pos htake, hdrop, scanU32_toDigits nodenum hrest]
  dsimp only
  split
  · cases scanU32 rest.tail <;> rfl
  · rfl

theorem scanU32_digits (v : Nat) : scanU32 (Nat.toDigits 10 v) = some (UInt32.ofNat v, []) := by
  have hscan := @scanU32_toDigits v [] (by simp)
  rwa [List.append_nil] at hscan

theorem sscanfIpn_ipnName (nodenum servicenum : Nat) :
    sscanfIpn (ipnName nodenum servicenum) =
      some (UInt32.ofNat nodenum, UInt32.ofNat servicenum) := by
  unfold ipnName
  rw [sscanfIpn_append nodenum (by simp [Char.isDigit])]
  simp [scanU32_digits]

theorem decimalDigitsLoop_eq (fuel : Nat) {v : Nat} (hv : v < 10 ^ fuel) (hpos : 0 < v) :
    decimalDigitsLoop fuel v = (Nat.toDigits 10 v).length := by
  induction fuel generalizing v with
  | zero => omega
  | succ fuel ih =>
      rw [decimalDigitsLoop, if_neg (by omega), Nat.toDigits_eq_if (by decide)]
      split
      · next hlt =>
        have hzero : v / 10 = 0 := by omega
        rw [hzero]
        cases fuel <;> rfl
      · next hge =>
        rw [Nat.pow_succ] at hv
        rw [ih (by omega) (by omega), List.length_append, Nat.add_comm]
        rfl

theorem decimalDigits_eq {v : UInt32} (h : v ≠ 0) :
    decimalDigits v = (Nat.toDigits 10 v.toNat).length := by
  have hpos : 0 < v.toNat := Nat.pos_of_ne_zero fun hzero => h (UInt32.toNat_inj.mp hzero)
  exact decimalDigitsLoop_eq 10 (Nat.lt_trans v.toNat_lt (by decide)) hpos

/-- Two positive numbers have room in their text. -/
theorem ipnText_eq {nodenum servicenum : UInt32} (hnode : nodenum ≠ 0) (hservice : servicenum ≠ 0) :
    ipnText nodenum.toUInt64 servicenum.toUInt64 =
      ipnName nodenum.toNat servicenum.toNat := by
  unfold ipnText ipnName
  simp only [UInt32.toUInt32_toUInt64, UInt32.toNat_toUInt64, decimalDigits_eq hnode,
    decimalDigits_eq hservice]
  apply List.take_of_length_le
  simp
  omega

theorem decimalDigits_zero : decimalDigits 0 = 0 := rfl

/-- The text with a zero is not scanned as the two numbers again. -/
theorem ipnText_zero {nodenum servicenum : UInt32} (h : nodenum = 0 ∨ servicenum = 0) :
    sscanfIpn (ipnText nodenum.toUInt64 servicenum.toUInt64) ≠ some (nodenum, servicenum) := by
  unfold ipnText
  simp only [UInt32.toUInt32_toUInt64, UInt32.toNat_toUInt64]
  by_cases hservice : servicenum = 0
  · subst hservice
    by_cases hnode : nodenum = 0
    · subst hnode
      decide
    · -- nothing is left behind the point
      have hcut : ("ipn:".toList ++ Nat.toDigits 10 nodenum.toNat ++
          '.' :: Nat.toDigits 10 (0 : UInt32).toNat).take
            (4 + decimalDigits nodenum + 1 + decimalDigits 0 + 1 - 1) =
          "ipn:".toList ++ Nat.toDigits 10 nodenum.toNat ++ ['.'] := by
        have hlen : ("ipn:".toList ++ Nat.toDigits 10 nodenum.toNat ++ ['.']).length =
            4 + decimalDigits nodenum + 1 + decimalDigits 0 + 1 - 1 := by
          rw [decimalDigits_eq hnode, decimalDigits_zero]
          simp
          omega
        have hsplit : "ipn:".toList ++ Nat.toDigits 10 nodenum.toNat ++
            '.' :: Nat.toDigits 10 (0 : UInt32).toNat =
            ("ipn:".toList ++ Nat.toDigits 10 nodenum.toNat ++ ['.']) ++ ['0'] := by simp
        rw [hsplit, ← hlen, List.take_left]
      rw [hcut, sscanfIpn_append _ (by simp [Char.isDigit])]
      simp [scanU32, scanNumber]
  · have hnode : nodenum = 0 := h.resolve_right hservice
    subst hnode
    have hdigits := decimalDigits_eq hservice
    have hcut : ("ipn:".toList ++ Nat.toDigits 10 (0 : UInt32).toNat ++
        '.' :: Nat.toDigits 10 servicenum.toNat).take
          (4 + decimalDigits 0 + 1 + decimalDigits servicenum + 1 - 1) =
        "ipn:".toList ++ Nat.toDigits 10 0 ++
          '.' :: (Nat.toDigits 10 servicenum.toNat).take (decimalDigits servicenum - 1) := by
      rw [decimalDigits_zero]
      have hpos : 0 < decimalDigits servicenum := by
        rw [hdigits]
        exact Nat.length_toDigits_pos
      have hsucc : 4 + 0 + 1 + decimalDigits servicenum + 1 - 1 =
          ("ipn:".toList ++ Nat.toDigits 10 0 ++ ['.']).length +
            (decimalDigits servicenum - 1) := by
        simp
        omega
      have hsplit : "ipn:".toList ++ Nat.toDigits 10 (0 : UInt32).toNat ++
          '.' :: Nat.toDigits 10 servicenum.toNat =
          ("ipn:".toList ++ Nat.toDigits 10 0 ++ ['.']) ++
            Nat.toDigits 10 servicenum.toNat := by simp
      rw [hsucc, hsplit, List.take_length_add_append]
      simp
    rw [hcut, sscanfIpn_append _ (by simp [Char.isDigit]), hdigits]
    by_cases hsmall : servicenum.toNat < 10
    · rw [Nat.toDigits_of_lt_base hsmall]
      simp [scanU32, scanNumber]
    · -- the last digit is missing
      rw [Nat.toDigits_of_base_le (by decide) (Nat.not_lt.mp hsmall)]
      simp only [List.head?_cons, if_true, List.tail_cons, List.length_append,
        List.length_singleton,
        Nat.add_sub_cancel, List.take_left, scanU32_digits, Option.map_some]
      intro heq
      have hval := congrArg UInt32.toNat (Prod.mk.inj (Option.some.inj heq)).2
      have hlt := servicenum.toNat_lt
      rw [UInt32.toNat_ofNat'] at hval
      omega

/-- **An identifier is read back as it was exactly when it is canonical.** -/
theorem readBack_eq_iff {bytes : List UInt8}
    (hwire : bundle7EidSerializeCbor reference eid = some bytes) :
    readBack eid = eid ↔ Canonical eid := by
  constructor
  · intro h
    by_cases hdtn : eid.take 4 = "dtn:".toList
    · exact .inl hdtn
    · rw [readBack, if_neg hdtn] at h
      have hscan : ∃ p, sscanfIpn eid = some p := by
        unfold bundle7EidSerializeCbor at hwire
        rw [if_neg (by rintro rfl; exact hdtn rfl), if_neg hdtn] at hwire
        split at hwire
        · unfold serializeIpn at hwire
          cases hs : sscanfIpn eid with
          | none =>
              rw [hs] at hwire
              cases hwire
          | some p => exact ⟨p, rfl⟩
        · cases hwire
      obtain ⟨⟨nodenum, servicenum⟩, hscan⟩ := hscan
      simp only [hscan] at h
      by_cases hzero : nodenum = 0 ∨ servicenum = 0
      · have hnot := ipnText_zero hzero
        rw [h] at hnot
        exact absurd hscan hnot
      · obtain ⟨hnode, hservice⟩ := not_or.mp hzero
        rw [ipnText_eq hnode hservice] at h
        have hpos {x : UInt32} (hx : x ≠ 0) : 0 < x.toNat :=
          Nat.pos_of_ne_zero fun h0 => hx (UInt32.toNat_inj.mp h0)
        exact .inr ⟨nodenum.toNat, servicenum.toNat, hpos hnode, nodenum.toNat_lt, hpos hservice,
          servicenum.toNat_lt, h.symm⟩
  · rintro (hdtn | ⟨nodenum, servicenum, hnode, hnodeLt, hservice, hserviceLt, rfl⟩)
    · rw [readBack, if_pos hdtn]
    · have htake : (ipnName nodenum servicenum).take 4 = "ipn:".toList := rfl
      have hne {v : Nat} (hpos : 0 < v) (hlt : v < 2 ^ 32) : UInt32.ofNat v ≠ 0 := by
        intro h0
        have hval := congrArg UInt32.toNat h0
        rw [UInt32.toNat_ofNat', Nat.mod_eq_of_lt hlt] at hval
        exact absurd hval (Nat.ne_of_gt hpos)
      have hval {v : Nat} (hlt : v < 2 ^ 32) : (UInt32.ofNat v).toNat = v := by
        rw [UInt32.toNat_ofNat', Nat.mod_eq_of_lt hlt]
      rw [readBack, htake, if_neg (by decide), sscanfIpn_ipnName]
      dsimp only
      rw [ipnText_eq (hne hnode hnodeLt) (hne hservice hserviceLt), hval hnodeLt, hval hserviceLt]

end Bundle7
