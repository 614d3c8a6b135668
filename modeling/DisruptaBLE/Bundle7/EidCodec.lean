import DisruptaBLE.Bundle7.EidRoundTrip
import DisruptaBLE.Records.Reports7

/-!
# The codec of endpoint identifiers

What `validate_eid` accepts, `bundle7_eid_serialize` writes in as many bytes as
`bundle7_eid_sizeof` says.  The bound on these bytes and the way back hold for canonical
identifiers only (`eid_codec_iff`): signs, blanks and what stands behind the second number are
accepted as well, and the text of an `ipn` identifier is cut to the digits of the lowest 32 bits
of its numbers, where a zero has none.
-/

namespace Bundle7

open Cbor BundleProcessor PtrHeap

variable {eid : CStr}

/-! ## The functions around the codec -/

/-- A `PRIu64` of `sscanf`, and what stands behind it.  A number beyond 64 bits is cut. -/
def scanU64 (s : CStr) : Option (UInt64 × CStr) :=
  (scanNumber s).map fun (negative, n, rest) =>
    (if negative then -UInt64.ofNat n else UInt64.ofNat n, rest)

/-- `validate_eid`, for a string. -/
def validateEid (eid : CStr) : Bool :=
  match eid.findIdx? (· = ':') with
  | none => false
  | some colon =>
      if colon ≠ 3 then false
      else if eid.take 3 = "dtn".toList ∧ (eid.drop (colon + 1)).length ≠ 0 then true
      else if eid.take 3 = "ipn".toList then (sscanfIpnWith scanU64 eid).isSome
      else false

/-- `bundle7_eid_parse`. -/
def bundle7EidParse (T : TinyCbor) (buffer : List UInt8) : Option CStr :=
  match T.parserInit buffer with
  | (some _, _) => none
  | (none, it) =>
      match bundle7EidParseCbor T it with
      | .error _ => none
      | .ok (eid, _) => some eid

/-! ## What is accepted -/

/-- Both widths find the numbers in the same texts. -/
theorem isSome_sscanfIpnWith (eid : CStr) :
    (sscanfIpnWith scanU64 eid).isSome = (sscanfIpn eid).isSome := by
  have hcases : ∀ s, (scanU64 s = none ∧ scanU32 s = none) ∨
      ∃ a b rest, scanU64 s = some (a, rest) ∧ scanU32 s = some (b, rest) := by
    intro s
    unfold scanU64 scanU32
    cases scanNumber s with
    | none => exact .inl ⟨rfl, rfl⟩
    | some p => exact .inr ⟨_, _, _, rfl, rfl⟩
  unfold sscanfIpn sscanfIpnWith
  split
  · rcases hcases (eid.drop 4) with ⟨h64, h32⟩ | ⟨a, b, rest, h64, h32⟩
    · rw [h64, h32]
      rfl
    · rw [h64, h32]
      dsimp only
      split
      · rcases hcases rest.tail with ⟨h64, h32⟩ | ⟨a, b, rest, h64, h32⟩
        · rw [h64, h32]
          rfl
        · rw [h64, h32]
          rfl
      · rfl
  · rfl

/-- An accepted identifier has one of the schemes, and the numbers of the scheme `ipn`. -/
theorem accepted_cases (h : validateEid eid = true) :
    eid.take 4 = "dtn:".toList ∨
      eid.take 4 = "ipn:".toList ∧ eid.take 4 ≠ "dtn:".toList ∧ ∃ p, sscanfIpn eid = some p := by
  unfold validateEid at h
  cases hcolon : eid.findIdx? (· = ':') with
  | none => simp [hcolon] at h
  | some colon =>
      rw [hcolon] at h
      dsimp only at h
      split at h
      · cases h
      · next hthree =>
        obtain rfl := not_not.mp hthree
        obtain ⟨hlt, hchar, -⟩ := List.findIdx?_eq_some_iff_getElem.mp hcolon
        have htake : eid.take 4 = eid.take 3 ++ [':'] := by
          rw [List.take_succ_eq_append_getElem hlt, of_decide_eq_true hchar]
        split at h
        · next hdtn =>
          rw [htake, hdtn.1]
          exact .inl rfl
        · split at h
          · next hipn =>
            rw [htake, hipn]
            rw [isSome_sscanfIpnWith] at h
            exact .inr ⟨rfl, by decide, Option.isSome_iff_exists.mp h⟩
          · cases h

/-! ## What is written -/

/-- What is accepted is written, in as many bytes as `bundle7_eid_sizeof` says. -/
theorem exists_serialized (h : validateEid eid = true) (hlen : eid.length < 2 ^ 64) :
    ∃ bytes, bundle7EidSerializeCbor reference eid = some bytes ∧
      bytes.length = bundle7EidSizeof eid := by
  have huint (v : UInt64) : (encodeHead .uint v.toNat).length = bundle7CborUintSizeof v :=
    length_encodeHead_uint .uint v
  have harray : (encodeHead .array 2).length = 1 := rfl
  by_cases hnone : eid = "dtn:none".toList
  · rw [bundle7EidSerializeCbor, bundle7EidSizeof, if_pos hnone, if_pos hnone]
    exact ⟨_, rfl, rfl⟩
  · rcases accepted_cases h with hdtn | ⟨hipn, hndtn, ⟨nodenum, servicenum⟩, hscan⟩
    · have hhead : eid.head? = some 'd' := by
        rw [← List.take_append_drop 4 eid, hdtn]
        rfl
      have hssp : (cBytes (eid.drop 4)).length = (UInt64.ofNat (eid.length - 4)).toNat := by
        rw [cBytes, List.length_map, List.length_drop, UInt64.toNat_ofNat',
          Nat.mod_eq_of_lt (by omega)]
      have hsize : (UInt64.ofNat (eid.length - 4)).toNat = eid.length - 4 := by
        rw [UInt64.toNat_ofNat', Nat.mod_eq_of_lt (by omega)]
      refine ⟨serializeDtn reference eid, ?_, ?_⟩
      · rw [bundle7EidSerializeCbor, if_neg hnone, if_pos hdtn]
      · rw [bundle7EidSizeof, if_neg hnone, if_pos hhead]
        simp only [serializeDtn, reference, List.length_append, hssp, harray, huint,
          length_encodeHead_uint]
        omega
    · have hhead : eid.head? ≠ some 'd' := by
        have hi : ("ipn:".toList ++ eid.drop 4).head? = some 'i' := rfl
        rw [← List.take_append_drop 4 eid, hipn, hi]
        decide
      have hlong : 4 < eid.length := by
        by_contra hshort
        have hnil : eid.drop 4 = [] := List.drop_eq_nil_iff.mpr (by omega)
        rw [sscanfIpn, sscanfIpnWith, if_pos hipn, hnil] at hscan
        cases hscan
      obtain ⟨bytes, hbytes, hlength⟩ : ∃ bytes, serializeIpn reference eid = some bytes ∧
          bytes.length = 1 + bundle7CborUintSizeof 2 + 1 +
            bundle7CborUintSizeof nodenum.toUInt64 + bundle7CborUintSizeof servicenum.toUInt64 := by
        rw [serializeIpn, hscan]
        refine ⟨_, rfl, ?_⟩
        simp only [reference, List.length_append, harray, huint]
        omega
      refine ⟨bytes, ?_, ?_⟩
      · rw [bundle7EidSerializeCbor, if_neg hnone, if_neg hndtn, if_pos ⟨hlong, hipn⟩, hbytes]
      · rw [bundle7EidSizeof, if_neg hnone, if_neg hhead, hscan]
        exact hlength

/-! ## The way there and back -/

/-- Everything that is expected of the codec at an accepted identifier. -/
def CodecHolds (T : TinyCbor) (eid : CStr) : Prop :=
  ∃ bytes, (∀ bufferSize, bundle7EidSizeof eid ≤ bufferSize →
      bundle7EidSerialize T eid bufferSize = some bytes) ∧
    bytes.length = bundle7EidSizeof eid ∧
    bytes.length ≤ bundle7EidGetMaxSerializedSize eid ∧
    bundle7EidParse T bytes = some eid

theorem parse_of_stand {l : List UInt8} {e : CStr} {it : CborValue} (hl : Starts l)
    (h : bundle7EidParseCbor reference (stand 1 l) = .ok (e, it)) :
    bundle7EidParse reference l = some e := by
  have hinit : reference.parserInit l = (none, stand 1 l) := by
    obtain ⟨h, hl⟩ := hl
    simp [reference, preparseValue, hl, stand]
  rw [bundle7EidParse, hinit]
  dsimp only
  rw [h]

/-- **An accepted identifier** passes through the codec exactly when it is canonical. -/
theorem codecHolds_iff (hstring : IsCString eid) (hlen : eid.length < 2 ^ 64)
    (h : validateEid eid = true) : CodecHolds reference eid ↔ Canonical eid := by
  obtain ⟨bytes, hwire, hsize⟩ := exists_serialized h hlen
  have hserialize : ∀ bufferSize, bundle7EidSizeof eid ≤ bufferSize →
      bundle7EidSerialize reference eid bufferSize = some bytes := by
    intro bufferSize hle
    rw [bundle7EidSerialize, hwire]
    dsimp only
    rw [if_neg (by omega)]
  have hstarts : Starts bytes := by
    have happend := starts_eid hwire []
    rwa [List.append_nil] at happend
  have hparse : bundle7EidParse reference bytes = some (readBack eid) := by
    have hback := parse_serialized (n := 0) (ready_zero []) hstring (fun _ => hlen) hwire
    rw [List.append_nil] at hback
    exact parse_of_stand hstarts hback
  constructor
  · rintro ⟨bytes', hserialize', -, -, hparse'⟩
    obtain rfl : bytes = bytes' :=
      Option.some.inj ((hserialize _ le_rfl).symm.trans (hserialize' _ le_rfl))
    exact (readBack_eq_iff hwire).mp (Option.some.inj (hparse.symm.trans hparse'))
  · intro hcanonical
    refine ⟨bytes, hserialize, hsize, length_eid_le hcanonical hlen hwire, ?_⟩
    rw [hparse, (readBack_eq_iff hwire).mpr hcanonical]

/-! ## Numbers of 64 bits -/

/-- The lowest 32 bits of a number are not zero, and have as many decimal digits as the number. -/
def FitsPrint (v : UInt64) : Prop :=
  0 < v.toNat ∧ (v.toNat < 2 ^ 32 ∨ v.toNat < 10 ^ 10 ∧ 10 ^ 9 ≤ v.toNat % 2 ^ 32)

/-- `[2, [nodenum, servicenum]]` in CBOR, with lengths that are known and heads of any width. -/
def IpnItem (nodenum servicenum : UInt64) (item : List UInt8) : Prop :=
  ∃ w₁ w₂ w₃ w₄ w₅, IsHead .array 2 w₁ ∧ IsHead .uint 2 w₂ ∧ IsHead .array 2 w₃ ∧
    IsHead .uint nodenum.toNat w₄ ∧ IsHead .uint servicenum.toNat w₅ ∧
    item = w₁ ++ (w₂ ++ (w₃ ++ (w₄ ++ w₅)))

theorem decimalDigits_toUInt32 (v : UInt64) : decimalDigits v.toUInt32 =
    if v.toNat % 2 ^ 32 = 0 then 0 else (Nat.toDigits 10 (v.toNat % 2 ^ 32)).length := by
  have hlow : v.toUInt32.toNat = v.toNat % 2 ^ 32 := UInt64.toNat_toUInt32 v
  split
  · next hzero =>
    have hv : v.toUInt32 = 0 := UInt32.toNat_inj.mp (hlow.trans hzero)
    rw [hv, decimalDigits_zero]
  · next hpos =>
    have hv : v.toUInt32 ≠ 0 := fun h => hpos (hlow.symm.trans (congrArg UInt32.toNat h))
    rw [decimalDigits_eq hv, hlow]

theorem decimalDigits_le (v : UInt64) :
    decimalDigits v.toUInt32 ≤ (Nat.toDigits 10 v.toNat).length := by
  rw [decimalDigits_toUInt32]
  split
  · exact Nat.zero_le _
  · have hv : v.toNat < 10 ^ (Nat.toDigits 10 v.toNat).length :=
      (Nat.length_toDigits_le_iff (by decide) Nat.length_toDigits_pos).mp le_rfl
    rw [Nat.length_toDigits_le_iff (by decide) Nat.length_toDigits_pos]
    exact Nat.lt_of_le_of_lt (Nat.mod_le _ _) hv

/-- There is room for a number exactly when its lowest 32 bits have its digits. -/
theorem decimalDigits_eq_iff (v : UInt64) :
    decimalDigits v.toUInt32 = (Nat.toDigits 10 v.toNat).length ↔ FitsPrint v := by
  rw [decimalDigits_toUInt32]
  unfold FitsPrint
  have hpos : 0 < (Nat.toDigits 10 v.toNat).length := Nat.length_toDigits_pos
  split
  · omega
  · by_cases hsmall : v.toNat < 2 ^ 32
    · rw [Nat.mod_eq_of_lt hsmall]
      omega
    · -- a number from `2 ^ 32` on has ten digits at least, and its lowest bits ten at most
      have hdigits (m k : Nat) (hk : 0 < k) : (Nat.toDigits 10 m).length ≤ k ↔ m < 10 ^ k :=
        Nat.length_toDigits_le_iff (by decide) hk
      have h9 := hdigits v.toNat 9 (by decide)
      have h10 := hdigits v.toNat 10 (by decide)
      have hlow9 := hdigits (v.toNat % 2 ^ 32) 9 (by decide)
      have hlow10 := hdigits (v.toNat % 2 ^ 32) 10 (by decide)
      omega

/-- **The text of two numbers** is complete exactly when there is room for their digits. -/
theorem ipnText_eq_iff (nodenum servicenum : UInt64) :
    ipnText nodenum servicenum = ipnName nodenum.toNat servicenum.toNat ↔
      FitsPrint nodenum ∧ FitsPrint servicenum := by
  have hnode := decimalDigits_le nodenum
  have hservice := decimalDigits_le servicenum
  rw [← decimalDigits_eq_iff nodenum, ← decimalDigits_eq_iff servicenum]
  have hlength : (ipnName nodenum.toNat servicenum.toNat).length =
      4 + (Nat.toDigits 10 nodenum.toNat).length + 1 +
        (Nat.toDigits 10 servicenum.toNat).length := by
    have hipn : "ipn:".toList.length = 4 := rfl
    simp only [ipnName, List.length_append, List.length_cons, hipn]
    omega
  have htext : ipnText nodenum servicenum =
      (ipnName nodenum.toNat servicenum.toNat).take (4 + decimalDigits nodenum.toUInt32 + 1 +
        decimalDigits servicenum.toUInt32 + 1 - 1) := rfl
  rw [htext, List.take_eq_self_iff, hlength]
  omega

/-- **The codec of endpoint identifiers**: what is accepted passes through it exactly when it is
canonical, and two numbers of 64 bits are printed as they are exactly when their lowest 32 bits
have all their digits. -/
theorem eid_codec_iff {T : TinyCbor} (hT : T.Documented) :
    (∀ eid, IsCString eid → eid.length < 2 ^ 64 → validateEid eid = true →
      (CodecHolds T eid ↔ Canonical eid)) ∧
    ∀ nodenum servicenum item, IpnItem nodenum servicenum item →
      ((∀ eid, bundle7EidParse T item = some eid →
          eid = ipnName nodenum.toNat servicenum.toNat) ↔
        FitsPrint nodenum ∧ FitsPrint servicenum) := by
  obtain rfl := hT.eq_reference
  refine ⟨fun eid hstring hlen h => codecHolds_iff hstring hlen h, ?_⟩
  rintro nodenum servicenum item ⟨w₁, w₂, w₃, w₄, w₅, h₁, h₂, h₃, h₄, h₅, rfl⟩
  have hparse := (readsAs_ipnItem h₁ h₂ h₃ h₄ h₅).parse (n := 0) (ready_zero [])
  rw [List.append_nil, UInt64.ofNat_toNat, UInt64.ofNat_toNat] at hparse
  rw [parse_of_stand (h₁.starts _) hparse, ← ipnText_eq_iff]
  exact ⟨fun h => h _ rfl, fun h eid heid => Option.some.inj heid ▸ h⟩

theorem eid_codec_iff_plain : CodecHolds reference "ipn:12.34".toList :=
  ((eid_codec_iff reference_documented).1 "ipn:12.34".toList (by decide) (by decide)
    (by decide)).mpr (.inr ⟨12, 34, by decide, by decide, by decide, by decide, rfl⟩)

/-- **The service with number zero is accepted**, and its digit is lost on the way back. -/
theorem ipn_digits_lost :
    validateEid "ipn:1.0".toList = true ∧ ¬ CodecHolds reference "ipn:1.0".toList ∧
      bundle7EidParse reference [0x82, 2, 0x82, 1, 0] = some "ipn:1.".toList ∧
      "ipn:1.".toList ≠ ipnName 1 0 := by
  refine ⟨by decide, fun h => ?_, by decide, by decide⟩
  have hcanonical := (codecHolds_iff (by decide) (by decide) (by decide)).mp h
  have hwire : bundle7EidSerializeCbor reference "ipn:1.0".toList =
      some [0x82, 2, 0x82, 1, 0] := by decide
  exact absurd ((readBack_eq_iff hwire).mpr hcanonical) (by decide)

end Bundle7
