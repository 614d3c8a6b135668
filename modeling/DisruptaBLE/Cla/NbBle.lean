import DisruptaBLE.Cla.NbSvChFilter

/-!
# Advertisements

`components/cla/zephyr/nb_ble.c`: a node advertises its EID and the characteristic of its summary
vector, and `device_found_cb` reads both out of the advertisements of other nodes.

The length of the advertisement is compared with the fixed parts, the length of the service data
within it only with a lower bound: a length that is too large leads beyond the end
(`advertisement_iff`).  `net_buf` has an assertion against this, which may be left out of a build;
a device on which it fails halts.
-/

namespace NbBle

open NbSvChFilter (Characteristic)

/-! ## Reading -/

/-- `struct net_buf_simple`: the memory from the begin of the advertisement on, how far `data` has
moved, and `len`.  The offsets that were read and whether an assertion has failed are kept. -/
structure NetBuf where
  memory : Nat → UInt8
  pos : Nat
  len : UInt16
  reads : List Nat
  halted : Bool

namespace NetBuf

/-- An advertisement that was received. -/
def received (memory : Nat → UInt8) (len : UInt16) : NetBuf := ⟨memory, 0, len, [], false⟩

/-- Some bytes are read. -/
def touch (b : NetBuf) (offset n : Nat) : NetBuf :=
  if b.halted then b else { b with reads := b.reads ++ List.range' offset n }

/-- `net_buf_simple_pull`; `checked` tells whether there are assertions. -/
def pull (checked : Bool) (b : NetBuf) (n : Nat) : NetBuf :=
  if checked && decide (b.len.toNat < n) then { b with halted := true }
  else { b with pos := b.pos + n, len := b.len - UInt16.ofNat n }

/-- `net_buf_simple_pull_u8`. -/
def pullU8 (checked : Bool) (b : NetBuf) : UInt8 × NetBuf :=
  (b.memory b.pos, (b.touch b.pos 1).pull checked 1)

/-- `net_buf_simple_pull_mem`: the offset of the memory, which is not read yet. -/
def pullMem (checked : Bool) (b : NetBuf) (n : Nat) : Nat × NetBuf := (b.pos, b.pull checked n)

/-- The bytes at an offset. -/
def bytesAt (b : NetBuf) (offset n : Nat) : List UInt8 := (List.range' offset n).map b.memory

end NetBuf

/-! ## Definitions -/

/-- `NB_BLE_UUID`. -/
def nbBleUuid : UInt16 := 0xFFFF

/-- `BT_DATA_FLAGS`. -/
def btDataFlags : UInt8 := 0x01

/-- `BT_DATA_SVC_DATA16`. -/
def btDataSvcData16 : UInt8 := 0x16

/-- `BT_LE_AD_GENERAL | BT_LE_AD_NO_BREDR`. -/
def adFlags : UInt8 := 0x06

/-- The values of `adv_type`. -/
inductive AdvType where
  | advInd
  | advDirectInd
  | advScanInd
  | advNonconnInd
  | other (code : UInt8)
  deriving DecidableEq, Repr

/-- The advertisements that are looked at. -/
def AdvType.legacy : AdvType → Bool
  | .other _ => false
  | _ => true

/-- The build, and what decides whether a node is reported. -/
structure Scanner (chLength : Nat) where
  /-- whether `net_buf` has assertions -/
  checked : Bool
  /-- `CONFIG_NB_BLE_MIN_RSSI` -/
  minRssi : Int
  filter : NbSvChFilter.Filter chLength

/-- What is read out of an advertisement, and whether `discover_cb` is called. -/
structure Discovery where
  eid : List UInt8
  svCh : List UInt8
  connectable : Bool
  reported : Bool
  deriving DecidableEq, Repr

/-- A C string in memory. -/
def cString (bytes : List UInt8) : List UInt8 := bytes.takeWhile (· ≠ 0)

/-- The answer of `nb_sv_ch_filter_contains`. -/
def filterContains {chLength : Nat} (sc : Scanner chLength) (svCh : List UInt8) : Bool :=
  if h : svCh.length = chLength then NbSvChFilter.nbSvChFilterContains sc.filter ⟨svCh, h⟩
  else false

/-- `device_found_cb`. -/
def deviceFoundCb {chLength : Nat} (sc : Scanner chLength) (rssi : Int) (advType : AdvType)
    (ad : NetBuf) : NetBuf × Option Discovery :=
  if advType.legacy && decide (7 + chLength ≤ ad.len.toNat) then
    let (_flagsLen, ad) := ad.pullU8 sc.checked
    let (_flagsType, ad) := ad.pullU8 sc.checked
    let (_flags, ad) := ad.pullU8 sc.checked
    let (entryLen, ad) := ad.pullU8 sc.checked
    let (type, ad) := ad.pullU8 sc.checked
    if type = btDataSvcData16 ∧ 4 + chLength ≤ entryLen.toNat then
      let (uuidLow, ad) := ad.pullU8 sc.checked
      let (uuidHigh, ad) := ad.pullU8 sc.checked
      if uuidHigh.toUInt16 <<< 8 ||| uuidLow.toUInt16 = nbBleUuid then
        let (svCh, ad) := ad.pullMem sc.checked chLength
        let eidLen := entryLen.toNat - (3 + chLength)
        let (eidBuf, ad) := ad.pullMem sc.checked eidLen
        let eid := ad.bytesAt eidBuf eidLen
        let ad := ad.touch eidBuf eidLen
        let connectable := advType = .advInd || advType = .advDirectInd
        let svChOk := !filterContains sc (ad.bytesAt svCh chLength)
        let ad := ad.touch svCh chLength
        if ad.halted then (ad, none)
        else
          (ad, some ⟨cString eid, ad.bytesAt svCh chLength, connectable,
            decide (sc.minRssi ≤ rssi) && svChOk⟩)
      else (ad, none)
    else (ad, none)
  else (ad, none)

/-- An EID, which has no zero byte. -/
structure Eid where
  bytes : List UInt8
  nonzero : 0 ∉ bytes

/-- `adv_data_update`: the data of the service, unless its assertion fails. -/
def advDataUpdate {chLength : Nat} (eid : Eid) (svCh : Characteristic chLength) :
    Option (List UInt8) :=
  if 2 + chLength + eid.bytes.length ≤ 31 - (3 + 2) then
    some (nbBleUuid.toUInt8 :: (nbBleUuid >>> 8).toUInt8 :: (svCh.val ++ eid.bytes))
  else none

/-- A structure in an advertisement. -/
def structureBytes (type : UInt8) (data : List UInt8) : List UInt8 :=
  UInt8.ofNat (data.length + 1) :: type :: data

/-- The bytes that are sent. -/
def advertisement (data : List UInt8) : List UInt8 :=
  structureBytes btDataFlags [adFlags] ++ structureBytes btDataSvcData16 data

/-- Memory that begins with the given bytes. -/
def memoryOf (bytes : List UInt8) (after : Nat → UInt8) (i : Nat) : UInt8 := bytes.getD i (after i)

/-! ## Properties -/

/-- **The first property**: only the bytes of the advertisement are read. -/
def ReadsWithin {chLength : Nat} (sc : Scanner chLength) (rssi : Int) (advType : AdvType)
    (memory : Nat → UInt8) (len : UInt16) : Prop :=
  ∀ i ∈ (deviceFoundCb sc rssi advType (.received memory len)).1.reads, i < len.toNat

/-- **The second property**: what was advertised is what is read. -/
def ReadsBack {chLength : Nat} (sc : Scanner chLength) (eid : Eid)
    (svCh : Characteristic chLength) : Prop :=
  ∃ data, advDataUpdate eid svCh = some data ∧
    ∀ rssi advType after, advType.legacy = true →
      ∃ d, (deviceFoundCb sc rssi advType (.received (memoryOf (advertisement data) after)
        (UInt16.ofNat (advertisement data).length))).2 = some d ∧
        d.eid = eid.bytes ∧ d.svCh = svCh.val

/-- Service data with the UUID and a length that is not too short. -/
structure Accepted (chLength : Nat) (advType : AdvType) (memory : Nat → UInt8)
    (len : UInt16) : Prop where
  legacy : advType.legacy = true
  long : 7 + chLength ≤ len.toNat
  type : memory 4 = btDataSvcData16
  entry : 4 + chLength ≤ (memory 3).toNat
  uuid : (memory 6).toUInt16 <<< 8 ||| (memory 5).toUInt16 = nbBleUuid

/-! ## What is read -/

section

variable {chLength : Nat} {sc : Scanner chLength} {rssi : Int} {advType : AdvType}
  {memory : Nat → UInt8} {len : UInt16} {n : Nat}

/-- The first bytes were pulled. -/
def pulled (memory : Nat → UInt8) (len : UInt16) (n : Nat) : NetBuf :=
  ⟨memory, n, len - UInt16.ofNat n, List.range n, false⟩

theorem toNat_sub_ofNat (h : n ≤ len.toNat) : (len - UInt16.ofNat n).toNat = len.toNat - n := by
  have hn : (UInt16.ofNat n).toNat = n :=
    UInt16.toNat_ofNat_of_lt' (Nat.lt_of_le_of_lt h (UInt16.toNat_lt len))
  rw [UInt16.toNat_sub_of_le _ _ (by rw [UInt16.le_iff_toNat_le, hn]; exact h), hn]

theorem sub_ofNat_sub {k : Nat} (h : n + k ≤ len.toNat) :
    len - UInt16.ofNat n - UInt16.ofNat k = len - UInt16.ofNat (n + k) := by
  have hn : n ≤ len.toNat := Nat.le_of_add_right_le h
  apply UInt16.toNat_inj.mp
  rw [toNat_sub_ofNat (by rw [toNat_sub_ofNat hn]; omega), toNat_sub_ofNat hn, toNat_sub_ofNat h]
  omega

/-- Where there are enough bytes, no assertion fails. -/
theorem pull_of_le (checked : Bool) {b : NetBuf} (h : n ≤ b.len.toNat) :
    b.pull checked n = { b with pos := b.pos + n, len := b.len - UInt16.ofNat n } := by
  unfold NetBuf.pull
  rw [decide_eq_false (Nat.not_lt.mpr h), Bool.and_false]
  rfl

/-- One more byte. -/
theorem pullU8_pulled (checked : Bool) (h : n < len.toNat) :
    (pulled memory len n).pullU8 checked = (memory n, pulled memory len (n + 1)) := by
  have hlen := toNat_sub_ofNat (Nat.le_of_lt h)
  have hnext : len - UInt16.ofNat n - UInt16.ofNat 1 = len - UInt16.ofNat (n + 1) :=
    sub_ofNat_sub h
  have hone : 1 ≤ ((pulled memory len n).touch n 1).len.toNat := by
    show 1 ≤ (len - UInt16.ofNat n).toNat
    omega
  unfold NetBuf.pullU8
  rw [show (pulled memory len n).pos = n from rfl, pull_of_le checked hone]
  simp only [pulled, NetBuf.touch, hnext, List.range'_one, List.range_succ, if_false,
    Bool.false_eq_true]

/-- The length of the EID, as it is computed from the length of the service data. -/
def eidLen (chLength : Nat) (memory : Nat → UInt8) : Nat := (memory 3).toNat - (3 + chLength)

/-- What is read of an advertisement that is accepted, if no assertion fails. -/
def acceptedReads (chLength : Nat) (memory : Nat → UInt8) : List Nat :=
  List.range 7 ++ List.range' (7 + chLength) (eidLen chLength memory) ++ List.range' 7 chLength

/-- The end of `device_found_cb`, after the characteristic and the EID were pulled. -/
def found (sc : Scanner chLength) (rssi : Int) (advType : AdvType) (memory : Nat → UInt8)
    (ad : NetBuf) : NetBuf × Option Discovery :=
  let n := eidLen chLength memory
  let ad' := (ad.touch (7 + chLength) n).touch 7 chLength
  if ad'.halted then (ad', none)
  else
    (ad', some ⟨cString (ad.bytesAt (7 + chLength) n),
      ad'.bytesAt 7 chLength, advType = .advInd || advType = .advDirectInd,
      decide (sc.minRssi ≤ rssi) &&
        !filterContains sc ((ad.touch (7 + chLength) n).bytesAt 7 chLength)⟩)

/-- The buffer after the characteristic was pulled. -/
def afterSvCh (chLength : Nat) (memory : Nat → UInt8) (len : UInt16) : NetBuf :=
  ⟨memory, 7 + chLength, len - UInt16.ofNat (7 + chLength), List.range 7, false⟩

/-- **`device_found_cb`**: the fixed parts are there, the EID is pulled whatever its length is. -/
theorem deviceFoundCb_eq : deviceFoundCb sc rssi advType (.received memory len) =
    if advType.legacy && decide (7 + chLength ≤ len.toNat) then
      if memory 4 = btDataSvcData16 ∧ 4 + chLength ≤ (memory 3).toNat then
        if (memory 6).toUInt16 <<< 8 ||| (memory 5).toUInt16 = nbBleUuid then
          found sc rssi advType memory
            ((afterSvCh chLength memory len).pull sc.checked (eidLen chLength memory))
        else (pulled memory len 7, none)
      else (pulled memory len 5, none)
    else (.received memory len, none) := by
  unfold deviceFoundCb
  by_cases htest : (advType.legacy && decide (7 + chLength ≤ len.toNat)) = true
  · have hlong : 7 + chLength ≤ len.toNat := of_decide_eq_true (Bool.and_eq_true_iff.mp htest).2
    have hstart : NetBuf.received memory len = pulled memory len 0 := by
      unfold NetBuf.received pulled
      rw [show UInt16.ofNat 0 = 0 from rfl, UInt16.sub_zero]
      rfl
    have hpull : ∀ n, n < 7 → (pulled memory len n).pullU8 sc.checked =
        (memory n, pulled memory len (n + 1)) := fun n hn => pullU8_pulled _ (by omega)
    have hmem : (pulled memory len 7).pullMem sc.checked chLength =
        (7, afterSvCh chLength memory len) := by
      have hlen : (len - UInt16.ofNat 7).toNat = len.toNat - 7 := toNat_sub_ofNat (by omega)
      have hle : chLength ≤ (pulled memory len 7).len.toNat := by
        show chLength ≤ (len - UInt16.ofNat 7).toNat
        omega
      unfold NetBuf.pullMem
      rw [pull_of_le _ hle]
      simp only [pulled, afterSvCh, sub_ofNat_sub hlong]
    have hcode : (advType.legacy &&
        decide (7 + chLength ≤ (NetBuf.received memory len).len.toNat)) = true := htest
    rw [if_pos hcode, if_pos htest, hstart, hpull 0 (by decide)]
    dsimp only
    rw [hpull 1 (by decide)]
    dsimp only
    rw [hpull 2 (by decide)]
    dsimp only
    rw [hpull 3 (by decide)]
    dsimp only
    rw [hpull 4 (by decide)]
    dsimp only
    by_cases htype : memory 4 = btDataSvcData16 ∧ 4 + chLength ≤ (memory 3).toNat
    · rw [if_pos htype, if_pos htype, hpull 5 (by decide)]
      dsimp only
      rw [hpull 6 (by decide)]
      dsimp only
      by_cases huuid : (memory 6).toUInt16 <<< 8 ||| (memory 5).toUInt16 = nbBleUuid
      · rw [if_pos huuid, if_pos huuid, hmem]
        rfl
      · rw [if_neg huuid, if_neg huuid]
    · rw [if_neg htype, if_neg htype]
  · exact (if_neg htest).trans (if_neg htest).symm

theorem deviceFoundCb_accepted (h : Accepted chLength advType memory len) :
    deviceFoundCb sc rssi advType (.received memory len) = found sc rssi advType memory
      ((afterSvCh chLength memory len).pull sc.checked (eidLen chLength memory)) := by
  have htest : (advType.legacy && decide (7 + chLength ≤ len.toNat)) = true :=
    Bool.and_eq_true_iff.mpr ⟨h.legacy, decide_eq_true h.long⟩
  rw [deviceFoundCb_eq, if_pos htest, if_pos ⟨h.type, h.entry⟩, if_pos h.uuid]

/-- What is not accepted is not reported, and only the fixed parts of it are read. -/
theorem deviceFoundCb_rejected (h : ¬ Accepted chLength advType memory len) :
    (∀ i ∈ (deviceFoundCb sc rssi advType (.received memory len)).1.reads, i < len.toNat) ∧
      (deviceFoundCb sc rssi advType (.received memory len)).2 = none := by
  have hrange : ∀ {n : Nat}, n ≤ 7 → 7 + chLength ≤ len.toNat → ∀ i ∈ List.range n,
      i < len.toNat := by
    intro n hn hlong i hi
    have := List.mem_range.mp hi
    omega
  rw [deviceFoundCb_eq]
  split
  · next htest =>
    obtain ⟨hlegacy, hlong⟩ := Bool.and_eq_true_iff.mp htest
    have hlong := of_decide_eq_true hlong
    split
    · next htype =>
      split
      · next huuid => exact absurd ⟨hlegacy, hlong, htype.1, htype.2, huuid⟩ h
      · exact ⟨hrange (Nat.le_refl 7) hlong, rfl⟩
    · exact ⟨hrange (by decide) hlong, rfl⟩
  · exact ⟨nofun, rfl⟩

/-- The assertion in front of the EID fails. -/
theorem found_halted (hchecked : sc.checked = true) (hlong : 7 + chLength ≤ len.toNat)
    (hover : len.toNat < 7 + chLength + eidLen chLength memory) :
    (found sc rssi advType memory
      ((afterSvCh chLength memory len).pull sc.checked (eidLen chLength memory))).1.reads =
      List.range 7 := by
  have hlen : (afterSvCh chLength memory len).len.toNat = len.toNat - (7 + chLength) :=
    toNat_sub_ofNat hlong
  unfold NetBuf.pull
  rw [hchecked, Bool.true_and, if_pos (decide_eq_true (by omega))]
  rfl

/-- The assertion in front of the EID does not fail, or does not exist. -/
theorem found_eq (hlong : 7 + chLength ≤ len.toNat)
    (hok : sc.checked = true → 7 + chLength + eidLen chLength memory ≤ len.toNat) :
    (found sc rssi advType memory
      ((afterSvCh chLength memory len).pull sc.checked (eidLen chLength memory))).1.reads =
      acceptedReads chLength memory ∧
    ∃ d, (found sc rssi advType memory
      ((afterSvCh chLength memory len).pull sc.checked (eidLen chLength memory))).2 = some d ∧
      d.eid = cString ((List.range' (7 + chLength) (eidLen chLength memory)).map memory) ∧
      d.svCh = (List.range' 7 chLength).map memory := by
  have hlen : (afterSvCh chLength memory len).len.toNat = len.toNat - (7 + chLength) :=
    toNat_sub_ofNat hlong
  have hpull : ¬ (sc.checked &&
      decide ((afterSvCh chLength memory len).len.toNat < eidLen chLength memory)) = true := by
    intro h
    obtain ⟨hchecked, hlt⟩ := Bool.and_eq_true_iff.mp h
    have := hok hchecked
    have := of_decide_eq_true hlt
    omega
  unfold NetBuf.pull
  rw [if_neg hpull]
  exact ⟨rfl, _, rfl, rfl, rfl⟩

/-- **When only the advertisement is read**: the service data ends within it, unless an assertion
stops the device. -/
theorem readsWithin_iff : ReadsWithin sc rssi advType memory len ↔
    (Accepted chLength advType memory len →
      sc.checked = true ∨ (memory 3).toNat + 4 ≤ len.toNat) := by
  by_cases h : Accepted chLength advType memory len
  · have hlong := h.long
    have hentry := h.entry
    have hend : 7 + chLength + eidLen chLength memory = (memory 3).toNat + 4 := by
      unfold eidLen
      omega
    unfold ReadsWithin
    rw [deviceFoundCb_accepted h]
    by_cases hfits : (memory 3).toNat + 4 ≤ len.toNat
    · refine iff_of_true ?_ fun _ => .inr hfits
      rw [(found_eq hlong fun _ => hend ▸ hfits).1]
      intro i hi
      rcases List.mem_append.mp hi with hi | hi
      · rcases List.mem_append.mp hi with hi | hi
        · have := List.mem_range.mp hi
          omega
        · have := (List.mem_range'_1.mp hi).2
          omega
      · have := (List.mem_range'_1.mp hi).2
        omega
    · by_cases hchecked : sc.checked = true
      · refine iff_of_true ?_ fun _ => .inl hchecked
        rw [found_halted hchecked hlong (by omega)]
        intro i hi
        have := List.mem_range.mp hi
        omega
      · refine iff_of_false (fun hall => ?_) fun hcond => ?_
        · -- the last byte of the EID
          rw [(found_eq hlong fun h => absurd h hchecked).1] at hall
          have hlast : (memory 3).toNat + 3 ∈ acceptedReads chLength memory :=
            List.mem_append_left _ (List.mem_append_right _ (List.mem_range'_1.mpr
              ⟨by omega, by omega⟩))
          have := hall _ hlast
          omega
        · exact (hcond h).elim hchecked hfits
  · exact iff_of_true (deviceFoundCb_rejected h).1 fun h' => absurd h' h

/-! ## What is read back -/

theorem map_memoryOf {bytes : List UInt8} {after : Nat → UInt8} {offset : Nat}
    (h : offset + n ≤ bytes.length) :
    (List.range' offset n).map (memoryOf bytes after) = (bytes.drop offset).take n := by
  apply List.ext_getElem
  · simp only [List.length_map, List.length_range', List.length_take, List.length_drop]
    omega
  · intro i hi _
    simp only [List.length_map, List.length_range'] at hi
    simp only [List.getElem_map, List.getElem_range', List.getElem_take, List.getElem_drop,
      memoryOf, Nat.one_mul]
    rw [List.getD_eq_getElem?_getD, List.getElem?_eq_getElem (by omega), Option.getD_some]

theorem cString_eid (eid : Eid) : cString eid.bytes = eid.bytes := by
  apply List.takeWhile_eq_self_iff.mpr
  intro b hb
  exact decide_eq_true fun hzero => eid.nonzero (hzero ▸ hb)

/-- The bytes in front of the characteristic. -/
def header (entryLen : Nat) : List UInt8 :=
  [2, btDataFlags, adFlags, UInt8.ofNat entryLen, btDataSvcData16, 0xFF, 0xFF]

variable {eid : Eid} {svCh : Characteristic chLength}

theorem advDataUpdate_eq (eid : Eid) (svCh : Characteristic chLength)
    (hfits : 2 + chLength + eid.bytes.length ≤ 26) :
    ∃ data, advDataUpdate eid svCh = some data ∧ advertisement data =
      header (3 + chLength + eid.bytes.length) ++ (svCh.val ++ eid.bytes) := by
  refine ⟨_, if_pos hfits, ?_⟩
  have hlength : svCh.val.length = chLength := svCh.property
  unfold advertisement structureBytes header
  simp only [List.length_cons, List.length_append, hlength, List.length_nil, List.cons_append,
    List.nil_append]
  rw [show chLength + eid.bytes.length + 1 + 1 + 1 = 3 + chLength + eid.bytes.length by omega]
  rfl

/-- **What is read of an advertisement of this node.** -/
theorem readsBack_iff (hfits : 2 + chLength + eid.bytes.length ≤ 26) :
    ReadsBack sc eid svCh ↔ eid.bytes ≠ [] := by
  obtain ⟨data, hdata, hbytes⟩ := advDataUpdate_eq eid svCh hfits
  have hch : svCh.val.length = chLength := svCh.property
  have hlength : (advertisement data).length = 7 + chLength + eid.bytes.length := by
    rw [hbytes, List.length_append, List.length_append, hch]
    simp only [header, List.length_cons, List.length_nil]
    omega
  have hlen : (UInt16.ofNat (advertisement data).length).toNat =
      7 + chLength + eid.bytes.length := by
    rw [hlength]
    exact UInt16.toNat_ofNat_of_lt' (show _ < 65536 by omega)
  have hentry : ∀ after, (memoryOf (advertisement data) after 3).toNat =
      3 + chLength + eid.bytes.length := by
    intro after
    rw [hbytes]
    exact UInt8.toNat_ofNat_of_lt' (show _ < 256 by omega)
  constructor
  · rintro ⟨data', hdata', hall⟩ hempty
    obtain rfl := Option.some.inj (hdata.symm.trans hdata')
    obtain ⟨d, hd, _⟩ := hall 0 .advInd (fun _ => 0) rfl
    have hrejected : ¬ Accepted chLength .advInd (memoryOf (advertisement data) fun _ => 0)
        (UInt16.ofNat (advertisement data).length) := by
      intro h
      have hle := h.entry
      rw [hentry, hempty, List.length_nil] at hle
      omega
    rw [(deviceFoundCb_rejected hrejected).2] at hd
    cases hd
  · intro hne
    have hpos := List.length_pos_iff.mpr hne
    refine ⟨data, hdata, fun rssi advType after hlegacy => ?_⟩
    have haccepted : Accepted chLength advType (memoryOf (advertisement data) after)
        (UInt16.ofNat (advertisement data).length) := by
      refine ⟨hlegacy, by rw [hlen]; omega, ?_, by rw [hentry]; omega, ?_⟩
      · rw [hbytes]
        rfl
      · rw [hbytes]
        show (0xFF : UInt8).toUInt16 <<< 8 ||| (0xFF : UInt8).toUInt16 = nbBleUuid
        decide
    have hn : eidLen chLength (memoryOf (advertisement data) after) = eid.bytes.length := by
      unfold eidLen
      rw [hentry]
      omega
    obtain ⟨_, d, hd, heid, hsvCh⟩ := @found_eq chLength sc rssi advType
      (memoryOf (advertisement data) after) _ haccepted.long
      (fun _ => by rw [hn, hlen])
    refine ⟨d, (congrArg Prod.snd (deviceFoundCb_accepted haccepted)).trans hd, ?_, ?_⟩
    · rw [heid, hn, map_memoryOf (by rw [hlength])]
      have hdrop : (advertisement data).drop (7 + chLength) = eid.bytes := by
        rw [hbytes, ← List.append_assoc]
        exact List.drop_left' (by rw [List.length_append, hch]; rfl)
      rw [hdrop, List.take_length]
      exact cString_eid eid
    · rw [hsvCh, map_memoryOf (by rw [hlength]; omega), hbytes]
      have hdrop : (header (3 + chLength + eid.bytes.length) ++ (svCh.val ++ eid.bytes)).drop 7 =
          svCh.val ++ eid.bytes := List.drop_left' rfl
      rw [hdrop]
      exact List.take_left' hch

/-- **Advertisements.** -/
theorem advertisement_iff (sc : Scanner chLength) :
    (∀ rssi advType memory len, ReadsWithin sc rssi advType memory len ↔
      (Accepted chLength advType memory len →
        sc.checked = true ∨ (memory 3).toNat + 4 ≤ len.toNat)) ∧
    ∀ (eid : Eid) (svCh : Characteristic chLength), 2 + chLength + eid.bytes.length ≤ 26 →
      (ReadsBack sc eid svCh ↔ eid.bytes ≠ []) :=
  ⟨fun _ _ _ _ => readsWithin_iff, fun _ _ => readsBack_iff⟩

end

/-- A node that filters nothing but the characteristic of an empty summary vector. -/
def openScanner (checked : Bool) : Scanner 8 where
  checked
  minRssi := -120
  filter := NbSvChFilter.nbSvChFilterInit 1 (by decide)

/-- An EID of three bytes, and an advertisement without service data. -/
theorem advertisement_iff_short :
    ReadsWithin (openScanner false) 0 .advInd (fun _ => 0) 31 ∧
      ReadsBack (openScanner false) ⟨[0x64, 0x74, 0x6E], by decide⟩
        ⟨[1, 2, 3, 4, 5, 6, 7, 8], rfl⟩ := by
  have hboth := advertisement_iff (openScanner false)
  refine ⟨(hboth.1 0 .advInd (fun _ => 0) 31).mpr fun h => ?_,
    (hboth.2 _ _ (by decide)).mpr (by decide)⟩
  exact absurd h.type (by decide)

/-- **Too long service data.**  An advertisement of 31 bytes whose service data claims to have 255:
228 bytes after its end are read. -/
theorem reads_beyond_end : ¬ ∀ (sc : Scanner 8),
    (∀ rssi advType memory len, ReadsWithin sc rssi advType memory len) ∧
      ∀ (eid : Eid) (svCh : Characteristic 8), eid.bytes.length ≤ 16 → ReadsBack sc eid svCh := by
  intro hall
  have hwithin := (hall (openScanner false)).1 0 .advInd
    (memoryOf (header 255) fun _ => 0) 31
  have hlast := readsWithin_iff.mp hwithin ⟨rfl, by decide, rfl, by decide, rfl⟩
  exact absurd hlast (by decide)

end NbBle
