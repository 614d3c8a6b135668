import DisruptaBLE.Lib.Heap
import DisruptaBLE.Lib.Terminated
import Mathlib.Algebra.Group.Int.Defs

/-!
# Lists of endpoint identifiers as bytes

`components/ud3tn/eid_list.c`: the number of strings in one byte, and the strings with their NULs.

The encoder counts the bytes of a string with a `uint8_t`, the decoder stores a string before it
knows that there is room for it.  `EncodesBack` and `DecodesExactly` say what the pair of functions
is for, and the last theorem for which inputs it is true.
-/

namespace EidList

open PtrHeap (Fault)
open Terminated

/-- A C string without its NUL. -/
abbrev Eid := Word (0 : UInt8)

/-! ## Decoder -/

/-- `eidlist_decode`, the loop.  `rest` are the bytes from `ptr[i]` on, `result` are the strings
that were stored, with their NULs, in an array of `capacity` pointers. -/
def decodeLoop (malloc : Nat → Bool) (capacity : UInt8) :
    Nat → UInt8 → List (List UInt8) → List UInt8 → Except Fault (Option (List (List UInt8)))
  | _, eidIndex, result, [] => .ok (if eidIndex ≠ capacity then none else some result)
  | 0, _, _, _ :: _ => .error .diverged
  | fuel + 1, eidIndex, result, byte :: rest =>
      match (byte :: rest).findIdx? (· == 0) with
      | none => .ok none
      | some eidLength =>
          -- `result[eid_index]` is written before the result of `malloc` is looked at
          if capacity ≤ eidIndex then .error .dangling
          else if malloc (eidLength + 1) = false then .ok none
          else
            decodeLoop malloc capacity fuel (eidIndex + 1)
              (result ++ [(byte :: rest).take (eidLength + 1)])
              ((byte :: rest).drop (eidLength + 1))

/-- `eidlist_decode`: the strings, with their NULs; `none` is `NULL`. -/
def eidlistDecode (malloc : Nat → Bool) (bytes : List UInt8) :
    Except Fault (Option (List (List UInt8))) :=
  match bytes with
  | [] => .ok none
  | [_] => .ok none
  | count :: rest =>
      if malloc (8 * count.toNat) = false then .ok none
      else decodeLoop malloc count rest.length 0 [] rest

/-! ## Encoder -/

/-- `*res_len`, an `int` to which lengths of type `size_t` are added. -/
def resLen (eids : List Eid) : Int32 :=
  eids.foldl (fun n eid => n + Int32.ofNat (eid.1.length + 1)) 1

/-- `eidlist_encode`, the loop over one string.  `j` is a `uint8_t`, `room` is what is left of the
buffer. -/
def copyLoop (eid : List UInt8) : Nat → UInt8 → List UInt8 → Except Fault (List UInt8)
  | 0, _, _ => .error .dangling
  | room + 1, j, res =>
      match eid[j.toNat]? with
      | none => .error .dangling
      | some c =>
          if c = 0 then .ok (res ++ [c])
          else copyLoop eid room (j + 1) (res ++ [c])

/-- `eidlist_encode`, the loop over the strings, into a buffer of `size` bytes. -/
def encodeLoop (size : Nat) : List Eid → List UInt8 → Except Fault (List UInt8)
  | [], res => .ok res
  | eid :: eids, res =>
      match copyLoop eid.closed (size - res.length) 0 res with
      | .error e => .error e
      | .ok res => encodeLoop size eids res

/-- `eidlist_encode`: what was written and `*res_len`.  A negative length becomes a `size_t` of 64
bits. -/
def eidlistEncode (malloc : Nat → Bool) (eids : List Eid) (count : UInt8) :
    Except Fault (Option (List UInt8) × Int) :=
  if eids.length < count.toNat then .error .dangling
  else
    let eids := eids.take count.toNat
    let size := ((resLen eids).toInt % 2 ^ 64).toNat
    if malloc size = false then .ok (none, -1)
    else if size = 0 then .error .dangling
    else
      match encodeLoop size eids [count] with
      | .error e => .error e
      | .ok res => .ok (some res, (resLen eids).toInt)

/-! ## Purpose -/

/-- The encoder returns `*res_len` bytes, and the decoder gets the list back from them. -/
def EncodesBack (malloc : Nat → Bool) (eids : List Eid) : Prop :=
  ∃ res len, eidlistEncode malloc eids (UInt8.ofNat eids.length) = .ok (some res, len) ∧
    len = res.length ∧ eidlistDecode malloc res = .ok (some (eids.map Word.closed))

/-- The first byte is the number of the strings that follow it. -/
def IsEidList (bytes : List UInt8) : Prop :=
  ∃ count, ∃ eids : List Eid, bytes = count :: wire eids ∧ eids.length = count.toNat

/-- The decoder does not write behind its array, and succeeds for lists of strings only. -/
def DecodesExactly (malloc : Nat → Bool) (bytes : List UInt8) : Prop :=
  ∃ result, eidlistDecode malloc bytes = .ok result ∧ (result ≠ none ↔ IsEidList bytes)

/-! ## What the decoder does -/

section Decoder

variable {malloc : Nat → Bool}

theorem decodeLoop_tail {capacity : UInt8} {fuel : Nat} {eidIndex : UInt8}
    {result : List (List UInt8)} {tail : List UInt8} (hfuel : tail.length ≤ fuel)
    (htail : (0 : UInt8) ∉ tail) (hne : tail ≠ []) :
    decodeLoop malloc capacity fuel eidIndex result tail = .ok none := by
  have hnone : tail.findIdx? (· == 0) = none := by
    rw [List.findIdx?_eq_none_iff]
    intro x hx
    refine beq_eq_false_iff_ne.mpr ?_
    intro heq
    obtain rfl := heq
    exact htail hx
  cases tail with
  | nil => exact absurd rfl hne
  | cons byte rest =>
      cases fuel with
      | zero => simp at hfuel
      | succ fuel => rw [decodeLoop, hnone]

/-- One round of the loop. -/
theorem decodeLoop_word (hmem : ∀ n, 0 < n → malloc n = true) {capacity : UInt8} {fuel : Nat}
    {eidIndex : UInt8} {result : List (List UInt8)} (eid : Eid) (rest : List UInt8) :
    decodeLoop malloc capacity (fuel + 1) eidIndex result (eid.closed ++ rest) =
      if capacity ≤ eidIndex then .error .dangling
      else decodeLoop malloc capacity fuel (eidIndex + 1) (result ++ [eid.closed]) rest := by
  have hfirst := findIdx_closed eid rest
  have htake : (eid.closed ++ rest).take (eid.1.length + 1) = eid.closed := by
    rw [← eid.length_closed, List.take_left]
  have hdrop : (eid.closed ++ rest).drop (eid.1.length + 1) = rest := by
    rw [← eid.length_closed, List.drop_left]
  obtain ⟨byte, more, hcons⟩ : ∃ byte more, eid.closed ++ rest = byte :: more :=
    List.exists_cons_of_ne_nil (by simp [Word.closed])
  rw [hcons] at hfirst htake hdrop ⊢
  rw [decodeLoop, hfirst]
  simp only [hmem (eid.1.length + 1) (Nat.succ_pos _), htake, hdrop, Bool.true_eq_false, if_false]

/-- Below the capacity the index does not wrap. -/
theorem index_succ {capacity eidIndex : UInt8} {result : List (List UInt8)}
    (hindex : eidIndex.toNat = result.length) (hlt : result.length < capacity.toNat)
    (eid : List UInt8) : (eidIndex + 1).toNat = (result ++ [eid]).length := by
  have hsmall := capacity.toNat_lt
  rw [UInt8.toNat_add, hindex, List.length_append, List.length_singleton]
  exact Nat.mod_eq_of_lt (by simp; omega)

/-- With room for all strings of the data, the loop stores them and looks at the number and the
rest. -/
theorem decodeLoop_room (hmem : ∀ n, 0 < n → malloc n = true) {capacity : UInt8} {fuel : Nat}
    {eidIndex : UInt8} {result : List (List UInt8)} {tail : List UInt8} (eids : List Eid)
    (hfuel : (wire eids ++ tail).length ≤ fuel) (hindex : eidIndex.toNat = result.length)
    (htail : (0 : UInt8) ∉ tail) (hroom : result.length + eids.length ≤ capacity.toNat) :
    decodeLoop malloc capacity fuel eidIndex result (wire eids ++ tail) =
      .ok (if tail = [] ∧ result.length + eids.length = capacity.toNat then
          some (result ++ eids.map Word.closed)
        else none) := by
  induction eids generalizing fuel eidIndex result with
  | nil =>
      rw [wire_nil, List.nil_append] at hfuel ⊢
      by_cases hnil : tail = []
      · subst hnil
        have hall : eidIndex ≠ capacity ↔ ¬ result.length + 0 = capacity.toNat := by
          rw [← hindex, ne_eq, ← UInt8.toNat_inj, Nat.add_zero]
        rw [decodeLoop]
        simp [hall]
      · rw [decodeLoop_tail hfuel htail hnil, if_neg (fun h => hnil h.1)]
  | cons eid eids ih =>
      rw [List.length_cons] at hroom
      rw [wire_cons, List.append_assoc] at hfuel ⊢
      have hstep := index_succ hindex (by omega : result.length < capacity.toNat) eid.closed
      have hfree : ¬ capacity ≤ eidIndex := by
        rw [UInt8.le_iff_toNat_le, hindex]
        omega
      cases fuel with
      | zero => simp [Word.closed] at hfuel
      | succ fuel =>
          rw [decodeLoop_word hmem, if_neg hfree, ih _ hstep]
          · simp [Nat.add_assoc, Nat.add_comm 1]
          · simp only [List.length_append, List.length_singleton]
            omega
          · rw [List.length_append, eid.length_closed] at hfuel
            omega

/-- A string more than there is room for is written behind the array. -/
theorem decodeLoop_overrun (hmem : ∀ n, 0 < n → malloc n = true) {capacity : UInt8} {fuel : Nat}
    {eidIndex : UInt8} {result : List (List UInt8)} {tail : List UInt8} (eids : List Eid)
    (hfuel : (wire eids ++ tail).length ≤ fuel) (hindex : eidIndex.toNat = result.length)
    (hroom : result.length ≤ capacity.toNat)
    (hover : capacity.toNat < result.length + eids.length) :
    decodeLoop malloc capacity fuel eidIndex result (wire eids ++ tail) = .error .dangling := by
  induction eids generalizing fuel eidIndex result with
  | nil =>
      rw [List.length_nil] at hover
      omega
  | cons eid eids ih =>
      rw [List.length_cons] at hover
      rw [wire_cons, List.append_assoc] at hfuel ⊢
      cases fuel with
      | zero => simp [Word.closed] at hfuel
      | succ fuel =>
          rw [decodeLoop_word hmem]
          by_cases hfull : capacity ≤ eidIndex
          · rw [if_pos hfull]
          · rw [UInt8.le_iff_toNat_le, hindex] at hfull
            have hstep := index_succ hindex (by omega : result.length < capacity.toNat) eid.closed
            rw [if_neg (by rw [UInt8.le_iff_toNat_le, hindex]; omega), ih _ hstep]
            · simp only [List.length_append, List.length_singleton]
              omega
            · simp only [List.length_append, List.length_singleton]
              omega
            · rw [List.length_append, eid.length_closed] at hfuel
              omega

theorem isEidList_iff {count : UInt8} {eids : List Eid} {tail : List UInt8}
    (htail : (0 : UInt8) ∉ tail) :
    IsEidList (count :: (wire eids ++ tail)) ↔ tail = [] ∧ eids.length = count.toNat := by
  constructor
  · intro hsome
    obtain ⟨count', eids', heq, hlength⟩ := hsome
    obtain ⟨rfl, hwire⟩ := List.cons.inj heq
    obtain ⟨rfl, hnil⟩ := (wire_append_eq_wire htail).mp hwire
    exact ⟨hnil, hlength⟩
  · intro hsame
    obtain ⟨rfl, hlength⟩ := hsame
    exact ⟨count, eids, by rw [List.append_nil], hlength⟩

theorem eidlistDecode_cons {count : UInt8} {rest : List UInt8} (hne : rest ≠ []) :
    eidlistDecode malloc (count :: rest) =
      if malloc (8 * count.toNat) = false then .ok none
      else decodeLoop malloc count rest.length 0 [] rest := by
  cases rest with
  | nil => exact absurd rfl hne
  | cons byte rest => rfl

/-- The decoder gets a list back from its bytes. -/
theorem eidlistDecode_wire (hmem : ∀ n, 0 < n → malloc n = true) {eids : List Eid}
    (hpos : 1 ≤ eids.length) (hmax : eids.length ≤ 255) :
    eidlistDecode malloc (UInt8.ofNat eids.length :: wire eids) =
      .ok (some (eids.map Word.closed)) := by
  have hcount : (UInt8.ofNat eids.length).toNat = eids.length := by
    rw [UInt8.toNat_ofNat']
    exact Nat.mod_eq_of_lt (by omega)
  have hne : wire eids ≠ [] := by
    intro hnil
    have hnone := count_wire eids
    rw [hnil, List.count_nil] at hnone
    omega
  have hloop := @decodeLoop_room malloc hmem (UInt8.ofNat eids.length) (wire eids).length 0 [] []
    eids (by rw [List.append_nil]) rfl List.not_mem_nil (by simp [hcount])
  rw [List.append_nil] at hloop
  rw [eidlistDecode_cons hne, hcount, hmem _ (by omega), hloop]
  simp [hcount]

/-- The length alone decides about a single byte, so that the empty list is refused. -/
theorem decodesExactly_single (count : UInt8) : DecodesExactly malloc [count] ↔ count ≠ 0 := by
  have hlist : IsEidList [count] ↔ 0 = count.toNat := by
    simpa using @isEidList_iff count [] [] List.not_mem_nil
  have hzero : count = 0 ↔ 0 = count.toNat := by
    rw [← UInt8.toNat_inj, UInt8.toNat_zero, eq_comm]
  rw [ne_eq, hzero]
  constructor
  · intro hdecodes hcount
    obtain ⟨result, hresult, hiff⟩ := hdecodes
    obtain rfl := Except.ok.inj hresult
    exact hiff.mpr (hlist.mpr hcount) rfl
  · intro hne
    exact ⟨none, rfl, iff_of_false (fun h => h rfl) (fun h => hne (hlist.mp h))⟩

/-- The decoder is right up to one byte that announces nothing, and up to more strings than
announced. -/
theorem decodesExactly_iff (hmem : ∀ n, 0 < n → malloc n = true) (bytes : List UInt8) :
    DecodesExactly malloc bytes ↔
      bytes ≠ [0] ∧ (bytes.tail.count 0 ≤ (bytes.headD 0).toNat ∨
        malloc (8 * (bytes.headD 0).toNat) = false) := by
  cases bytes with
  | nil =>
      have hnot : ¬ IsEidList [] := by
        intro hsome
        obtain ⟨_, _, heq, _⟩ := hsome
        cases heq
      simp [DecodesExactly, eidlistDecode, hnot]
  | cons count rest =>
      obtain ⟨eids, tail, rfl, htail⟩ := exists_words (0 : UInt8) rest
      have hzeros : (wire eids ++ tail).count 0 = eids.length := by
        rw [List.count_append, count_wire, List.count_eq_zero.mpr htail, Nat.add_zero]
      rw [List.tail_cons, List.headD_cons, hzeros]
      by_cases hempty : wire eids ++ tail = []
      · have hnone : eids.length = 0 := by rw [← hzeros, hempty, List.count_nil]
        rw [hempty, hnone, decodesExactly_single]
        simp
      · rw [DecodesExactly, isEidList_iff htail, eidlistDecode_cons hempty]
        have hbytes : count :: (wire eids ++ tail) ≠ [0] := by simpa using fun _ => hempty
        by_cases hserved : malloc (8 * count.toNat) = false
        · have hcount : count.toNat = 0 := by
            by_contra hne
            rw [hmem _ (by omega)] at hserved
            cases hserved
          have hnot : ¬ (tail = [] ∧ eids.length = count.toNat) := by
            intro hsame
            obtain ⟨rfl, hlength⟩ := hsame
            rw [hcount, List.length_eq_zero_iff] at hlength
            exact hempty (by rw [hlength]; rfl)
          rw [if_pos hserved]
          refine iff_of_true ⟨none, rfl, ?_⟩ ⟨hbytes, Or.inr hserved⟩
          exact iff_of_false (fun h => h rfl) hnot
        · rw [if_neg hserved]
          by_cases hroom : eids.length ≤ count.toNat
          · rw [decodeLoop_room hmem eids (Nat.le_refl _) rfl htail (by simpa using hroom)]
            simp [hbytes, hroom]
          · rw [decodeLoop_overrun hmem eids (Nat.le_refl _) rfl (Nat.zero_le _)
              (by simpa using hroom)]
            simp [hroom, hserved]

end Decoder

/-! ## What the encoder does -/

/-- A string that the 8-bit index can count is copied with its NUL. -/
theorem copyLoop_short {eid : Eid} (hshort : eid.1.length < 256) {room : Nat} {j : UInt8}
    {res : List UInt8} (hj : j.toNat ≤ eid.1.length) (hroom : eid.1.length - j.toNat < room) :
    copyLoop eid.closed room j res = .ok (res ++ eid.closed.drop j.toNat) := by
  induction room generalizing j res with
  | zero => omega
  | succ room ih =>
      have hlt : j.toNat < eid.closed.length := by
        rw [eid.length_closed]
        omega
      rw [copyLoop, List.getElem?_eq_getElem hlt, List.drop_eq_getElem_cons hlt]
      by_cases hend : j.toNat = eid.1.length
      · have hnul : eid.closed[j.toNat] = 0 := by simp [Word.closed, hend]
        have hdrop : eid.closed.drop (j.toNat + 1) = [] := by
          rw [List.drop_eq_nil_iff, eid.length_closed, hend]
        simp [hnul, hdrop]
      · have hin : j.toNat < eid.1.length := by omega
        have hnext : (j + 1).toNat = j.toNat + 1 := by
          rw [UInt8.toNat_add]
          exact Nat.mod_eq_of_lt (by simp; omega)
        have hchar : eid.closed[j.toNat] ≠ 0 := by
          have hmem : eid.closed[j.toNat] ∈ eid.1 := by
            simp [Word.closed, List.getElem_append_left hin]
          intro h
          rw [h] at hmem
          exact eid.2 hmem
        simp only [hchar, if_false]
        rw [ih (by omega) (by omega), hnext]
        simp

/-- The copy of a longer string does not end before the buffer does. -/
theorem copyLoop_long {eid : Eid} (hlong : 256 ≤ eid.1.length) (room : Nat) (j : UInt8)
    (res : List UInt8) : copyLoop eid.closed room j res = .error .dangling := by
  induction room generalizing j res with
  | zero => rfl
  | succ room ih =>
      have hin : j.toNat < eid.1.length := by
        have hsmall := j.toNat_lt
        omega
      have hget : eid.closed[j.toNat]? = some eid.1[j.toNat] := by
        simp [Word.closed, List.getElem?_append_left hin]
      have hchar : eid.1[j.toNat] ≠ 0 := by
        have hmem := List.getElem_mem hin
        intro h
        rw [h] at hmem
        exact eid.2 hmem
      rw [copyLoop, hget]
      simp only [hchar, if_false]
      exact ih _ _

theorem encodeLoop_short {size : Nat} {eids : List Eid} {res : List UInt8}
    (hshort : ∀ eid ∈ eids, eid.1.length < 256) (hroom : res.length + (wire eids).length ≤ size) :
    encodeLoop size eids res = .ok (res ++ wire eids) := by
  induction eids generalizing res with
  | nil => simp [encodeLoop]
  | cons eid eids ih =>
      rw [wire_cons, List.length_append, eid.length_closed] at hroom
      have hcopy := @copyLoop_short eid (hshort eid List.mem_cons_self) (size - res.length) 0 res
        (Nat.zero_le _) (by simp; omega)
      rw [encodeLoop, hcopy]
      simp only [UInt8.toNat_zero, List.drop_zero]
      rw [ih (fun e he => hshort e (List.mem_cons_of_mem _ he)), wire_cons, List.append_assoc]
      simp only [List.length_append, eid.length_closed]
      omega

theorem encodeLoop_long {size : Nat} {eids : List Eid} {res : List UInt8}
    (hlong : ∃ eid ∈ eids, 256 ≤ eid.1.length) : ∃ e, encodeLoop size eids res = .error e := by
  induction eids generalizing res with
  | nil =>
      obtain ⟨eid, hmem, _⟩ := hlong
      cases hmem
  | cons eid eids ih =>
      rw [encodeLoop]
      by_cases hhead : 256 ≤ eid.1.length
      · exact ⟨.dangling, by rw [copyLoop_long hhead]⟩
      · cases hcopy : copyLoop eid.closed (size - res.length) 0 res with
        | error e => exact ⟨e, rfl⟩
        | ok copied =>
            obtain ⟨long, hmem, hlen⟩ := hlong
            rcases List.mem_cons.mp hmem with rfl | hrest
            · exact absurd hlen hhead
            · exact ih ⟨long, hrest, hlen⟩

/-- `*res_len` is the length of the result, as long as it is an `int`. -/
theorem resLen_eq (eids : List Eid) : resLen eids = Int32.ofNat (1 + (wire eids).length) := by
  have hfold : ∀ (eids : List Eid) (n : Nat),
      eids.foldl (fun n eid => n + Int32.ofNat (eid.1.length + 1)) (Int32.ofNat n) =
        Int32.ofNat (n + (wire eids).length) := by
    intro eids
    induction eids with
    | nil => intro n; rfl
    | cons eid eids ih =>
        intro n
        rw [List.foldl_cons, ← Int32.ofNat_add, ih, wire_cons, List.length_append,
          eid.length_closed, Nat.add_assoc]
  exact hfold eids 1

theorem length_wire_le {eids : List Eid} (hshort : ∀ eid ∈ eids, eid.1.length < 256) :
    (wire eids).length ≤ 256 * eids.length := by
  induction eids with
  | nil => simp
  | cons eid eids ih =>
      have hhead := hshort eid List.mem_cons_self
      have hrest := ih (fun e he => hshort e (List.mem_cons_of_mem _ he))
      rw [wire_cons, List.length_append, eid.length_closed, List.length_cons]
      omega

theorem eidlistEncode_short {malloc : Nat → Bool} (hmem : ∀ n, 0 < n → malloc n = true)
    {eids : List Eid} (hmax : eids.length ≤ 255) (hshort : ∀ eid ∈ eids, eid.1.length < 256) :
    eidlistEncode malloc eids (UInt8.ofNat eids.length) =
      .ok (some (UInt8.ofNat eids.length :: wire eids), ((wire eids).length + 1 : Nat)) := by
  have hcount : (UInt8.ofNat eids.length).toNat = eids.length := by
    rw [UInt8.toNat_ofNat']
    exact Nat.mod_eq_of_lt (by omega)
  have hbytes := length_wire_le hshort
  have hlen : (resLen eids).toInt = ((wire eids).length + 1 : Nat) := by
    rw [resLen_eq, Int32.toInt_ofNat_of_lt (by omega), Nat.add_comm]
  have hsize : ((resLen eids).toInt % 2 ^ 64).toNat = (wire eids).length + 1 := by
    rw [hlen]
    omega
  rw [eidlistEncode, hcount, if_neg (Nat.lt_irrefl _), List.take_length]
  simp only [hsize, hmem _ (Nat.succ_pos _), Bool.true_eq_false, if_false, Nat.succ_ne_zero]
  rw [encodeLoop_short hshort (by simp; omega), hlen]
  rfl

theorem eidlistEncode_long {malloc : Nat → Bool} {eids : List Eid} (hmax : eids.length ≤ 255)
    (hlong : ∃ eid ∈ eids, 256 ≤ eid.1.length) (res : List UInt8) (len : Int) :
    eidlistEncode malloc eids (UInt8.ofNat eids.length) ≠ .ok (some res, len) := by
  have hcount : (UInt8.ofNat eids.length).toNat = eids.length := by
    rw [UInt8.toNat_ofNat']
    exact Nat.mod_eq_of_lt (by omega)
  obtain ⟨e, herror⟩ := @encodeLoop_long ((resLen eids).toInt % 2 ^ 64).toNat eids
    [UInt8.ofNat eids.length] hlong
  rw [eidlistEncode, hcount, if_neg (Nat.lt_irrefl _), List.take_length]
  simp only [herror]
  split
  · simp
  · split <;> simp

theorem encodesBack_iff {malloc : Nat → Bool} (hmem : ∀ n, 0 < n → malloc n = true)
    {eids : List Eid} (hpos : 1 ≤ eids.length) (hmax : eids.length ≤ 255) :
    EncodesBack malloc eids ↔ ∀ eid ∈ eids, eid.1.length < 256 := by
  constructor
  · intro hencodes
    obtain ⟨res, len, hencode, _, _⟩ := hencodes
    by_contra hnot
    have hlong : ∃ eid ∈ eids, 256 ≤ eid.1.length := by simpa using hnot
    exact eidlistEncode_long hmax hlong res len hencode
  · intro hshort
    exact ⟨_, _, eidlistEncode_short hmem hmax hshort, by simp, eidlistDecode_wire hmem hpos hmax⟩

/-! ## Both directions -/

/-- The encoder and the decoder of a list of identifiers do what they are for if no string has 256
characters or more, the bytes do not announce fewer strings than there are, and the list is not
empty. -/
theorem eidlist_codec {malloc : Nat → Bool} (hmem : ∀ n, 0 < n → malloc n = true) :
    (∀ eids : List Eid, 1 ≤ eids.length → eids.length ≤ 255 →
      (EncodesBack malloc eids ↔ ∀ eid ∈ eids, eid.1.length < 256)) ∧
    (∀ bytes, DecodesExactly malloc bytes ↔
      bytes ≠ [0] ∧ (bytes.tail.count 0 ≤ (bytes.headD 0).toNat ∨
        malloc (8 * (bytes.headD 0).toNat) = false)) :=
  ⟨fun _ hpos hmax => encodesBack_iff hmem hpos hmax, decodesExactly_iff hmem⟩

/-- The list of the string `ab`, and the bytes of `a` and `b` with the number 2. -/
theorem eidlist_codec_ab :
    EncodesBack (fun _ => true) [⟨[0x61, 0x62], by decide⟩] ∧
      DecodesExactly (fun _ => true) [2, 0x61, 0, 0x62, 0] := by
  have hcodec := @eidlist_codec (fun _ => true) (fun _ _ => rfl)
  refine ⟨(hcodec.1 _ (by decide) (by decide)).mpr ?_, (hcodec.2 _).mpr (by decide)⟩
  intro eid heid
  rw [List.mem_singleton.mp heid]
  decide

/-- A string of 256 characters is never at its end for the encoder, and two strings do not fit where
one is announced. -/
theorem eidlist_overruns :
    ¬ EncodesBack (fun _ => true) [⟨List.replicate 256 0x61,
      fun h => absurd (List.eq_of_mem_replicate h) (by decide)⟩] ∧
      ¬ DecodesExactly (fun _ => true) [1, 0x61, 0, 0x62, 0] := by
  constructor
  · rw [encodesBack_iff (fun _ _ => rfl) (by decide) (by decide)]
    intro hshort
    have hlt := hshort _ List.mem_cons_self
    rw [List.length_replicate] at hlt
    omega
  · rw [decodesExactly_iff (fun _ _ => rfl)]
    decide

end EidList
