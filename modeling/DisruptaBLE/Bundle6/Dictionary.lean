import DisruptaBLE.Bundle6.Serializer
import DisruptaBLE.Bundle6.Parser
import DisruptaBLE.Bundle7.EidRoundTrip

/-!
# Reading the dictionary of version 6

An EID is found again where the descriptor of the dictionary says that it stands
(`read_dictionary`).
-/

namespace Bundle6

open BundleProcessor
open Bundle7 (cBytes cString IsCString cString_cBytes)

/-- An EID with a scheme and a scheme-specific part. -/
def ValidEid (eid : CStr) : Prop := IsCString eid ∧ ':' ∈ eid

instance (eid : CStr) : Decidable (ValidEid eid) :=
  inferInstanceAs (Decidable (IsCString eid ∧ ':' ∈ eid))

/-- A string ends at the zero behind it. -/
theorem cString_written {s : CStr} (h : IsCString s) (r : List UInt8) :
    cString (cBytes s ++ 0 :: r) = s := by
  have hself := cString_cBytes h
  have hne : ∀ b ∈ cBytes s, decide (b ≠ 0) = true := by
    intro b hb
    obtain ⟨c, hc, rfl⟩ := List.mem_map.mp hb
    rw [decide_eq_true_eq, ne_eq, ← UInt8.toNat_inj, UInt8.toNat_ofNat',
      Nat.mod_eq_of_lt (h c hc).2]
    exact Nat.ne_of_gt (h c hc).1
  have htake : (cBytes s ++ 0 :: r).takeWhile (· ≠ 0) = (cBytes s).takeWhile (· ≠ 0) := by
    rw [List.takeWhile_append_of_pos hne, List.takeWhile_cons_of_neg (by decide), List.append_nil,
      List.takeWhile_eq_self_iff.mpr hne]
  rw [cString, htake]
  exact hself

theorem length_cBytes (s : CStr) : (cBytes s).length = s.length := by
  rw [cBytes, List.length_map]

/-- The offsets of an EID that is written behind some bytes. -/
def eidReferenceAt (start : Nat) (eid : CStr) : EidReference :=
  ⟨UInt16.ofNat start, UInt16.ofNat (start + (analyzeEid eid).1 + 1)⟩

/-- **An EID is found** where it is written. -/
theorem readEid_written {eid : CStr} (h : ValidEid eid) {before after : List UInt8} {dictLen : Nat}
    (hlen : before.length + (writeEid eid).length ≤ dictLen) (hlt : dictLen < 2 ^ 16) :
    bundle6ReadEid (before ++ (writeEid eid ++ after)) dictLen
      (eidReferenceAt before.length eid) = some eid := by
  obtain ⟨hstring, hcolon⟩ := h
  obtain ⟨k, hk⟩ : ∃ k, k = eid.idxOf ':' := ⟨_, rfl⟩
  have hklt : k < eid.length := by
    rw [hk]
    exact List.idxOf_lt_length_of_mem hcolon
  have hanalyze : analyzeEid eid = (k, eid.length - k - 1) := by
    rw [analyzeEid, if_pos hcolon, hk]
  have hscheme : IsCString (eid.take k) := fun c hc => hstring c (List.mem_of_mem_take hc)
  have hssp : IsCString (eid.drop (k + 1)) := fun c hc => hstring c (List.mem_of_mem_drop hc)
  have hwritten : writeEid eid =
      cBytes (eid.take k) ++ 0 :: (cBytes (eid.drop (k + 1)) ++ [0]) := by
    rw [writeEid, writeScheme, writeSsp, if_pos hcolon, if_pos hcolon, ← hk]
    simp
  have hlength : (writeEid eid).length = eid.length + 1 := by
    rw [length_writeEid, hanalyze]
    dsimp only
    omega
  have hsplit : eid.take k ++ ':' :: eid.drop (k + 1) = eid := by
    have hget : eid[k] = ':' := by
      subst hk
      exact List.getElem_idxOf hklt
    rw [← hget, ← List.drop_eq_getElem_cons hklt, List.take_append_drop]
  have hnocolon : ':' ∉ eid.take k := by
    rw [List.mem_take_iff_idxOf_lt hcolon, hk]
    exact Nat.lt_irrefl _
  rw [hlength] at hlen
  have hfirst : (eidReferenceAt before.length eid).schemeOffset.toNat = before.length := by
    rw [eidReferenceAt, UInt16.toNat_ofNat', Nat.mod_eq_of_lt (by omega)]
  have hsecond : (eidReferenceAt before.length eid).sspOffset.toNat = before.length + k + 1 := by
    rw [eidReferenceAt, hanalyze, UInt16.toNat_ofNat', Nat.mod_eq_of_lt (by dsimp only; omega)]
  have hdropScheme : cString ((before ++ (writeEid eid ++ after)).drop before.length) =
      eid.take k := by
    rw [List.drop_left, hwritten, List.append_assoc, List.cons_append]
    exact cString_written hscheme _
  have hdropSsp : cString ((before ++ (writeEid eid ++ after)).drop (before.length + k + 1)) =
      eid.drop (k + 1) := by
    have hbytes : before ++ (writeEid eid ++ after) =
        (before ++ cBytes (eid.take k) ++ [0]) ++ (cBytes (eid.drop (k + 1)) ++ 0 :: after) := by
      rw [hwritten]
      simp
    have hahead : (before ++ cBytes (eid.take k) ++ [0]).length = before.length + k + 1 := by
      rw [List.length_append, List.length_append, length_cBytes, List.length_take,
        List.length_singleton]
      omega
    rw [hbytes, ← hahead, List.drop_left]
    exact cString_written hssp _
  unfold bundle6ReadEid
  rw [hfirst, hsecond, hdropScheme, hdropSsp, if_neg (by omega), if_neg, if_neg hnocolon, if_neg,
    hsplit]
  · rw [List.length_drop]
    omega
  · rw [List.length_take]
    omega

/-- What an EID comes back as: one without a scheme is written as `dtn:none`. -/
def normalEid (eid : CStr) : CStr := if ':' ∈ eid then eid else "dtn:none".toList

theorem normalEid_of_valid {eid : CStr} (h : ':' ∈ eid) : normalEid eid = eid := if_pos h

theorem normalEid_valid {eid : CStr} (h : IsCString eid) : ValidEid (normalEid eid) := by
  unfold normalEid
  split
  · next hcolon => exact ⟨h, hcolon⟩
  · exact ⟨by decide, by decide⟩

theorem analyzeEid_normalEid (eid : CStr) : analyzeEid (normalEid eid) = analyzeEid eid := by
  unfold normalEid
  split
  · rfl
  · next hcolon => rw [analyzeEid, analyzeEid, if_pos (by decide), if_neg hcolon]; rfl

theorem writeEid_normalEid (eid : CStr) : writeEid (normalEid eid) = writeEid eid := by
  unfold normalEid
  split
  · rfl
  · next hcolon =>
    unfold writeEid writeScheme writeSsp
    rw [if_pos (by decide), if_pos (by decide), if_neg hcolon, if_neg hcolon]
    decide

/-- The offsets of some EIDs, as references. -/
def toReference (info : EidInfo) : EidReference := ⟨info.dictSchemeOffset, info.dictSspOffset⟩

/-- **The EIDs of a dictionary** are found with their offsets. -/
theorem read_dictionary {eids : List CStr} (h : ∀ eid ∈ eids, IsCString eid)
    {before after : List UInt8} {dictLen : Nat}
    (hlen : before.length + (eids.flatMap writeEid).length ≤ dictLen) (hlt : dictLen < 2 ^ 16) :
    (calculateEidInfos before.length eids).1.map (fun info =>
      bundle6ReadEid (before ++ (eids.flatMap writeEid ++ after)) dictLen (toReference info)) =
        (eids.map normalEid).map some := by
  induction eids generalizing before with
  | nil => rfl
  | cons eid eids ih =>
      rw [List.flatMap_cons, List.length_append] at hlen
      have hnext : (before ++ writeEid eid).length =
          before.length + (analyzeEid eid).1 + (analyzeEid eid).2 + 2 := by
        rw [List.length_append, length_writeEid]
        omega
      have hrest := @ih (fun eid heid => h eid (List.mem_cons_of_mem _ heid))
          (before ++ writeEid eid)
        (by rw [List.length_append]; omega)
      have hvalid := normalEid_valid (h eid List.mem_cons_self)
      have hfirst := @readEid_written (normalEid eid) hvalid before
        (eids.flatMap writeEid ++ after) dictLen (by rw [writeEid_normalEid]; omega) hlt
      rw [writeEid_normalEid, eidReferenceAt, analyzeEid_normalEid] at hfirst
      rw [hnext, List.append_assoc] at hrest
      rw [calculateEidInfos, List.map_cons, List.map_cons, List.map_cons, List.flatMap_cons,
        List.append_assoc]
      exact congrArg₂ List.cons hfirst hrest

end Bundle6
