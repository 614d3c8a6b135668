import DisruptaBLE.Epidemic.RoutingAgent

/-!
# Summary vectors in messages

Offers and requests carry the bytes of the entries and a characteristic behind them.
The receiver subtracts the length of a characteristic from that of the payload, checks
that the difference is a whole number of entries, and keeps their number in 32 bits.

A payload that is shorter than a characteristic has a length of almost 2⁶⁴ after the
subtraction, and one of 2³² entries or more gets memory for fewer.  Neither is rejected
if the difference is divisible and the memory is granted (`decodedExactly_iff`).  All
that `send_sv` builds is read back (`sentPayload_decoded`).
-/

namespace EpidemicRouter

open PtrHeap LittleEndian
open BundleProcessor (KnownEntry)

/-! ## Decoding -/

/-- A payload is rejected, or the vector has as many entries as the payload has before a
characteristic, and they are its first bytes.  Nothing else is read or written. -/
def DecodedExactly (env : AgentEnv) (payload : List UInt8) : Prop :=
  match svOfPayload env payload with
  | .ok none => True
  | .ok (some sv) => sv.entries.length * svEntrySize + env.chLength = payload.length ∧
      summaryVectorCopyToMemory sv = payload.take (sv.entries.length * svEntrySize)
  | .error _ => False

/-- What the receiver rejects, and what it can read: a payload that is as long as a
characteristic, with fewer than 2³² entries before it. -/
def Decodable (env : AgentEnv) (payload : List UInt8) : Prop :=
  svLength payload.length env.chLength % svEntrySize ≠ 0 ∨
    env.malloc summaryVectorSize = false ∨
    env.malloc ((UInt32.ofNat (svLength payload.length env.chLength / svEntrySize)).toNat *
      svEntrySize) = false ∨
    (env.chLength ≤ payload.length ∧ svLength payload.length env.chLength / svEntrySize < 2 ^ 32)

section Decoding

variable {env : AgentEnv} {payload : List UInt8}

theorem svLength_of_le {length chLength : Nat} (h : chLength ≤ length) :
    svLength length chLength = length - chLength := if_neg (Nat.not_lt.mpr h)

/-- **Exactly the decodable payloads** are rejected or decoded. -/
theorem decodedExactly_iff : DecodedExactly env payload ↔ Decodable env payload := by
  unfold DecodedExactly Decodable svOfPayload
  have hread := summaryVectorCreateFromMemory_result env.malloc payload
    (svLength payload.length env.chLength)
  generalize summaryVectorCreateFromMemory env.malloc payload
    (svLength payload.length env.chLength) = result at hread
  cases hread with
  | rejected hwhy =>
      dsimp only
      tauto
  | @read sv hdiv hvector hmem hlen hcount hentries _ hbytes =>
      have hwhole : sv.entries.length * svEntrySize = svLength payload.length env.chLength := by
        rw [hentries]
        exact Nat.div_mul_cancel (Nat.dvd_of_mod_eq_zero hdiv)
      dsimp only
      rw [hwhole, hbytes, hvector, hmem]
      constructor
      · rintro ⟨hsum, -⟩
        exact Or.inr (Or.inr (Or.inr ⟨by omega, hcount⟩))
      · rintro (hmod | hfalse | hfalse | ⟨hle, -⟩)
        · exact absurd hdiv hmod
        · cases hfalse
        · cases hfalse
        · rw [svLength_of_le hle]
          exact ⟨Nat.sub_add_cancel hle, rfl⟩
  | overrun hdiv hvector hmem hwhy =>
      dsimp only
      rw [hvector, hmem]
      apply iff_of_false not_false
      rintro (hmod | hfalse | hfalse | ⟨hle, hcount⟩)
      · exact hmod hdiv
      · cases hfalse
      · cases hfalse
      · rcases hwhy with hshort | hwide
        · rw [svLength_of_le hle] at hshort
          omega
        · omega

/-- The bytes of a vector determine its entries. -/
theorem entries_of_bytes {sv sv' : SummaryVector}
    (h : summaryVectorCopyToMemory sv' = summaryVectorCopyToMemory sv) :
    sv'.entries = sv.entries := by
  have hwords : ∀ v : SummaryVector, (words svEntrySize v.entries.length
      (summaryVectorCopyToMemory v)).map entryOfBytes = v.entries := by
    intro v
    have hsplit := words_flatMap length_entryBytes v.entries []
    rw [List.append_nil] at hsplit
    rw [summaryVectorCopyToMemory, hsplit, List.map_map]
    conv => rhs; rw [← List.map_id v.entries]
    exact List.map_congr_left fun e _ => entryOfBytes_entryBytes e
  have hlen : sv'.entries.length = sv.entries.length := by
    have hsame := congrArg List.length h
    rw [summaryVectorCopyToMemory, summaryVectorCopyToMemory,
      length_flatMap_words length_entryBytes, length_flatMap_words length_entryBytes] at hsame
    exact Nat.mul_right_cancel (by decide) hsame
  rw [← hwords sv', ← hwords sv, h, hlen]

/-- **What was sent is read back**: the entries, and the characteristic behind them. -/
theorem sentPayload_decoded (sv : SummaryVector) {ch : List UInt8}
    (hch : ch.length = env.chLength) (hvector : env.malloc summaryVectorSize = true)
    (hmem : env.malloc (sv.entries.length * svEntrySize) = true) :
    ∃ sv', svOfPayload env (summaryVectorCopyToMemory sv ++ ch) = .ok (some sv') ∧
      sv'.entries = sv.entries ∧
      (summaryVectorCopyToMemory sv ++ ch).drop
        (svLength (summaryVectorCopyToMemory sv ++ ch).length env.chLength) = ch := by
  have hlen : (summaryVectorCopyToMemory sv).length = sv.entries.length * svEntrySize :=
    length_flatMap_words length_entryBytes sv.entries
  have hlt : sv.entries.length < 2 ^ 32 := Nat.lt_of_le_of_lt sv.fits sv.capacity.toNat_lt
  have hcount : sv.entries.length * svEntrySize / svEntrySize = sv.entries.length :=
    Nat.mul_div_cancel _ (by decide)
  have hvalue : (UInt32.ofNat sv.entries.length).toNat = sv.entries.length :=
    UInt32.toNat_ofNat_of_lt hlt
  unfold svOfPayload
  rw [svLength_append hch, hlen, List.drop_left' hlen]
  have hread := summaryVectorCreateFromMemory_result env.malloc (summaryVectorCopyToMemory sv ++ ch)
    (sv.entries.length * svEntrySize)
  generalize summaryVectorCreateFromMemory env.malloc (summaryVectorCopyToMemory sv ++ ch)
    (sv.entries.length * svEntrySize) = result at hread
  cases hread with
  | rejected hwhy =>
      rw [Nat.mul_mod_left, hcount, hvalue, hvector, hmem] at hwhy
      simp at hwhy
  | @read sv' _ _ _ _ _ _ _ hbytes =>
      refine ⟨sv', rfl, entries_of_bytes ?_, rfl⟩
      rw [hbytes, List.take_left' hlen]
  | overrun _ _ _ hwhy =>
      rw [hcount, List.length_append, hlen] at hwhy
      omega

/-- A payload that is rejected has no effect. -/
theorem rejected_payload {P : RouterParams} {s : Router} {renv : Env} {localEid : CStr}
    {known : List KnownEntry} {data : InfoBundle} (h : svOfPayload env data.payload = .ok none)
    (hsource : env.malloc (data.source.length + 1) = true) :
    onOfferMsg env localEid s known data = .ok [] ∧
      onRequestMsg P env s renv data = .ok (s, []) := by
  unfold onOfferMsg onRequestMsg decodeRequest routingAgentCreateEidFromInfoBundleEid
  rw [hsource, if_pos rfl, ok_bind, h]
  exact ⟨rfl, rfl⟩

end Decoding

/-! ## Offers and requests -/

/-- **Decoding of summary vectors.**  For every payload of an offer or a request and every memory,
the receiver rejects the payload, without any effect, or decodes it exactly, if and only if the
payload is decodable.  And it decodes all that `send_sv` builds, if there is memory for the
vector. -/
theorem summary_vector_decoding (P : RouterParams) (env : AgentEnv) (s : Router) (renv : Env)
    (localEid : CStr) (known : List KnownEntry) (data : InfoBundle) :
    (DecodedExactly env data.payload ↔ Decodable env data.payload) ∧
    (svOfPayload env data.payload = .ok none → env.malloc (data.source.length + 1) = true →
      onOfferMsg env localEid s known data = .ok [] ∧
        onRequestMsg P env s renv data = .ok (s, [])) ∧
    ∀ (sink eid : CStr) (sv : SummaryVector) (ch : Option (List UInt8)) (message : InfoBundle),
      (∀ c, ch = some c → c.length = env.chLength) →
      sendSv env localEid sink eid sv ch = .ok (some message) →
      env.malloc summaryVectorSize = true →
      env.malloc (sv.entries.length * svEntrySize) = true →
      ∃ sv', svOfPayload env message.payload = .ok (some sv') ∧ sv'.entries = sv.entries ∧
        message.payload.drop (svLength message.payload.length env.chLength) =
          ch.getD (List.replicate env.chLength 0) := by
  refine ⟨decodedExactly_iff, rejected_payload, ?_⟩
  intro sink eid sv ch message hch hsend hvector hmem
  have hlen : (ch.getD (List.replicate env.chLength 0)).length = env.chLength := by
    cases ch with
    | none => exact List.length_replicate
    | some c => exact hch c rfl
  have hpayload : message.payload =
      summaryVectorCopyToMemory sv ++ ch.getD (List.replicate env.chLength 0) := by
    unfold sendSv at hsend
    split at hsend
    · cases hsend
    · split at hsend
      · cases hsend
      · split at hsend
        · cases hsend
        · obtain rfl := Option.some.inj (Except.ok.inj hsend)
          rfl
  rw [hpayload]
  exact sentPayload_decoded sv hlen hvector hmem

/-- Two entries and a characteristic of eight bytes. -/
def twoEntries : SummaryVector := ⟨[41, 42], 8, by decide⟩

/-- They are sent and read back. -/
theorem summary_vector_decoding_two :
    ∃ message sv', sendSv demoAgent "dtn://a".toList routingAgentSinkOffer "dtn://b".toList
        twoEntries (some [1, 2, 3, 4, 5, 6, 7, 8]) = .ok (some message) ∧
      svOfPayload demoAgent message.payload = .ok (some sv') ∧ sv'.entries = [41, 42] := by
  obtain ⟨message, hsend⟩ : ∃ message, sendSv demoAgent "dtn://a".toList routingAgentSinkOffer
      "dtn://b".toList twoEntries (some [1, 2, 3, 4, 5, 6, 7, 8]) = .ok (some message) := ⟨_, rfl⟩
  obtain ⟨sv', hdecoded, hentries, -⟩ := (summary_vector_decoding demoParams demoAgent twoBundles
    demoEnv "dtn://a".toList [] message).2.2 routingAgentSinkOffer "dtn://b".toList twoEntries
    (some [1, 2, 3, 4, 5, 6, 7, 8]) message (by rintro c ⟨⟩; rfl) hsend rfl rfl
  exact ⟨message, sv', hsend, hdecoded, hentries⟩

/-- An empty payload is taken for one of 2⁶⁴ - 8 bytes of entries. -/
theorem empty_payload_overrun :
    svOfPayload demoAgent [] = .error .dangling ∧ ¬ DecodedExactly demoAgent [] := by
  have herror : svOfPayload demoAgent [] = .error .dangling := by rfl
  refine ⟨herror, ?_⟩
  unfold DecodedExactly
  rw [herror]
  exact not_false

end EpidemicRouter
