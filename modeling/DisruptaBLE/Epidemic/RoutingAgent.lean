import DisruptaBLE.Epidemic.SummaryVector
import DisruptaBLE.Epidemic.RouterRuns

/-!
# The routing agent

`components/routing/epidemic/routing_agent.c`: two nodes exchange which bundles
they have.  A node offers the bundles in its list that a contact may get; the
contact answers with those of them that it knows neither from its own list nor
from the bundles that its bundle processor has seen; and the node sends what was
requested.

`offer_request_exchange` is the whole of it: what is requested is exactly the
offer without what the other node knew, in the order of the offer, and the node
schedules nothing else for this contact.
-/

namespace EpidemicRouter

open PtrHeap LittleEndian
open BundleProcessor (KnownEntry)

/-! ## Definitions -/

/-- What the agent meets outside, and the configuration of the build. -/
structure AgentEnv where
  /-- whether a request for this many bytes is served -/
  malloc : Nat → Bool
  /-- whether `bundle7_create_local` and `bundle_storage_add` succeed -/
  bundleOk : Bool
  /-- `hal_hash` -/
  halHash : List UInt8 → List UInt8
  /-- `SUMMARY_VECTOR_CHARACTERISTIC_HASH_LENGTH` -/
  chLength : Nat

/-- `ROUTING_AGENT_SINK_OFFER`. -/
def routingAgentSinkOffer : CStr := routingAgentSinkPrefix ++ "/offer".toList

/-- `ROUTING_AGENT_SINK_REQUEST`. -/
def routingAgentSinkRequest : CStr := routingAgentSinkPrefix ++ "/request".toList

/-- What a message of the agent carries. -/
structure InfoBundle where
  source : CStr
  destination : CStr
  payload : List UInt8
  deriving DecidableEq, Repr

/-- What an operation of the agent hands to other components. -/
inductive AgentOutput where
  /-- `nb_sv_ch_filter_add` -/
  | filterAdd (ch : List UInt8)
  /-- a bundle is stored and dispatched -/
  | send (message : InfoBundle)
  deriving DecidableEq, Repr

/-- `create_endpoint`. -/
def createEndpoint (malloc : Nat → Bool) (eid sinkIdentifier : CStr) : Option CStr :=
  if malloc (eid.length + sinkIdentifier.length + 2) then some (eid ++ '/' :: sinkIdentifier)
  else none

/-- The part of an EID before the sink of the agent. -/
def beforeSink : CStr → CStr
  | [] => []
  | c :: cs => if ('/' :: routingAgentSinkPrefix).isPrefixOf (c :: cs) then
    [] else c :: beforeSink cs

/-- `routing_agent_create_eid_from_info_bundle_eid`, which does not check whether there is memory
for the copy. -/
def routingAgentCreateEidFromInfoBundleEid (malloc : Nat → Bool) (eid : CStr) :
    Except Fault CStr :=
  if malloc (eid.length + 1) then .ok (beforeSink eid) else .error .nullDeref

/-- The walk of `create_offer_sv` and `create_known_sv` over the bundle list. -/
def addInfos (malloc : Nat → Bool) (infos : Heap BundleInfo) (p : BundleInfo → Bool) :
    Nat → Ptr → SummaryVector → Except Fault (Option SummaryVector)
  | 0, _, _ => .error .diverged
  | _ + 1, none, sv => .ok (some sv)
  | fuel + 1, some a, sv => do
      let e ← infos.load (some a)
      if p e then
        match ← summaryVectorAddEntryByCopy malloc sv e.svEntry with
        | none => pure none
        | some sv => addInfos malloc infos p fuel e.next sv
      else addInfos malloc infos p fuel e.next sv

/-- `create_offer_sv`, for a contact with this EID. -/
def createOfferSv (malloc : Nat → Bool) (s : Router) (now : Nat) (eid : CStr) :
    Except Fault (Option SummaryVector) :=
  match summaryVectorCreate malloc with
  | none => .ok none
  | some sv => addInfos malloc s.infos (bundleShouldBeOffered now eid) (s.infos.bound + 1) s.head sv

/-- `router_create_known_sv`.  A vector that could not grow is freed and returned, and its callers
use it. -/
def routerCreateKnownSv (malloc : Nat → Bool) (s : Router) : Except Fault (Option SummaryVector) :=
  match summaryVectorCreate malloc with
  | none => .ok none
  | some sv => do
      match ← addInfos malloc s.infos (fun _ => true) (s.infos.bound + 1) s.head sv with
      | none => .error .dangling
      | some sv => pure (some sv)

/-- The loop of `create_known_sv` over the list of known bundles. -/
def addKnown (env : AgentEnv) : List KnownEntry → SummaryVector →
    Except Fault (Option SummaryVector)
  | [], sv => .ok (some sv)
  | k :: ks, sv => do
      let entry := svEntryFromUniqueIdentifier env.halHash k.uniqueIdentifier
      match ← summaryVectorAddEntryByCopy env.malloc sv entry with
      | none => pure none
      | some sv => addKnown env ks sv

/-- `create_known_sv` of the agent. -/
def createKnownSv (env : AgentEnv) (s : Router) (known : List KnownEntry) :
    Except Fault (Option SummaryVector) := do
  match ← routerCreateKnownSv env.malloc s with
  | none => pure none
  | some sv => addKnown env known sv

/-- The bytes of an entry are added to a characteristic, from the index `k` on. -/
def characteristicAdd (chLength : Nat) : List UInt8 → Nat → List UInt8 → List UInt8
  | ch, _, [] => ch
  | ch, k, h :: hs => characteristicAdd chLength (ch.modify k (· ^^^ h)) ((k + 1) % chLength) hs

/-- `summary_vector_characteristic_calculate`. -/
def summaryVectorCharacteristicCalculate (chLength : Nat) (sv : SummaryVector) : List UInt8 :=
  sv.entries.foldl (fun ch e => characteristicAdd chLength ch 0 (entryBytes e))
    (List.replicate chLength 0)

/-- `send_sv`.  The payload is written before it is checked whether there is memory for it. -/
def sendSv (env : AgentEnv) (localEid sink destinationEid : CStr) (sv : SummaryVector)
    (originalCh : Option (List UInt8)) : Except Fault (Option InfoBundle) :=
  match createEndpoint env.malloc destinationEid sink with
  | none => .ok none
  | some destination =>
      if !env.malloc (sv.entries.length * svEntrySize + env.chLength) then .error .nullDeref
      else if !env.bundleOk then .ok none
      else
        .ok (some
          { source := localEid ++ '/' :: routingAgentSinkPrefix
            destination
            payload := summaryVectorCopyToMemory sv ++
              originalCh.getD (List.replicate env.chLength 0) })

/-- `send_offer_sv` of the router, with `routing_agent_send_offer_sv`. -/
def sendOffer (env : AgentEnv) (localEid : CStr) (s : Router) (now : Nat) (eid : CStr) :
    Except Fault (Option InfoBundle) := do
  match ← routerCreateKnownSv env.malloc s with
  | none => pure none
  | some known =>
      let ch := summaryVectorCharacteristicCalculate env.chLength known
      match ← createOfferSv env.malloc s now eid with
      | none => pure none
      | some offer => sendSv env localEid routingAgentSinkOffer eid offer (some ch)

/-- `sv_length`: a difference of two `size_t`, which wraps around if the payload is shorter than a
characteristic. -/
def svLength (length chLength : Nat) : Nat :=
  if length < chLength then 2 ^ 64 - (chLength - length) else length - chLength

/-- The summary vector of a message. -/
def svOfPayload (env : AgentEnv) (payload : List UInt8) : Except Fault (Option SummaryVector) :=
  summaryVectorCreateFromMemory env.malloc payload (svLength payload.length env.chLength)

/-- `on_offer_msg`. -/
def onOfferMsg (env : AgentEnv) (localEid : CStr) (s : Router) (known : List KnownEntry)
    (data : InfoBundle) : Except Fault (List AgentOutput) := do
  let source ← routingAgentCreateEidFromInfoBundleEid env.malloc data.source
  match ← svOfPayload env data.payload with
  | none => pure []
  | some offer =>
      match ← createKnownSv env s known with
      | none => pure []
      | some known =>
          match ← summaryVectorCreateDiff env.malloc offer known with
          | none => pure []
          | some request =>
              let ch := data.payload.drop (data.payload.length - env.chLength)
              let filtered := if request.length = 0 then [AgentOutput.filterAdd ch] else []
              let message ← sendSv env localEid routingAgentSinkRequest source request none
              pure (filtered ++ message.toList.map .send)

/-- The request that `on_request_msg` decodes. -/
def decodeRequest (env : AgentEnv) (data : InfoBundle) :
    Except Fault (Option (CStr × SummaryVector)) := do
  let source ← routingAgentCreateEidFromInfoBundleEid env.malloc data.source
  match ← svOfPayload env data.payload with
  | none => pure none
  | some request => pure (some (source, request))

/-- `on_request_msg`. -/
def onRequestMsg (P : RouterParams) (env : AgentEnv) (s : Router) (renv : Env) (data : InfoBundle) :
    Except Fault (Router × List Output) := do
  match ← decodeRequest env data with
  | none => pure (s, [])
  | some (source, request) => routerUpdateRequestSv P s renv source request.entries

/-! ## Building vectors -/

/-- The hashes of the bundle list that a walk collects. -/
def entriesOf (s : Router) (p : BundleInfo → Bool) : List SvEntry :=
  match collectSv s.infos p (s.infos.bound + 1) s.head with
  | .ok es => es
  | .error _ => []

/-- The hashes of known bundles. -/
def knownEntries (halHash : List UInt8 → List UInt8) (known : List KnownEntry) : List SvEntry :=
  known.map fun k => svEntryFromUniqueIdentifier halHash k.uniqueIdentifier

section Building

variable {env : AgentEnv} {s : Router} {l : List Addr}

theorem collectSv_entriesOf (h : IsSeg s.infos BundleInfo.next s.head l none)
    (p : BundleInfo → Bool) :
    collectSv s.infos p (s.infos.bound + 1) s.head = .ok (entriesOf s p) := by
  obtain ⟨es, hes⟩ := collectSv_ok (p := p) h (Nat.lt_succ_of_le h.length_le)
  unfold entriesOf
  rw [hes]

/-- **The walk over the list appends what it collects.** -/
theorem addInfos_spec {malloc : Nat → Bool} (hmem : ∀ n, malloc n = true) {infos : Heap BundleInfo}
    {p : BundleInfo → Bool} {fuel : Nat} {q : Ptr} {es : List SvEntry}
    (hes : collectSv infos p fuel q = .ok es) (sv : SummaryVector)
    (hlen : sv.entries.length + es.length ≤ 2 ^ 31) (hcap : 0 < sv.capacity.toNat) :
    ∃ sv', addInfos malloc infos p fuel q sv = .ok (some sv') ∧
      sv'.entries = sv.entries ++ es ∧ 0 < sv'.capacity.toNat := by
  induction fuel generalizing q es sv with
  | zero => cases hes
  | succ fuel ih =>
      cases q with
      | none =>
          obtain rfl := Except.ok.inj hes
          exact ⟨sv, rfl, (List.append_nil _).symm, hcap⟩
      | some a =>
          unfold collectSv at hes
          obtain ⟨e, he, hes⟩ := bind_eq_ok.mp hes
          obtain ⟨rest, hrest, hes⟩ := bind_eq_ok.mp hes
          unfold addInfos
          rw [he, ok_bind]
          cases hp : p e with
          | false =>
              rw [hp] at hes
              obtain rfl := Except.ok.inj hes
              exact ih hrest sv hlen hcap
          | true =>
              rw [hp] at hes
              obtain rfl := Except.ok.inj hes
              rw [if_pos rfl, List.length_cons] at hlen
              obtain ⟨next, hnext, hentries, hcap'⟩ :=
                summaryVectorAddEntryByCopy_spec hmem sv (by omega) hcap e.svEntry
              rw [if_pos rfl, if_pos rfl, hnext, ok_bind]
              have hlen' : next.entries.length + rest.length ≤ 2 ^ 31 := by
                rw [hentries, List.length_append, List.length_singleton]
                omega
              obtain ⟨sv', hsv', happend, hcap''⟩ := ih hrest next hlen' hcap'
              refine ⟨sv', hsv', ?_, hcap''⟩
              rw [happend, hentries, List.append_assoc, List.singleton_append]

theorem addKnown_spec (hmem : ∀ n, env.malloc n = true) (known : List KnownEntry)
    (sv : SummaryVector) (hlen : sv.entries.length + known.length ≤ 2 ^ 31)
    (hcap : 0 < sv.capacity.toNat) :
    ∃ sv', addKnown env known sv = .ok (some sv') ∧
      sv'.entries = sv.entries ++ knownEntries env.halHash known := by
  induction known generalizing sv with
  | nil => exact ⟨sv, rfl, (List.append_nil _).symm⟩
  | cons k ks ih =>
      rw [List.length_cons] at hlen
      unfold addKnown
      dsimp only
      obtain ⟨next, hnext, hentries, hcap'⟩ := summaryVectorAddEntryByCopy_spec hmem sv
        (by omega) hcap (svEntryFromUniqueIdentifier env.halHash k.uniqueIdentifier)
      rw [hnext, ok_bind]
      have hlen' : next.entries.length + ks.length ≤ 2 ^ 31 := by
        rw [hentries, List.length_append, List.length_singleton]
        omega
      obtain ⟨sv', hsv', happend⟩ := ih next hlen' hcap'
      refine ⟨sv', hsv', ?_⟩
      rw [happend, hentries, List.append_assoc, List.singleton_append]
      rfl

/-- The offer of a node. -/
theorem createOfferSv_spec (hmem : ∀ n, env.malloc n = true)
    (h : IsSeg s.infos BundleInfo.next s.head l none) (now : Nat) (eid : CStr)
    (hlen : (entriesOf s (bundleShouldBeOffered now eid)).length < 2 ^ 31) :
    ∃ sv, createOfferSv env.malloc s now eid = .ok (some sv) ∧
      sv.entries = entriesOf s (bundleShouldBeOffered now eid) := by
  obtain ⟨sv, hsv, hempty, hcap⟩ := summaryVectorCreate_spec hmem
  obtain ⟨sv', hsv', hentries, -⟩ := addInfos_spec hmem
    (collectSv_entriesOf h (bundleShouldBeOffered now eid)) sv
    (by rw [hempty, List.length_nil]; omega) hcap
  unfold createOfferSv
  rw [hsv]
  refine ⟨sv', hsv', ?_⟩
  rw [hentries, hempty, List.nil_append]

/-- The bundles in the list of a node. -/
theorem routerCreateKnownSv_spec (hmem : ∀ n, env.malloc n = true)
    (h : IsSeg s.infos BundleInfo.next s.head l none)
    (hlen : (entriesOf s fun _ => true).length < 2 ^ 31) :
    ∃ sv, routerCreateKnownSv env.malloc s = .ok (some sv) ∧
      sv.entries = entriesOf s (fun _ => true) ∧ 0 < sv.capacity.toNat := by
  obtain ⟨sv, hsv, hempty, hcap⟩ := summaryVectorCreate_spec hmem
  obtain ⟨sv', hsv', hentries, hcap'⟩ := addInfos_spec hmem
    (collectSv_entriesOf h fun _ => true) sv
    (by rw [hempty, List.length_nil]; omega) hcap
  unfold routerCreateKnownSv
  rw [hsv]
  dsimp only
  rw [hsv', ok_bind]
  refine ⟨sv', rfl, ?_, hcap'⟩
  rw [hentries, hempty, List.nil_append]

/-- **Everything that a node knows**: its list, and what its bundle processor has seen. -/
theorem createKnownSv_spec (hmem : ∀ n, env.malloc n = true)
    (h : IsSeg s.infos BundleInfo.next s.head l none) (known : List KnownEntry)
    (hlen : (entriesOf s fun _ => true).length + known.length < 2 ^ 31) :
    ∃ sv, createKnownSv env s known = .ok (some sv) ∧
      sv.entries = entriesOf s (fun _ => true) ++ knownEntries env.halHash known := by
  obtain ⟨sv, hsv, hentries, hcap⟩ := routerCreateKnownSv_spec hmem h (by omega)
  obtain ⟨sv', hsv', happend⟩ := addKnown_spec hmem known sv (by rw [hentries]; omega) hcap
  unfold createKnownSv
  rw [hsv, ok_bind]
  refine ⟨sv', hsv', ?_⟩
  rw [happend, hentries]

end Building

/-! ## Messages -/

section Messages

variable {env : AgentEnv}

theorem length_characteristicAdd (n : Nat) (ch : List UInt8) (k : Nat) (hs : List UInt8) :
    (characteristicAdd n ch k hs).length = ch.length := by
  induction hs generalizing ch k with
  | nil => rfl
  | cons h hs ih => rw [characteristicAdd, ih, List.length_modify]

/-- A characteristic has its configured length. -/
theorem length_characteristic (n : Nat) (sv : SummaryVector) :
    (summaryVectorCharacteristicCalculate n sv).length = n := by
  unfold summaryVectorCharacteristicCalculate
  have hfold : ∀ (es : List SvEntry) (ch : List UInt8),
      (es.foldl (fun ch e => characteristicAdd n ch 0 (entryBytes e)) ch).length = ch.length := by
    intro es
    induction es with
    | nil => exact fun _ => rfl
    | cons e es ih =>
        intro ch
        rw [List.foldl_cons, ih, length_characteristicAdd]
  rw [hfold, List.length_replicate]

/-- What `send_sv` sends. -/
theorem sendSv_spec (hmem : ∀ n, env.malloc n = true) (hbundle : env.bundleOk = true)
    (localEid sink eid : CStr) (sv : SummaryVector) (ch : Option (List UInt8)) :
    sendSv env localEid sink eid sv ch = .ok (some
      { source := localEid ++ '/' :: routingAgentSinkPrefix
        destination := eid ++ '/' :: sink
        payload := summaryVectorCopyToMemory sv ++ ch.getD (List.replicate env.chLength 0) }) := by
  unfold sendSv createEndpoint
  simp [hmem, hbundle]

theorem svLength_append {payload ch : List UInt8} {chLength : Nat} (hch : ch.length = chLength) :
    svLength (payload ++ ch).length chLength = payload.length := by
  unfold svLength
  rw [List.length_append, hch, if_neg (by omega), Nat.add_sub_cancel]

/-- **A vector survives a message**, with any characteristic behind it. -/
theorem svOfPayload_spec (hmem : ∀ n, env.malloc n = true) (sv : SummaryVector) {ch : List UInt8}
    (hch : ch.length = env.chLength) :
    ∃ sv', svOfPayload env (summaryVectorCopyToMemory sv ++ ch) = .ok (some sv') ∧
      sv'.entries = sv.entries := by
  unfold svOfPayload
  rw [svLength_append hch, summaryVectorCopyToMemory, length_flatMap_words length_entryBytes]
  exact summaryVectorCreateFromMemory_bytes hmem sv ch

end Messages

/-! ## The exchange -/

section Exchange

variable {env : AgentEnv} {s : Router} {l : List Addr}

/-- A node sends an offer. -/
theorem sendOffer_spec (hmem : ∀ n, env.malloc n = true) (hbundle : env.bundleOk = true)
    (h : IsSeg s.infos BundleInfo.next s.head l none) (localEid : CStr) (now : Nat) (eid : CStr)
    (hlen : (entriesOf s fun _ => true).length < 2 ^ 31)
    (hoffer : (entriesOf s (bundleShouldBeOffered now eid)).length < 2 ^ 31) :
    ∃ message sv ch, sendOffer env localEid s now eid = .ok (some message) ∧
      message.payload = summaryVectorCopyToMemory sv ++ ch ∧ ch.length = env.chLength ∧
      sv.entries = entriesOf s (bundleShouldBeOffered now eid) := by
  obtain ⟨known, hknown, -, -⟩ := routerCreateKnownSv_spec hmem h hlen
  obtain ⟨offer, hsv, hentries⟩ := createOfferSv_spec hmem h now eid hoffer
  unfold sendOffer
  rw [hknown, ok_bind]
  dsimp only
  rw [hsv, ok_bind]
  dsimp only
  rw [sendSv_spec hmem hbundle]
  exact ⟨_, offer, _, rfl, rfl, length_characteristic env.chLength known, hentries⟩

/-- A node answers an offer with what it does not know. -/
theorem onOfferMsg_spec (hmem : ∀ n, env.malloc n = true) (hbundle : env.bundleOk = true)
    (h : IsSeg s.infos BundleInfo.next s.head l none) (localEid : CStr) (known : List KnownEntry)
    (hlen : (entriesOf s fun _ => true).length + known.length < 2 ^ 31) {data : InfoBundle}
    {offer : SummaryVector} {ch : List UInt8}
    (hpayload : data.payload = summaryVectorCopyToMemory offer ++ ch)
    (hch : ch.length = env.chLength) (hoffer : offer.entries.length < 2 ^ 31) :
    ∃ out reply request, onOfferMsg env localEid s known data = .ok out ∧
      (∀ m, AgentOutput.send m ∈ out ↔ m = reply) ∧
      reply.payload = summaryVectorCopyToMemory request ++ List.replicate env.chLength 0 ∧
      request.entries = offer.entries.filter fun e =>
        !(entriesOf s (fun _ => true) ++ knownEntries env.halHash known).contains e := by
  obtain ⟨decoded, hdecoded, hsame⟩ := svOfPayload_spec hmem offer hch
  obtain ⟨all, hall, hentries⟩ := createKnownSv_spec hmem h known hlen
  have hlength : all.entries.length < 2 ^ 31 := by
    rw [hentries, List.length_append, knownEntries, List.length_map]
    exact hlen
  obtain ⟨request, hrequest, hfilter⟩ :=
    summaryVectorCreateDiff_spec hmem (a := decoded) (by rw [hsame]; exact hoffer) hlength
  unfold onOfferMsg routingAgentCreateEidFromInfoBundleEid
  rw [hmem, if_pos rfl, ok_bind, hpayload, hdecoded, ok_bind]
  dsimp only
  rw [hall, ok_bind]
  dsimp only
  rw [hrequest, ok_bind]
  dsimp only
  rw [sendSv_spec hmem hbundle, ok_bind]
  generalize hreply : ({ .. } : InfoBundle) = reply
  refine ⟨_, reply, request, rfl, fun m => ?_, by rw [← hreply]; rfl, ?_⟩
  · split
    · simp
    · simp
  · rw [hfilter, hsame, hentries]

/-- The candidate that a search finds was requested. -/
theorem findCandidate_requested {infos : Heap BundleInfo} {now : Nat} {eid : CStr}
    {sv : List SvEntry} {fuel : Nat} {q : Ptr} {a : Addr}
    (h : findCandidate infos now eid sv fuel q = .ok (some a)) :
    ∃ e, infos.cells a = some e ∧ e.svEntry ∈ sv := by
  induction fuel generalizing q with
  | zero => cases h
  | succ fuel ih =>
      cases q with
      | none => cases h
      | some b =>
          unfold findCandidate at h
          obtain ⟨e, he, h⟩ := bind_eq_ok.mp h
          split at h
          · next hgood =>
            obtain rfl := Option.some.inj (Except.ok.inj h)
            rw [Bool.and_eq_true] at hgood
            exact ⟨e, Heap.load_eq_ok.mp he, List.contains_iff_mem.mp hgood.2⟩
          · exact ih h

/-- **The send loop schedules only what was requested.** -/
theorem scheduled_requested {renv : Env} {c : Addr} {rc : RouterContact} {sv : List SvEntry}
    {s' : Router} {out : List Output} (hc : s.contacts.cells c = some rc)
    (hsv : rc.requestSv = some sv) (h : sendBundlesToContact s renv c = .ok (s', out)) {a : Addr}
    {rb : RoutedBundle} (hmem : Output.scheduled (some a) rb ∈ out) :
    ∃ e, s.infos.cells a = some e ∧ rb = routedBundle (renv.eid rc.contact) e ∧
      e.svEntry ∈ sv := by
  unfold sendBundlesToContact at h
  rw [Heap.load_cell hc, ok_bind, hsv] at h
  dsimp only at h
  split at h
  · obtain ⟨rfl, rfl⟩ := Prod.mk.inj (Except.ok.inj h)
    cases hmem
  · obtain ⟨candidate, hcandidate, h⟩ := bind_eq_ok.mp h
    cases candidate with
    | none =>
        obtain ⟨_, _, h⟩ := bind_eq_ok.mp h
        obtain ⟨rfl, rfl⟩ := Prod.mk.inj (Except.ok.inj h)
        cases hmem
    | some b =>
        obtain ⟨e, he, hreq⟩ := findCandidate_requested hcandidate
        dsimp only at h
        rw [Heap.load_cell he, ok_bind] at h
        split at h
        · obtain ⟨_, _, h⟩ := bind_eq_ok.mp h
          obtain ⟨rfl, rfl⟩ := Prod.mk.inj (Except.ok.inj h)
          obtain ⟨hab, rfl⟩ := Output.scheduled.inj (List.mem_singleton.mp hmem)
          obtain rfl := Option.some.inj hab
          exact ⟨e, he, rfl, hreq⟩
        · obtain ⟨_, _, h⟩ := bind_eq_ok.mp h
          obtain ⟨rfl, rfl⟩ := Prod.mk.inj (Except.ok.inj h)
          cases hmem

end Exchange

/-- **The exchange of offers and requests**, for two nodes with any bundle lists and any known
bundles, and any hash: with memory, and fewer than 2³¹ entries in every vector, the request that the
first node decodes has exactly those entries of its offer, in their order and as often, that the
second node has neither in its bundle list nor among the bundles that it knows.  As long as this is
the request of a contact, the first node schedules nothing for it that the second node had. -/
theorem offer_request_exchange {A B : Router} {lA lB : List Addr}
    (hA : IsSeg A.infos BundleInfo.next A.head lA none)
    (hB : IsSeg B.infos BundleInfo.next B.head lB none) (env : AgentEnv)
    (hmem : ∀ n, env.malloc n = true) (hbundle : env.bundleOk = true) (now : Nat)
    (eidA eidB : CStr) (known : List KnownEntry)
    (hown : (entriesOf A fun _ => true).length < 2 ^ 31)
    (hoffer : (entriesOf A (bundleShouldBeOffered now eidB)).length < 2 ^ 31)
    (hknown : (entriesOf B fun _ => true).length + known.length < 2 ^ 31) :
    ∃ offer out reply source request,
      sendOffer env eidA A now eidB = .ok (some offer) ∧
      onOfferMsg env eidB B known offer = .ok out ∧
      (∀ m, AgentOutput.send m ∈ out ↔ m = reply) ∧
      decodeRequest env reply = .ok (some (source, request)) ∧
      request.entries = (entriesOf A (bundleShouldBeOffered now eidB)).filter (fun e =>
        e ∉ entriesOf B (fun _ => true) ∧ e ∉ knownEntries env.halHash known) ∧
      ∀ (s s' : Router) (renv : Env) (c : Addr) (rc : RouterContact) (sent : List Output),
        s.contacts.cells c = some rc → rc.requestSv = some request.entries →
        sendBundlesToContact s renv c = .ok (s', sent) →
        ∀ a rb, Output.scheduled (some a) rb ∈ sent →
          ∃ e, s.infos.cells a = some e ∧ rb = routedBundle (renv.eid rc.contact) e ∧
            e.svEntry ∉ entriesOf B (fun _ => true) ∧
            e.svEntry ∉ knownEntries env.halHash known := by
  obtain ⟨offer, sv, ch, hsend, hpayload, hch, hentries⟩ :=
    sendOffer_spec hmem hbundle hA eidA now eidB hown hoffer
  obtain ⟨out, reply, asked, hmsg, honly, hreply, hasked⟩ := onOfferMsg_spec hmem hbundle hB eidB
    known hknown hpayload hch (by rw [hentries]; exact hoffer)
  obtain ⟨request, hdecode, hsame⟩ := svOfPayload_spec hmem asked
    (List.length_replicate (n := env.chLength) (a := (0 : UInt8)))
  have hfilter : request.entries = (entriesOf A (bundleShouldBeOffered now eidB)).filter (fun e =>
      e ∉ entriesOf B (fun _ => true) ∧ e ∉ knownEntries env.halHash known) := by
    rw [hsame, hasked, hentries]
    apply List.filter_congr
    intro e _
    simp
  refine ⟨offer, out, reply, beforeSink reply.source, request, hsend, hmsg, honly, ?_, hfilter, ?_⟩
  · unfold decodeRequest routingAgentCreateEidFromInfoBundleEid
    rw [hmem, if_pos rfl, ok_bind, hreply, hdecode]
    rfl
  · intro s s' renv c rc sent hc hreq hrun a rb hscheduled
    obtain ⟨e, he, hrb, hasked⟩ := scheduled_requested hc hreq hrun hscheduled
    rw [hfilter, List.mem_filter, decide_eq_true_eq] at hasked
    exact ⟨e, he, hrb, hasked.2⟩

/-- An agent with memory; its hash is the identity. -/
def demoAgent : AgentEnv := ⟨fun _ => true, true, id, 8⟩

/-- The list entry of the sample bundle, with another hash. -/
def demoInfo (svEntry : SvEntry) (next : Ptr) : BundleInfo :=
  { bundleInfo demoParams demoBundle with svEntry, next }

/-- A router with two bundles. -/
def twoBundles : Router :=
  { routerInit demoParams with
    infos := (Heap.empty.set 0 (demoInfo 41 (some 1))).set 1 (demoInfo 42 none)
    head := some 0
    tail := some 1 }

/-- A router with one bundle. -/
def oneBundle : Router :=
  { routerInit demoParams with
    infos := Heap.empty.set 0 (demoInfo 41 none)
    head := some 0
    tail := some 0 }

/-- Of two bundles, the second node requests the one that it does not have. -/
theorem offer_request_exchange_two :
    ∃ offer out reply source request,
      sendOffer demoAgent "dtn://a".toList twoBundles 5 "dtn://b".toList = .ok (some offer) ∧
      onOfferMsg demoAgent "dtn://b".toList oneBundle [] offer = .ok out ∧
      AgentOutput.send reply ∈ out ∧
      decodeRequest demoAgent reply = .ok (some (source, request)) ∧ request.entries = [42] := by
  have hA : IsSeg twoBundles.infos BundleInfo.next twoBundles.head [0, 1] none :=
    ⟨rfl, _, rfl, rfl, _, rfl, rfl⟩
  have hB : IsSeg oneBundle.infos BundleInfo.next oneBundle.head [0] none := ⟨rfl, _, rfl, rfl⟩
  obtain ⟨offer, out, reply, source, request, hsend, hmsg, honly, hdecode, hentries, -⟩ :=
    offer_request_exchange hA hB demoAgent (fun _ => rfl) rfl 5 "dtn://a".toList "dtn://b".toList []
      (by decide) (by decide) (by decide)
  exact ⟨offer, out, reply, source, request, hsend, hmsg, (honly reply).mpr rfl, hdecode,
    hentries.trans (by decide)⟩

end EpidemicRouter
