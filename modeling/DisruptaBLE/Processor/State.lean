import DisruptaBLE.Processor.Bundle
import DisruptaBLE.Storage.Store

/-!
# The state of the bundle processor

The static variables of `components/ud3tn/bundle_processor.c` and of the modules
it works with, and the functions of these modules: the bundle storage, the
custody manager, the list of known bundles, the agents and the generation of
administrative records.

Bundles lie in a memory whose addresses are never handed out twice, so that an
access to a bundle that was freed is an outcome of its own.  Such an access and
the assertion of `bundle_drop` are told apart from all other faults.

What lies outside is an `Env`, chosen anew for every signal: the clock, the answers
to the requests for memory and to the attempts to put a signal into the queue of
the router, and the contents of the records that are generated.  The requests are
counted, so each of them has its own answer.
-/

namespace BundleProcessor

open PtrHeap BundleStorage

/-- The ways in which the handling of a signal can go wrong. -/
inductive Fault where
  /-- A bundle is read, written or freed after it was freed. -/
  | stale
  /-- The assertion of `bundle_drop`: the bundle has retention constraints. -/
  | retained
  /-- Any other fault. -/
  | other (f : PtrHeap.Fault)
  deriving DecidableEq, Repr

/-- A part of the program without access to bundles. -/
def outside {α : Type} : Except PtrHeap.Fault α → Except Fault α
  | .ok a => .ok a
  | .error f => .error (.other f)

/-! ## Reports and records -/

/-- `enum bundle_status_report_status_flags`. -/
inductive ReportStatus where
  | received
  | custodyTransfer
  | forwarded
  | delivered
  | deleted
  deriving DecidableEq, Repr

def ReportStatus.code : ReportStatus → UInt8
  | .received => 0x01
  | .custodyTransfer => 0x02
  | .forwarded => 0x04
  | .delivered => 0x08
  | .deleted => 0x10

/-- `enum bundle_status_report_reason`. -/
inductive ReportReason where
  | noInfo
  | lifetimeExpired
  | forwardedUnidirectional
  | transmissionCanceled
  | depletedStorage
  | destEidUnintelligible
  | noKnownRoute
  | noTimelyContact
  | blockUnintelligible
  | hopLimitExceeded
  | trafficPared
  deriving DecidableEq, Repr

def ReportReason.code : ReportReason → UInt8
  | .noInfo => 0
  | .lifetimeExpired => 1
  | .forwardedUnidirectional => 2
  | .transmissionCanceled => 3
  | .depletedStorage => 4
  | .destEidUnintelligible => 5
  | .noKnownRoute => 6
  | .noTimelyContact => 7
  | .blockUnintelligible => 8
  | .hopLimitExceeded => 9
  | .trafficPared => 10

/-- `struct bundle_custody_signal`; the reason is a code, since the processor also
converts reasons of status reports to it. -/
structure CustodySignal where
  accepted : Bool
  reason : UInt8
  deriving DecidableEq, Repr

/-- `BUNDLE_CS_REASON_NO_INFO`. -/
def csReasonNoInfo : UInt8 := 0

/-- `BUNDLE_CS_REASON_REDUNDANT_RECEPTION`. -/
def csReasonRedundantReception : UInt8 := 3

/-- `BUNDLE_CS_REASON_DEPLETED_STORAGE`. -/
def csReasonDepletedStorage : UInt8 := 4

/-- `struct bundle_administrative_record`: `custodySignal` is present if the type is
`BUNDLE_AR_CUSTODY_SIGNAL`. -/
structure AdministrativeRecord where
  custodySignal : Option CustodySignal
  fragmentOffset : UInt32
  fragmentLength : UInt32
  bundleCreationTimestampMs : UInt64
  bundleSequenceNumber : UInt64
  bundleSourceEid : CStr
  deriving DecidableEq, Repr

/-- `struct bundle_hop_count`. -/
structure HopCount where
  limit : UInt16
  count : UInt16
  deriving DecidableEq, Repr

/-! ## State -/

/-- The configuration of a node, and the parsers that the processor calls. -/
structure Params where
  localEid : CStr
  statusReporting : Bool
  /-- `sizeof(void *)`; all platforms have at least 32 bits -/
  ptrSize : Nat
  ptrSize_ge : 4 ≤ ptrSize
  /-- `bundle7_hop_count_parse` -/
  hopCountParse : List UInt8 → Option HopCount
  /-- `bundle7_hop_count_serialize` -/
  hopCountSerialize : HopCount → Buffer
  /-- `parse_administrative_record` -/
  parseAdministrativeRecord : UInt8 → List UInt8 → Option AdministrativeRecord

/-- What the handling of a signal meets outside the processor. -/
structure Env where
  /-- `hal_time_get_timestamp_s` -/
  now : UInt64
  /-- `malloc`: whether the request with this number is served, and how far above
  all memory handed out before -/
  malloc : Nat → Option Nat
  /-- `hal_queue_try_push_to_back` on the queue of the router -/
  pushed : Nat → Bool
  /-- the contents of memory that was not written yet -/
  garbage : Nat → UInt8
  /-- the buffer of `generate_record` in version 6 -/
  record6 : Bundle → Bool → UInt8 → UInt8 → Buffer
  /-- the buffer of `bundle7_generate_status_report`, unless its encoding fails -/
  record7 : Bundle → ReportStatus → ReportReason → Option Buffer

/-- `struct known_bundle_list_entry`. -/
structure KnownEntry where
  uniqueIdentifier : UniqueIdentifier
  deadline : UInt64
  deriving DecidableEq, Repr

/-- A status report that was generated: the address of the bundle it is about, the
bundle as it was read, and what is said about it. -/
structure Report where
  about : Addr
  bundle : Bundle
  status : ReportStatus
  reason : ReportReason
  deriving DecidableEq, Repr

/-- The static variables, and what left the processor. -/
structure Processor where
  bundles : Heap Bundle
  store : Store Addr
  /-- `accepted_bundles`, up to `accepted_bundle_count` -/
  accepted : List Addr
  known : List KnownEntry
  reassembly : List (List Addr)
  agents : List CStr
  /-- the bundles sent to the router with `ROUTER_SIGNAL_ROUTE_BUNDLE` -/
  outQueue : List UInt16
  /-- the ADUs given to agents -/
  delivered : List (CStr × Adu)
  /-- the ADUs given to the handler of administrative records -/
  administered : List Adu
  /-- the status reports generated -/
  reports : List Report
  /-- the number of requests so far -/
  requests : Nat

/-- The state at program start. -/
def Processor.init : Processor where
  bundles := Heap.empty
  store := Store.init
  accepted := []
  known := []
  reassembly := []
  agents := []
  outQueue := []
  delivered := []
  administered := []
  reports := []
  requests := 0

namespace Processor

/-- Read a bundle. -/
def bundle (s : Processor) (a : Addr) : Except Fault Bundle :=
  match s.bundles.cells a with
  | none => .error .stale
  | some b => .ok b

/-- The state with another bundle at an address. -/
def put (s : Processor) (a : Addr) (b : Bundle) : Processor :=
  { s with bundles := s.bundles.set a b }

/-- Write to a bundle. -/
def update (s : Processor) (a : Addr) (f : Bundle → Bundle) : Except Fault Processor :=
  match s.bundles.cells a with
  | none => .error .stale
  | some b => .ok (s.put a (f b))

/-- A step that is taken under a condition. -/
def when (s : Processor) (c : Bool) (f : Processor → Except Fault Processor) :
    Except Fault Processor :=
  if c then f s else .ok s

end Processor

/-- `malloc`. -/
def malloc (env : Env) (s : Processor) : Option Nat × Processor :=
  (env.malloc s.requests, { s with requests := s.requests + 1 })

/-- `ASSERT`, except for the one of `bundle_drop`. -/
def assertP (b : Bool) : Except Fault Unit := outside (assertC b)

/-! ## Storage -/

/-- `bundle_storage_add`. -/
def storageAdd (env : Env) (s : Processor) (a : Addr) : Except Fault (UInt16 × Processor) := do
  let b ← s.bundle a
  let (mem, s) := malloc env s
  let (id, store) ← outside (bundleStorageAdd s.store a ⟨b.id, some b.payloadLength⟩
    (mem.map fun _ => s.store.tree.heap.bound))
  let s ← { s with store }.update a fun b => { b with id }
  pure (id, s)

/-- `bundle_storage_delete`. -/
def storageDelete (s : Processor) (id : UInt16) : Except Fault Processor := do
  match ← outside (bundleStorageGet s.store id) with
  | none => pure s
  | some x =>
      let b ← s.bundle x
      let (_, store) ← outside (bundleStorageDelete s.store id
        fun _ => ⟨b.id, some b.payloadLength⟩)
      pure { s with store }

/-- `bundle_drop`. -/
def bundleDrop (s : Processor) (a : Addr) : Except Fault Processor := do
  let b ← s.bundle a
  if b.ret = .none then pure { s with bundles := s.bundles.erase a }
  else .error .retained

/-- `bundle_discard`, and the end of `custody_manager_release`. -/
def bundleDiscard (s : Processor) (a : Addr) : Except Fault Processor := do
  let b ← s.bundle a
  let s ← storageDelete s b.id
  bundleDrop s a

/-! ## Custody manager -/

/-- `CUSTODY_MAX_BUNDLE_COUNT`. -/
def custodyMaxBundleCount : Nat := 16

/-- `CUSTODY_MAX_BUNDLE_SIZE`. -/
def custodyMaxBundleSize : Nat := 1024

/-- `find`: the accepted bundle itself instead of its index.  The sequence number
that is looked for has 16 bits. -/
def custodyFind (s : Processor) (creationTimestampMs : UInt64) (sequenceNumber : UInt16)
    (source : CStr) (fragmentOffset fragmentLength : UInt32) :
    List Addr → Except Fault (Option Addr)
  | [] => .ok none
  | x :: xs => do
      let b ← s.bundle x
      if b.creationTimestampMs = creationTimestampMs &&
          b.sequenceNumber = sequenceNumber.toUInt64 && b.source = source &&
          (!b.isFragmented ||
            (b.fragmentOffset = fragmentOffset && b.payloadLength = fragmentLength)) then
        pure (some x)
      else
        custodyFind s creationTimestampMs sequenceNumber source fragmentOffset fragmentLength xs

/-- `custody_manager_has_redundant_bundle`. -/
def custodyManagerHasRedundantBundle (s : Processor) (a : Addr) : Except Fault Bool := do
  let b ← s.bundle a
  let found ← custodyFind s b.creationTimestampMs b.sequenceNumber.toUInt16 b.source
    b.fragmentOffset b.payloadLength s.accepted
  pure found.isSome

/-- `custody_manager_storage_is_acceptable`.  The size of a bundle is computed only
when the other conditions do not decide, and writes its primary block length. -/
def custodyManagerStorageIsAcceptable (s : Processor) (a : Addr) :
    Except Fault (Bool × Processor) := do
  let b ← s.bundle a
  let bpv6SeCheck := b.protocolVersion = 6 && !hasFlag b.procFlags flagSingletonEndpoint
  if custodyMaxBundleCount ≤ s.accepted.length then pure (false, s)
  else if a ∈ s.accepted then pure (false, s)
  else
    let (size, b') := bundleGetSerializedSize b
    let s ← s.update a fun _ => b'
    pure (!(custodyMaxBundleSize < size || bpv6SeCheck), s)

/-- `custody_manager_get_by_record`. -/
def custodyManagerGetByRecord (s : Processor) (r : AdministrativeRecord) :
    Except Fault (Option Addr) :=
  custodyFind s r.bundleCreationTimestampMs r.bundleSequenceNumber.toUInt16 r.bundleSourceEid
    r.fragmentOffset r.fragmentLength s.accepted

/-- `custody_manager_accept`. -/
def custodyManagerAccept (P : Params) (s : Processor) (a : Addr) :
    Except Fault (Bool × Processor) := do
  let redundant ← custodyManagerHasRedundantBundle s a
  assertP (!redundant)
  let (acceptable, s) ← custodyManagerStorageIsAcceptable s a
  assertP acceptable
  let s := { s with accepted := s.accepted ++ [a] }
  let s ← s.update a fun b => { b with ret := { b.ret with custodyAccepted := true } }
  let b ← s.bundle a
  if b.protocolVersion = 6 then
    let s ← s.update a fun b => { b with currentCustodian := P.localEid }
    pure (true, s)
  else pure (false, s)

/-- `memmove` of `num` bytes, from the second pointer of an array to the first one:
as many pointers as fit, and then the low bytes of one more. -/
def moveBytes (ptrSize : Nat) : Nat → List Addr → List Addr
  | num, p :: q :: rest =>
      if ptrSize ≤ num then q :: moveBytes ptrSize (num - ptrSize) (q :: rest)
      else (q % 256 ^ num + p / 256 ^ num * 256 ^ num) :: q :: rest
  | _, l => l

/-- What `custody_manager_release` does to the array: the number of pointers that
follow is taken for the number of bytes to move. -/
def removeAccepted (ptrSize : Nat) (accepted : List Addr) (index : Nat) : List Addr :=
  if index ≠ accepted.length - 1 then
    (accepted.take index ++
      moveBytes ptrSize (accepted.length - index - 1) (accepted.drop index)).dropLast
  else accepted.dropLast

/-- `custody_manager_release`. -/
def custodyManagerRelease (P : Params) (s : Processor) (a : Addr) :
    Except Fault Processor := do
  match s.accepted.idxOf? a with
  | none => pure s
  | some index =>
      let s := { s with accepted := removeAccepted P.ptrSize s.accepted index }
      let s ← s.update a fun b => { b with ret := { b.ret with custodyAccepted := false } }
      let b ← s.bundle a
      if b.ret = .none then bundleDiscard s a else pure s

/-! ## Known bundles -/

/-- `known_bundle_list_remove_before`. -/
def knownBundleListRemoveBefore (known : List KnownEntry) (before : UInt64) :
    List KnownEntry :=
  known.dropWhile (·.deadline < before)

/-- Whether an entry stands for the original bundle of a fragment. -/
def isReassembledParent (b : Bundle) (e : KnownEntry) : Bool :=
  bundleIsEqualParent b e.uniqueIdentifier && e.uniqueIdentifier.fragmentOffset = 0 &&
    e.uniqueIdentifier.payloadLength = b.totalAduLength

/-- `create_entry`, with the changes for a reassembled parent. -/
def createEntry (now : UInt64) (b : Bundle) (asParent : Bool) : KnownEntry :=
  let id := bundleGetUniqueIdentifier b
  { uniqueIdentifier :=
      if asParent then { id with fragmentOffset := 0, payloadLength := b.totalAduLength } else id
    deadline := bundleGetExpirationTimeS now b }

/-- `add_if_not_exists`: whether the entry existed, and the list after it; without
memory the entry is not added. -/
def addIfNotExists (now : UInt64) (mem : Option Nat) (b : Bundle) (asParent : Bool) :
    List KnownEntry → Bool × List KnownEntry
  | [] => (false, if mem.isSome then [createEntry now b asParent] else [])
  | e :: es =>
      if asParent && isReassembledParent b e then (true, e :: es)
      else if !asParent && bundleIsEqual b e.uniqueIdentifier then (true, e :: es)
      else if bundleGetExpirationTimeS now b < e.deadline then
        (false, if mem.isSome then createEntry now b asParent :: e :: es else e :: es)
      else
        let (found, es) := addIfNotExists now mem b asParent es
        (found, e :: es)

/-- `bundle_record_add_and_check_known`. -/
def bundleRecordAddAndCheckKnown (env : Env) (s : Processor) (b : Bundle) : Bool × Processor :=
  let s := { s with known := knownBundleListRemoveBefore s.known env.now }
  if bundleGetExpirationTimeS env.now b < env.now then (true, s)
  else
    let (mem, s) := malloc env s
    let (found, known) := addIfNotExists env.now mem b false s.known
    (found, { s with known })

/-- `bundle_reassembled_is_known`. -/
def bundleReassembledIsKnown (s : Processor) (b : Bundle) : Bool :=
  s.known.any (isReassembledParent b)

/-- `bundle_add_reassembled_as_known`. -/
def bundleAddReassembledAsKnown (env : Env) (s : Processor) (b : Bundle) : Processor :=
  let (mem, s) := malloc env s
  { s with known := (addIfNotExists env.now mem b true s.known).2 }

/-! ## Agents -/

/-- `get_agent_id`. -/
def getAgentId (localEid destEid : CStr) : Option CStr :=
  let localLen := localEid.length
  if localEid.getLast? = some '/' then
    if destEid.length ≤ localLen || destEid[localLen - 1]? ≠ some '/' then none
    else some (destEid.drop localLen)
  else if destEid.length ≤ localLen + 1 || destEid[localLen]? ≠ some '/' then none
  else some (destEid.drop (localLen + 1))

/-- `agent_register`. -/
def agentRegister (env : Env) (s : Processor) (sinkIdentifier : CStr) : Processor :=
  if sinkIdentifier ∈ s.agents then s
  else
    let (mem, s) := malloc env s
    if mem.isSome then { s with agents := s.agents ++ [sinkIdentifier] } else s

/-- `agent_deregister`. -/
def agentDeregister (s : Processor) (sinkIdentifier : CStr) : Processor :=
  { s with agents := s.agents.erase sinkIdentifier }

/-- `agent_forward`. -/
def agentForward (s : Processor) (agentId : CStr) (adu : Adu) : Processor :=
  if agentId ∈ s.agents then { s with delivered := s.delivered ++ [(agentId, adu)] } else s

/-! ## Administrative records -/

/-- `"dtn:none"`. -/
def eidNone : CStr := "dtn:none".toList

/-- The bundle of `bundle6_create_local` and `bundle7_create_local` for a record.  The
first one is followed by `ret_constraints = BUNDLE_RET_CONSTRAINT_FLAG_OWN`. -/
def recordBundle (P : Params) (env : Env) (version : UInt8) (b : Bundle) (destination : CStr)
    (data : Buffer) : Bundle where
  id := invId
  protocolVersion := version
  procFlags :=
    if version = 6 then flagAdministrativeRecord ||| flagSingletonEndpoint
    else flagAdministrativeRecord
  ret := { RetConstraints.none with flagOwn := version = 6 }
  crcType := .crc16
  destination := destination
  source := P.localEid
  reportTo := eidNone
  currentCustodian := if version = 6 then eidNone else []
  creationTimestampMs := env.now * 1000
  sequenceNumber := 1
  lifetimeMs := (bundleGetExpirationTimeS env.now b - env.now) * 1000
  fragmentOffset := 0
  totalAduLength := 0
  primaryBlockLength := 0
  blocksBefore := []
  payload :=
    { number := 1
      flags := if version = 6 then blockFlagLastBlock else 0
      data := data
      eidRefs := []
      crcType := .none }
  blocksAfter := []

/-- Whether the lifetime of a record is negative. -/
def outlived (env : Env) (b : Bundle) : Bool :=
  (bundleGetExpirationTimeS env.now b).toInt64 - env.now.toInt64 < 0

/-- A new bundle, if there is memory for it and its parts. -/
def newBundle (env : Env) (s : Processor) (b : Bundle) : Option Addr × Processor :=
  match malloc env s with
  | (none, s) => (none, s)
  | (some gap, s) =>
      let a := s.bundles.bound + gap
      (some a, s.put a b)

/-- `generate_record` of version 6.  If the bundle cannot be created, its payload is
freed twice: by `bundle6_create_local` and by the caller. -/
def generateRecord6 (P : Params) (env : Env) (s : Processor) (b : Bundle) (destination : CStr)
    (isCustodySignal : Bool) (prefix1 prefix2 : UInt8) :
    Except Fault (Option Addr × Processor) := do
  let (buffer, s) := malloc env s
  if buffer.isNone then pure (none, s)
  else if outlived env b then pure (none, s)
  else if ':' ∉ P.localEid ∨ ':' ∉ destination then .error (.other .dangling)
  else
    let record := recordBundle P env 6 b destination
      (env.record6 b isCustodySignal prefix1 prefix2)
    match newBundle env s (bundleRecalculateHeaderLength record) with
    | (none, _) => .error (.other .dangling)
    | (some a, s) => pure (some a, s)

/-- `bundle7_generate_status_report`. -/
def bundle7GenerateStatusReport (P : Params) (env : Env) (s : Processor) (b : Bundle)
    (status : ReportStatus) (reason : ReportReason) : Option Addr × Processor :=
  match malloc env s with
  | (none, s) => (none, s)
  | (some _, s) =>
      match env.record7 b status reason with
      | none => (none, s)
      | some data =>
          if outlived env b then (none, s)
          else newBundle env s
            (bundleRecalculateHeaderLength (recordBundle P env 7 b b.reportTo data))

/-- `generate_status_report`. -/
def generateStatusReport (P : Params) (env : Env) (s : Processor) (b : Bundle)
    (status : ReportStatus) (reason : ReportReason) :
    Except Fault (Option Addr × Processor) :=
  if b.protocolVersion = 6 then
    generateRecord6 P env s b b.reportTo true status.code reason.code
  else if b.protocolVersion = 7 then .ok (bundle7GenerateStatusReport P env s b status reason)
  else .ok (none, s)

/-- `generate_custody_signal`: at most one bundle, which is lost without memory for
the list entry. -/
def generateCustodySignal (P : Params) (env : Env) (s : Processor) (b : Bundle)
    (signal : CustodySignal) : Except Fault (Option Addr × Processor) :=
  if b.protocolVersion = 6 then do
    let (r, s) ← generateRecord6 P env s b b.currentCustodian false
      ((signal.reason &&& 0x7F) ||| (if signal.accepted then 0x80 else 0)) 0
    match r with
    | none => pure (none, s)
    | some r =>
        let (entry, s) := malloc env s
        pure (if entry.isSome then some r else none, s)
  else .ok (none, s)

end BundleProcessor
