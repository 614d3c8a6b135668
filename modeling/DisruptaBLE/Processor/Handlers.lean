import DisruptaBLE.Processor.State

/-!
# The handlers of the bundle processor

The functions of `components/ud3tn/bundle_processor.c`, from `bundle_delete` to
`handle_signal`.

Some of them call each other: deleting a bundle may send a report, which is a
bundle of its own that is forwarded, and deleted again if it cannot be forwarded.
`bundleForwardWith`, `sendStatusReportWith` and `sendCustodySignalWith` therefore
take the function that deletes a bundle, and `bundleDeleteAt` counts how deep such
calls may nest.  Two levels are enough: the deletion of a report sends no report.
-/

namespace BundleProcessor

open PtrHeap BundleStorage

/-- A function that deletes a bundle. -/
abbrev Deletion := Processor → Addr → ReportReason → Except Fault Processor

/-- `STATUS_REPORT_TIMEOUT`. -/
def statusReportTimeout : Nat := 1000

/-- `CUSTODY_SIGNAL_TIMEOUT`. -/
def custodySignalTimeout : Nat := 1000

/-- `FAILED_FORWARD_TIMEOUT`. -/
def failedForwardTimeout : Nat := 1000

/-! ## Forwarding and reports -/

/-- `send_bundle`.  Without a timeout it waits until the queue has room. -/
def sendBundle (env : Env) (s : Processor) (id : UInt16) (timeout : Nat) : Bool × Processor :=
  if timeout = 0 then (true, { s with outQueue := s.outQueue ++ [id] })
  else
    let ok := env.pushed s.requests
    let s := { s with requests := s.requests + 1 }
    (ok, if ok then { s with outQueue := s.outQueue ++ [id] } else s)

/-- `hop_count_validation`. -/
def hopCountValidationWith (del : Deletion) (P : Params) (env : Env) (s : Processor)
    (a : Addr) : Except Fault (Bool × Processor) := do
  let b ← s.bundle a
  match findBlockByType b.blocks blockTypeHopCount with
  | none => pure (true, s)
  | some block =>
      match P.hopCountParse block.data.bytes with
      | none => pure (true, s)
      | some hopCount =>
          if hopCount.limit ≤ hopCount.count then
            let s ← del s a .hopLimitExceeded
            pure (false, s)
          else
            match malloc env s with
            | (none, s) => pure (true, s)
            | (some _, s) =>
                let data := P.hopCountSerialize { hopCount with count := hopCount.count + 1 }
                let s ← s.update a (·.setBlockData blockTypeHopCount data)
                pure (true, s)

/-- `bundle_forward`. -/
def bundleForwardWith (del : Deletion) (P : Params) (env : Env) (s : Processor) (a : Addr)
    (timeout : Nat) : Except Fault (Bool × Processor) := do
  let (valid, s) ← hopCountValidationWith del P env s a
  if !valid then
    -- the message reads the id of the bundle
    let _ ← s.bundle a
    let s ← del s a .hopLimitExceeded
    pure (false, s)
  else
    let s ← s.update a fun b => { b with ret := { b.ret with forwardPending := true } }
    let s ← s.update a fun b => { b with ret := { b.ret with dispatchPending := false } }
    let b ← s.bundle a
    let (sent, s) := sendBundle env s b.id timeout
    if !sent then
      let s ← del s a .depletedStorage
      pure (false, s)
    else pure (true, s)

/-- What `send_status_report` and `send_custody_signal` do with the bundle `r` that was
generated for the bundle `a`. -/
def emitRecordWith (del : Deletion) (P : Params) (env : Env) (s : Processor) (a r : Addr)
    (timeout : Nat) : Except Fault Processor := do
  let s ← s.update r fun b => { b with ret := { b.ret with dispatchPending := true } }
  let (_, s) ← storageAdd env s r
  let (sent, s) ← bundleForwardWith del P env s r timeout
  if !sent then
    let _ ← s.bundle a
    pure s
  else pure s

/-- `send_status_report`. -/
def sendStatusReportWith (del : Deletion) (P : Params) (env : Env) (s : Processor) (a : Addr)
    (status : ReportStatus) (reason : ReportReason) : Except Fault Processor :=
  if !P.statusReporting then .ok s
  else do
    let b ← s.bundle a
    if b.destination = eidNone || b.destination = P.localEid then pure s
    else
      let (r, s) ← generateStatusReport P env s b status reason
      match r with
      | none => pure s
      | some r =>
          let s := { s with reports := s.reports ++ [⟨a, b, status, reason⟩] }
          emitRecordWith del P env s a r statusReportTimeout

/-- `send_custody_signal`. -/
def sendCustodySignalWith (del : Deletion) (P : Params) (env : Env) (s : Processor) (a : Addr)
    (signal : CustodySignal) : Except Fault Processor := do
  let b ← s.bundle a
  let (r, s) ← generateCustodySignal P env s b signal
  match r with
  | none => pure s
  | some r => emitRecordWith del P env s a r custodySignalTimeout

/-- `bundle_delete`, with a bound on the nesting. -/
def bundleDeleteAt (P : Params) (env : Env) : Nat → Deletion
  | 0, _, _, _ => .error (.other .diverged)
  | depth + 1, s, a, reason => do
      let b ← s.bundle a
      let s ← s.when b.ret.custodyAccepted fun s => custodyManagerRelease P s a
      let s ← s.when (b.ret.custodyAccepted || hasFlag b.procFlags flagReportDeletion) fun s =>
        sendStatusReportWith (bundleDeleteAt P env depth) P env s a .deleted reason
      let s ← s.update a fun b => { b with ret := .none }
      bundleDiscard s a

/-- `bundle_delete`. -/
def bundleDelete (P : Params) (env : Env) : Deletion := bundleDeleteAt P env 2

/-- `bundle_forward`. -/
def bundleForward (P : Params) (env : Env) := bundleForwardWith (bundleDelete P env) P env

/-- `send_status_report`. -/
def sendStatusReport (P : Params) (env : Env) := sendStatusReportWith (bundleDelete P env) P env

/-- `send_custody_signal`. -/
def sendCustodySignal (P : Params) (env : Env) :=
  sendCustodySignalWith (bundleDelete P env) P env

/-! ## Local delivery -/

/-- `bundle_handle_custody_signal`, with `bundle_custody_success` and
`bundle_custody_failure`. -/
def bundleHandleCustodySignal (P : Params) (s : Processor) (record : AdministrativeRecord) :
    Except Fault Processor := do
  match ← custodyManagerGetByRecord s record with
  | none => pure s
  | some a => custodyManagerRelease P s a

/-- `bundle_deliver_adu`. -/
def bundleDeliverAdu (P : Params) (s : Processor) (adu : Adu) : Except Fault Processor :=
  if hasFlag adu.procFlags flagAdministrativeRecord then
    let s := { s with administered := s.administered ++ [adu] }
    match P.parseAdministrativeRecord adu.protocolVersion adu.payload with
    | none => .ok s
    | some record =>
        if record.custodySignal.isSome then bundleHandleCustodySignal P s record else .ok s
  else
    match getAgentId P.localEid adu.destination with
    | none => .error (.other .assertFailed)
    | some agentId => .ok (agentForward s agentId adu)

/-- `may_reassemble`. -/
def mayReassemble (b₁ b₂ : Bundle) : Bool :=
  b₁.creationTimestampMs = b₂.creationTimestampMs && b₁.sequenceNumber = b₂.sequenceNumber &&
    b₁.source = b₂.source

/-- The search of `bundle_attempt_reassembly`: the slot of a bundle, with the slots
before and after it. -/
def findSlot (s : Processor) (a : Addr) :
    List (List Addr) →
      Except Fault (Option (List (List Addr) × List Addr × List (List Addr)))
  | [] => .ok none
  | [] :: _ => .error (.other .nullDeref)
  | (x :: xs) :: rest => do
      let e ← s.bundle x
      let b ← s.bundle a
      if mayReassemble e b then pure (some ([], x :: xs, rest))
      else
        match ← findSlot s a rest with
        | none => pure none
        | some (before, slot, after) => pure (some ((x :: xs) :: before, slot, after))

/-- The position that `add_to_reassembly_bundle_list` looks for. -/
def insertFragment (s : Processor) (a : Addr) : List Addr → Except Fault (List Addr)
  | [] => .ok [a]
  | x :: xs => do
      let e ← s.bundle x
      let b ← s.bundle a
      if b.fragmentOffset < e.fragmentOffset then pure (a :: x :: xs)
      else
        let rest ← insertFragment s a xs
        pure (x :: rest)

/-- `add_to_reassembly_bundle_list`. -/
def addToReassemblyBundleList (P : Params) (env : Env) (s : Processor) (slot : List Addr)
    (a : Addr) : Except Fault (List Addr × Processor) := do
  let slot' ← insertFragment s a slot
  match malloc env s with
  | (none, s) =>
      let s ← bundleDelete P env s a .depletedStorage
      pure (slot, s)
  | (some _, s) => pure (slot', s)

/-- The check of `try_reassemble`: no gap up to the end of the ADU.  The sum of
offset and length is a `uint32_t`. -/
def canReassemble (s : Processor) : UInt32 → List Addr → Except Fault Bool
  | _, [] => .ok false
  | posInBundle, x :: xs => do
      let b ← s.bundle x
      if posInBundle < b.fragmentOffset then pure false
      else
        let posInBundle := b.fragmentOffset + b.payloadLength
        if b.totalAduLength ≤ posInBundle then pure true
        else canReassemble s posInBundle xs

/-- Subtraction of `size_t`. -/
def sizeSub (P : Params) (x y : Nat) : Nat := (x + 2 ^ (8 * P.ptrSize) - y) % 2 ^ (8 * P.ptrSize)

/-- The loop of `try_reassemble` that copies the payload of each fragment and discards
the fragment. -/
def copyFragments (P : Params) (aduLength : Nat) :
    List Addr → Nat → List UInt8 → Processor → Except Fault (List UInt8 × Processor)
  | [], _, payload, s => .ok (payload, s)
  | x :: xs, posInBundle, payload, s => do
      let b ← s.bundle x
      let length := b.payloadLength.toNat
      let offsetInBundle := sizeSub P posInBundle b.fragmentOffset.toNat
      let bytesCopied := min (sizeSub P length offsetInBundle) (sizeSub P aduLength posInBundle)
      let s ← s.update x fun b => { b with ret := { b.ret with reassemblyPending := false } }
      let s ← bundleDiscard s x
      if offsetInBundle < length then
        let piece := (b.payload.data.bytes.drop offsetInBundle).take bytesCopied
        copyFragments P aduLength xs (posInBundle + bytesCopied)
          (payload.take posInBundle ++ piece ++ payload.drop (posInBundle + bytesCopied)) s
      else copyFragments P aduLength xs posInBundle payload s

/-- `try_reassemble`, for a slot between others. -/
def tryReassemble (P : Params) (env : Env) (s : Processor) (before : List (List Addr))
    (slot : List Addr) (after : List (List Addr)) : Except Fault Processor := do
  let s := { s with reassembly := before ++ slot :: after }
  let complete ← canReassemble s 0 slot
  match complete, slot with
  | true, first :: _ =>
      let b ← s.bundle first
      let aduLength := b.totalAduLength.toNat
      match malloc env s with
      | (none, s) => pure s
      | (some _, s) =>
          -- the first round of the loop records the original bundle
          let s := bundleAddReassembledAsKnown env s b
          let (payload, s) ← copyFragments P aduLength slot 0
            ((List.range aduLength).map env.garbage) s
          bundleDeliverAdu P { s with reassembly := before ++ after }
            { bundleAduInit b with payload }
  | _, _ => pure s

/-- The end of `bundle_attempt_reassembly`: the search for a slot, and the attempt. -/
def joinSlot (P : Params) (env : Env) (s : Processor) (a : Addr) : Except Fault Processor := do
  match ← findSlot s a s.reassembly with
  | some (before, slot, after) =>
      let (slot, s) ← addToReassemblyBundleList P env s slot a
      tryReassemble P env s before slot after
  | none =>
      match malloc env s with
      | (none, s) => bundleDelete P env s a .depletedStorage
      | (some _, s) =>
          let slots := s.reassembly
          let (slot, s) ← addToReassemblyBundleList P env s [] a
          tryReassemble P env s slots slot []

/-- `bundle_attempt_reassembly`.  When the original bundle is known, the fragment is
discarded, and the search goes on with it. -/
def bundleAttemptReassembly (P : Params) (env : Env) (s : Processor) (a : Addr) :
    Except Fault Processor := do
  let b ← s.bundle a
  let s ← s.when (bundleReassembledIsKnown s b) fun s => do
    let s ← s.update a fun b => { b with ret := { b.ret with reassemblyPending := false } }
    bundleDiscard s a
  joinSlot P env s a

/-- `bundle_deliver_local`. -/
def bundleDeliverLocal (P : Params) (env : Env) (s : Processor) (a : Addr) :
    Except Fault Processor := do
  let s ← s.update a fun b => { b with ret := { b.ret with dispatchPending := false } }
  let b ← s.bundle a
  let (known, s) := bundleRecordAddAndCheckKnown env s b
  if known then bundleDiscard s a
  else
    let s ← s.when (hasFlag b.procFlags flagReportDelivery) fun s =>
      sendStatusReport P env s a .delivered .noInfo
    if !hasFlag b.procFlags flagAdministrativeRecord &&
        (getAgentId P.localEid b.destination).isNone then
      bundleDelete P env s a .destEidUnintelligible
    else if b.isFragmented then
      let s ← s.update a fun b => { b with ret := { b.ret with reassemblyPending := true } }
      bundleAttemptReassembly P env s a
    else
      let s ← s.update a fun b => (bundleToAdu b).2
      let s ← bundleDiscard s a
      bundleDeliverAdu P s (bundleToAdu b).1

/-- `bundle_endpoint_is_local`. -/
def bundleEndpointIsLocal (P : Params) (b : Bundle) : Bool := P.localEid.isPrefixOf b.destination

/-- `bundle_dispatch`. -/
def bundleDispatch (P : Params) (env : Env) (s : Processor) (a : Addr) :
    Except Fault Processor := do
  let b ← s.bundle a
  if bundleEndpointIsLocal P b then bundleDeliverLocal P env s a
  else
    let (_, s) ← bundleForward P env s a 0
    pure s

/-! ## Signals -/

/-- The block loop of `bundle_receive`, with `handle_unknown_block_flags`, over the blocks
on one side of the payload block: the blocks that are kept, unless the bundle is to be
deleted.  When a block is discarded, the loop goes on behind its successor (`skip`). -/
def handleBlocks (P : Params) (env : Env) (a : Addr) :
    Bool → List Block → Processor → Except Fault (Option (List Block) × Processor)
  | _, [], s => .ok (some [], s)
  | true, x :: xs, s => do
      let (kept, s) ← handleBlocks P env a false xs s
      pure (kept.map (x :: ·), s)
  | false, x :: xs, s =>
      if x.type = blockTypePayload then do
        let (kept, s) ← handleBlocks P env a false xs s
        pure (kept.map (x :: ·), s)
      else do
        let s ← s.when (hasFlag x.flags blockFlagReportIfUnproc) fun s =>
          sendStatusReport P env s a .received .blockUnintelligible
        if hasFlag x.flags blockFlagDeleteBundleIfUnproc then pure (none, s)
        else if hasFlag x.flags blockFlagDiscardIfUnproc then handleBlocks P env a true xs s
        else
          let (kept, s) ← handleBlocks P env a false xs s
          pure (kept.map ({ x with flags := x.flags ||| blockFlagFwdUnproc } :: ·), s)

/-- The lifetime check of `bundle_receive`. -/
def expiredOnArrival (env : Env) (b : Bundle) : Bool :=
  b.creationTimestampMs ≠ 0 && bundleGetExpirationTimeS env.now b < env.now

/-- The end of `bundle_receive`, after the block loop. -/
def custodyOrDispatch (P : Params) (env : Env) (s : Processor) (a : Addr) :
    Except Fault Processor := do
  let b ← s.bundle a
  if hasFlag b.procFlags flagCustodyTransferRequested && b.protocolVersion = 6 then
    if ← custodyManagerHasRedundantBundle s a then
      let s ← sendCustodySignal P env s a ⟨false, csReasonRedundantReception⟩
      let s ← s.update a fun b => { b with ret := { b.ret with dispatchPending := false } }
      let b ← s.bundle a
      if b.ret = .none then bundleDiscard s a else pure s
    else
      let (acceptable, s) ← custodyManagerStorageIsAcceptable s a
      if !acceptable then
        let s ← sendCustodySignal P env s a ⟨false, csReasonDepletedStorage⟩
        bundleDelete P env s a .depletedStorage
      else pure s
  else bundleDispatch P env s a

/-- `bundle_receive`. -/
def bundleReceive (P : Params) (env : Env) (s : Processor) (a : Addr) :
    Except Fault Processor := do
  let s ← s.update a fun b => { b with ret := { b.ret with dispatchPending := true } }
  let b ← s.bundle a
  let s ← s.when (hasFlag b.procFlags flagReportReception) fun s =>
    sendStatusReport P env s a .received .noInfo
  if expiredOnArrival env b then bundleDelete P env s a .lifetimeExpired
  else
    -- the payload block is never discarded, so the blocks behind it are examined anew
    match ← handleBlocks P env a false b.blocksBefore s with
    | (none, s) => bundleDelete P env s a .blockUnintelligible
    | (some blocksBefore, s) =>
        match ← handleBlocks P env a false b.blocksAfter s with
        | (none, s) => bundleDelete P env s a .blockUnintelligible
        | (some blocksAfter, s) =>
            let s ← s.update a fun b => { b with blocksBefore, blocksAfter }
            custodyOrDispatch P env s a

/-- `bundle_forwarding_scheduled`, with `bundle_custody_accept`. -/
def bundleForwardingScheduled (P : Params) (env : Env) (s : Processor) (a : Addr) :
    Except Fault Processor := do
  let b ← s.bundle a
  if hasFlag b.procFlags flagCustodyTransferRequested && !b.ret.custodyAccepted &&
      b.protocolVersion = 6 then
    let (accepted, s) ← custodyManagerAccept P s a
    if !accepted then pure s
    else
      let s ← s.when (hasFlag b.procFlags flagReportCustodyAcceptance) fun s =>
        sendStatusReport P env s a .custodyTransfer .noInfo
      sendCustodySignal P env s a ⟨true, csReasonNoInfo⟩
  else pure s

/-- `bundle_forwarding_success`. -/
def bundleForwardingSuccess (P : Params) (env : Env) (s : Processor) (a : Addr) :
    Except Fault Processor := do
  let b ← s.bundle a
  let s ← s.when (hasFlag b.procFlags flagReportForwarding) fun s =>
    sendStatusReport P env s a .forwarded .noInfo
  let s ← s.update a fun b =>
    { b with ret := { b.ret with forwardPending := false, flagOwn := false } }
  let b ← s.bundle a
  if b.ret = .none then bundleDiscard s a else pure s

/-- `bundle_forwarding_failed`. -/
def bundleForwardingFailed (P : Params) (env : Env) (s : Processor) (a : Addr)
    (reason : ReportReason) : Except Fault Processor := do
  let b ← s.bundle a
  let csReason :=
    if reason.code < ReportReason.depletedStorage.code then csReasonNoInfo else reason.code
  let s ← s.when (hasFlag b.procFlags flagCustodyTransferRequested && !b.ret.custodyAccepted)
    fun s => sendCustodySignal P env s a ⟨false, csReason⟩
  bundleDelete P env s a reason

/-- `bundle_dangling`, for the policy `POLICY_DROP_IF_NO_CUSTODY`. -/
def bundleDangling (P : Params) (env : Env) (s : Processor) (a : Addr) :
    Except Fault Processor := do
  let b ← s.bundle a
  if !(b.ret.custodyAccepted || b.ret.flagOwn) then
    bundleDelete P env s a .transmissionCanceled
  else
    match sendBundle env s b.id failedForwardTimeout with
    | (true, s) => pure s
    | (false, s) => bundleDelete P env s a .depletedStorage

/-- The signals about a bundle. -/
inductive BundleSignal where
  | incoming
  | routed
  | forwardingContraindicated (reason : ReportReason)
  | expired
  | reschedule
  | transmissionSuccess
  | transmissionFailure
  | localDispatch
  deriving DecidableEq, Repr

/-- `struct bundle_processor_signal`. -/
inductive Signal where
  | bundle (id : UInt16) (type : BundleSignal)
  | agentRegister (sinkIdentifier : CStr)
  | agentDeregister (sinkIdentifier : CStr)
  deriving DecidableEq, Repr

/-- The cases of `handle_signal` for a bundle. -/
def handleBundleSignal (P : Params) (env : Env) (s : Processor) (a : Addr) :
    BundleSignal → Except Fault Processor
  | .incoming => bundleReceive P env s a
  | .routed => bundleForwardingScheduled P env s a
  | .forwardingContraindicated reason => bundleForwardingFailed P env s a reason
  | .expired => bundleDelete P env s a .lifetimeExpired
  | .reschedule => bundleDangling P env s a
  | .transmissionSuccess => bundleForwardingSuccess P env s a
  | .transmissionFailure => bundleForwardingFailed P env s a .transmissionCanceled
  | .localDispatch => bundleDispatch P env s a

/-- `handle_signal`. -/
def handleSignal (P : Params) (env : Env) (s : Processor) : Signal → Except Fault Processor
  | .bundle id type => do
      match ← outside (bundleStorageGet s.store id) with
      | none => pure s
      | some a => handleBundleSignal P env s a type
  | .agentRegister sinkIdentifier => .ok (agentRegister env s sinkIdentifier)
  | .agentDeregister sinkIdentifier => .ok (agentDeregister s sinkIdentifier)

end BundleProcessor
