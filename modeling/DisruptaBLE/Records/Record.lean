import DisruptaBLE.Processor.State

/-!
# Administrative records

The structures of `include/ud3tn/bundle.h` that the generators and the parsers of both versions
share, and the data of the blocks that they create.
-/

namespace Records

open BundleProcessor

/-- `BUNDLE_AR_STATUS_REPORT`. -/
def recordStatusReport : UInt32 := 1

/-- `BUNDLE_AR_CUSTODY_SIGNAL`. -/
def recordCustodySignal : UInt32 := 2

/-- `BUNDLE_AR_FLAG_FRAGMENT`. -/
def recordFlagFragment : UInt32 := 0x1

/-- `BUNDLE_SR_FLAG_BUNDLE_RECEIVED`. -/
def statusReceived : UInt32 := 0x01

/-- `BUNDLE_SR_FLAG_CUSTODY_TRANSFER`. -/
def statusCustodyTransfer : UInt32 := 0x02

/-- `BUNDLE_SR_FLAG_BUNDLE_FORWARDED`. -/
def statusForwarded : UInt32 := 0x04

/-- `BUNDLE_SR_FLAG_BUNDLE_DELIVERED`. -/
def statusDelivered : UInt32 := 0x08

/-- `BUNDLE_SR_FLAG_BUNDLE_DELETED`. -/
def statusDeleted : UInt32 := 0x10

/-- `struct bundle_status_report`; the reason is a code. -/
structure StatusReport where
  status : UInt32
  bundleReceivedTime : UInt64
  bundleForwardedTime : UInt64
  bundleDeliveredTime : UInt64
  bundleDeletedTime : UInt64
  reason : UInt32
  deriving DecidableEq, Repr

/-- `struct bundle_administrative_record`. -/
structure Record where
  type : UInt32
  flags : UInt32
  statusReport : Option StatusReport
  custodySignal : Option CustodySignal
  fragmentOffset : UInt32
  fragmentLength : UInt32
  eventTimestamp : UInt64
  eventNanoseconds : UInt32
  bundleCreationTimestampMs : UInt64
  bundleSequenceNumber : UInt64
  bundleSourceEidLength : UInt16
  bundleSourceEid : CStr
  deriving DecidableEq, Repr

/-- The data of a block that is told its length as a `size_t`. -/
def blockData (l : List UInt8) : Buffer :=
  ⟨l.take (l.length % 2 ^ 32), Buffer.take_fits l⟩

theorem bytes_blockData {l : List UInt8} (h : l.length < 2 ^ 32) : (blockData l).bytes = l := by
  change l.take (l.length % 2 ^ 32) = l
  rw [Nat.mod_eq_of_lt h, List.take_length]

end Records
