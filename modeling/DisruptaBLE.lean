import DisruptaBLE.Lib.Heap
import DisruptaBLE.Lib.Outcome
import DisruptaBLE.Lib.Splice
import DisruptaBLE.Lib.Chain
import DisruptaBLE.Lib.AvlTree
import DisruptaBLE.Storage.Tree
import DisruptaBLE.Storage.TreeRep
import DisruptaBLE.Storage.Rebalance
import DisruptaBLE.Storage.Search
import DisruptaBLE.Storage.Delete
import DisruptaBLE.Storage.Store
import DisruptaBLE.Epidemic.Htab
import DisruptaBLE.Epidemic.Router
import DisruptaBLE.Epidemic.BundleList
import DisruptaBLE.Epidemic.ContactTable
import DisruptaBLE.Epidemic.RouterRuns
import DisruptaBLE.Epidemic.Budget
import DisruptaBLE.Epidemic.Transmission
import DisruptaBLE.Epidemic.ContactManager
import DisruptaBLE.Epidemic.ContactRuns
import DisruptaBLE.Processor.Bundle
import DisruptaBLE.Processor.State
import DisruptaBLE.Processor.Handlers
import DisruptaBLE.Processor.Known
import DisruptaBLE.Processor.Invariant
import DisruptaBLE.Processor.Records
import DisruptaBLE.Processor.Slots
import DisruptaBLE.Processor.Delivery
import DisruptaBLE.Processor.Reassembly
import DisruptaBLE.Processor.Assembly
import DisruptaBLE.Processor.Course
import DisruptaBLE.Processor.Reception
import DisruptaBLE.Processor.Signals
import DisruptaBLE.Processor.Runs
import DisruptaBLE.Processor.Attempt
import DisruptaBLE.Processor.Disposal
import DisruptaBLE.Processor.Arrival
import DisruptaBLE.Processor.ReassemblyRuns
import DisruptaBLE.Processor.KnownRuns
import DisruptaBLE.Processor.AssemblyRuns
import DisruptaBLE.Bundle7.Fragment
import DisruptaBLE.Processor.FragmentRuns
import DisruptaBLE.Contact.Fragmenter
import DisruptaBLE.Contact.Router
import DisruptaBLE.Contact.RouterTask
import DisruptaBLE.Contact.RouterRuns
import DisruptaBLE.Cla.RxTask
import DisruptaBLE.Epidemic.ContactArray
import DisruptaBLE.Epidemic.ContactActivity
import DisruptaBLE.Processor.Custody
import DisruptaBLE.Processor.Reports
import DisruptaBLE.Processor.ReportedSignals
import DisruptaBLE.Processor.ReportRuns
import DisruptaBLE.Contact.TxReport
import DisruptaBLE.Contact.PlannedCuts
import DisruptaBLE.Contact.Node
import DisruptaBLE.Contact.RoutingTable
import DisruptaBLE.Contact.Associations
import DisruptaBLE.Contact.NodeContacts
import DisruptaBLE.Contact.ContactLists
import DisruptaBLE.Contact.TableInvariant
import DisruptaBLE.Contact.TableOperations
import DisruptaBLE.Contact.TableRuns
import DisruptaBLE.Epidemic.SummaryVector
import DisruptaBLE.Epidemic.RoutingAgent
import DisruptaBLE.Lib.Cbor
import DisruptaBLE.Aap.Message
import DisruptaBLE.Aap.Parser
import DisruptaBLE.Aap.RoundTrip
import DisruptaBLE.Bundle7.Items
import DisruptaBLE.Bundle7.EidRoundTrip
import DisruptaBLE.Records.Record
import DisruptaBLE.Records.Reports7
import DisruptaBLE.Lib.Base128
import DisruptaBLE.Bundle6.Sdnv
import DisruptaBLE.Records.Reports6
import DisruptaBLE.Bundle6.Serializer
import DisruptaBLE.Bundle6.Framing
import DisruptaBLE.Bundle6.Parser
import DisruptaBLE.Bundle6.Feeding
import DisruptaBLE.Bundle6.Dictionary
import DisruptaBLE.Bundle6.ReadPrimary
import DisruptaBLE.Bundle6.ReadBlocks
import DisruptaBLE.Bundle6.RoundTrip
import DisruptaBLE.Cla.Ml2capRx
import DisruptaBLE.Cla.FrameIsolation
import DisruptaBLE.Bundle7.HopCount
import DisruptaBLE.Cla.Ml2capTx
import DisruptaBLE.Contact.ContactManager
import DisruptaBLE.Processor.KnownOrder
import DisruptaBLE.Lib.RingBuffer
import DisruptaBLE.Cla.NbSvChFilter
import DisruptaBLE.Epidemic.VectorGrowth
import DisruptaBLE.Epidemic.VectorMessages
import DisruptaBLE.Epidemic.Unlimited
import DisruptaBLE.Epidemic.VectorBuilders
import DisruptaBLE.Epidemic.DirectDelivery
import DisruptaBLE.Epidemic.VectorMemory
import DisruptaBLE.Processor.UnknownBlocks
import DisruptaBLE.Processor.Expiry
import DisruptaBLE.Lib.ByteFeed
import DisruptaBLE.Spp.Timecodes
import DisruptaBLE.Spp.TimecodeBounds
import DisruptaBLE.Spp.Parser
import DisruptaBLE.Spp.RoundTrip
import DisruptaBLE.Bundle7.Passes
import DisruptaBLE.Bundle7.ReadBack
import DisruptaBLE.Bundle7.RoundTrip
import DisruptaBLE.Contact.Capacity
import DisruptaBLE.Epidemic.ContactExpiry
import DisruptaBLE.Contact.CapacityAccounting
import DisruptaBLE.Contact.FragmentPlan
import DisruptaBLE.Contact.RouteReuse
import DisruptaBLE.Contact.Verification
import DisruptaBLE.Lib.IncreasingLists
import DisruptaBLE.Contact.ListAlgebra
import DisruptaBLE.Bundle7.EidCodec
import DisruptaBLE.Bundle7.EidMemory
import DisruptaBLE.Contact.Optimizer
import DisruptaBLE.Contact.Assignments
import DisruptaBLE.Contact.Preemption
import DisruptaBLE.Contact.PreemptedRoom
import DisruptaBLE.Bundle7.Quota
import DisruptaBLE.Bundle7.FirstFragment
import DisruptaBLE.Bundle7.FragmentBlocks
import DisruptaBLE.Bundle6.Fragment
import DisruptaBLE.Bundle6.StageFields
import DisruptaBLE.Bundle6.Quota
import DisruptaBLE.Processor.Lookup
import DisruptaBLE.Bundle7.DeepCopies
import DisruptaBLE.Config.Parser
import DisruptaBLE.Config.Grammar
import DisruptaBLE.Config.Fidelity
import DisruptaBLE.Config.Segments
import DisruptaBLE.Cla.NbBle
import DisruptaBLE.Lib.BitCrc
import DisruptaBLE.Ud3tn.Crc
import DisruptaBLE.Epidemic.Characteristic
import DisruptaBLE.Bundle6.SdnvCodec
import DisruptaBLE.Ud3tn.SimpleHtab
import DisruptaBLE.Ud3tn.HtabRuns
import DisruptaBLE.Ud3tn.EidList
import DisruptaBLE.Platform.SimpleQueue
import DisruptaBLE.Platform.QueueRuns
import DisruptaBLE.Lib.EndingLoop
import DisruptaBLE.Bundle6.ParserEnds
import DisruptaBLE.Bundle7.ParserEnds
import DisruptaBLE.Cla.ChunkRead
import DisruptaBLE.Lib.Interleaving
import DisruptaBLE.Cla.Ml2capLinks
import DisruptaBLE.Cla.Ml2capSignals
import DisruptaBLE.Cla.TxTask
import DisruptaBLE.Epidemic.Connectivity
