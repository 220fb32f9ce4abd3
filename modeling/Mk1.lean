import Mk1.Library.OrderedMap
import Mk1.Library.Partition
import Mk1.Library.DirectMapped
import Mk1.Library.Window
import Mk1.Library.FieldElements
import Mk1.Library.Transition
import Mk1.Library.WatchChannel
import Mk1.Library.WatchStream
import Mk1.Library.TextSearch
import Mk1.Library.Consecutive
import Mk1.Library.SkippingInterval
import Mk1.Library.NumberedChain
import Mk1.Library.TicketQueue
import Mk1.Library.TruncatedDecay
import Mk1.Library.IntervalList
import Mk1.Library.Deltas
import Mk1.Library.ShortWeierstrass
import Mk1.Library.Secp256k1
import Mk1.Library.MovingAverage
import Mk1.Primitives.Basic
import Mk1.Primitives.Batch
import Mk1.Primitives.Block
import Mk1.Primitives.Block.GapCheck
import Mk1.Primitives.Batch.Invariant
import Mk1.Primitives.BatchMap
import Mk1.Primitives.BatchMap.Grouping
import Mk1.Primitives.BatchMap.CoinbaseChecked
import Mk1.Primitives.BatchMap.Reanchoring
import Mk1.Primitives.BatchMap.Reanchored
import Mk1.Primitives.BatchMap.Retimestamping
import Mk1.Primitives.BatchMap.Conservation
import Mk1.Primitives.BatchMap.Proposability
import Mk1.Primitives.BatchMap.TimeShift
import Mk1.Primitives.BatchMap.Posting
import Mk1.Primitives.BatchMap.Contiguity
import Mk1.Primitives.Blob
import Mk1.Primitives.Blob.Encoding
import Mk1.Primitives.Blob.Decoding
import Mk1.Primitives.Blob.RoundTrip
import Mk1.Primitives.Blob.Canonical
import Mk1.Primitives.Blob.Safety
import Mk1.Primitives.Blob.VersionedHash
import Mk1.Primitives.Fees
import Mk1.Primitives.Fees.Consistency
import Mk1.Primitives.Time
import Mk1.Primitives.SlotClock
import Mk1.Clients.BlockSubscription
import Mk1.Primitives.Compression
import Mk1.Primitives.DeterministicSigner
import Mk1.Primitives.DeterministicSigner.FixedNonce
import Mk1.Driver.Config
import Mk1.Driver.SlotClock
import Mk1.Driver.SlotClock.Announced
import Mk1.Driver.Lookahead
import Mk1.Driver.Lookahead.Ring
import Mk1.Driver.Lookahead.EpochMap
import Mk1.Driver.Lookahead.MutualExclusion
import Mk1.Driver.Lookahead.WindowEnd
import Mk1.Driver.Lookahead.NewWindow
import Mk1.Driver.Lookahead.EndOfSequencing
import Mk1.Driver.Lookahead.Ownership
import Mk1.Driver.BuilderState
import Mk1.Driver.Errors
import Mk1.Driver.Processor
import Mk1.Driver.Processor.Overlap
import Mk1.Driver.Processor.Ledger
import Mk1.Driver.Processor.Failure
import Mk1.Driver.Poster
import Mk1.Driver.Poster.Replacement
import Mk1.Driver.Poster.Deadline
import Mk1.Driver.Poster.NonceAndGas
import Mk1.Driver.Poster.FeeCap
import Mk1.Driver.Poster.BaseFee
import Mk1.Driver.Processor.Proposal
import Mk1.Driver.Processor.Throttling
import Mk1.Driver.Processor.Polling
import Mk1.Driver.Processor.PollPlaces
import Mk1.Driver.Poster.BatchParams
import Mk1.Driver.Poster.Derivation
import Mk1.Driver.SoftBlocks
import Mk1.Driver.SoftBlocks.Accounting
import Mk1.Driver.SoftBlocks.Polling
import Mk1.Driver.SoftBlocks.Partial
import Mk1.Driver.Syncer
import Mk1.Driver.Syncer.ReanchorTarget
import Mk1.Driver.Syncer.Thresholds
import Mk1.Driver.State
import Mk1.Driver.BlockBuilder
import Mk1.Driver.EventLoop
import Mk1.Driver.EventLoop.AnchorConsistency
import Mk1.Driver.EventLoop.Batches
import Mk1.Driver.EventLoop.Provenance
import Mk1.Driver.EventLoop.AgeLimit
import Mk1.Driver.EventLoop.AnchorOrder
import Mk1.Driver.EventLoop.BuilderLock
import Mk1.Driver.EventLoop.Deadlock
import Mk1.Driver.EventLoop.OutstandingBatch
import Mk1.Driver.EventLoop.Contiguity
import Mk1.Driver.EventLoop.GapFilling
import Mk1.Driver.EventLoop.Channels
import Mk1.Driver.EventLoop.Reorgs
import Mk1.Driver.EventLoop.Submissions
import Mk1.Driver.EventLoop.SequencingWindow
import Mk1.Driver.EventLoop.Handover
import Mk1.Driver.Sequencer
import Mk1.Driver.Sequencer.Room
import Mk1.Driver.Sequencer.Derivation
import Mk1.Driver.EventLoop.Log
import Mk1.Driver.EventLoop.RouterUnset
import Mk1.Driver.EventLoop.Ticks
import Mk1.Driver.Handlers
