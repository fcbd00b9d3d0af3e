import WarpSim.Library.PriorityQueue
import WarpSim.Model.Stamp
import WarpSim.Model.Event
import WarpSim.Library.Buckets
import WarpSim.Library.Codec
import WarpSim.Library.LittleEndian
import WarpSim.Library.Triple
import WarpSim.Library.OrderedMap
import WarpSim.Model.LogicalProcess
import WarpSim.Model.Determinism
import WarpSim.Model.State
import WarpSim.Model.Wire
import WarpSim.Model.Send
import WarpSim.Model.Rollback
import WarpSim.Model.Dispatch
import WarpSim.Model.Gvt
import WarpSim.Model.Run
import WarpSim.Model.DirectoryLp
import WarpSim.Verification.Wire.RoundTrip
import WarpSim.Verification.Wire.Canonical
import WarpSim.Verification.Moves
import WarpSim.Verification.Simulates
import WarpSim.Verification.Checker.Invariant
import WarpSim.Verification.Checker.Dispatch
import WarpSim.Verification.Runs
import WarpSim.Verification.Checker.Runs
import WarpSim.Verification.Books
import WarpSim.Verification.Contexts
import WarpSim.Verification.History
import WarpSim.Verification.Bounds
import WarpSim.Verification.Stages
import WarpSim.Verification.Phases
import WarpSim.Verification.Dispatching
import WarpSim.Verification.SentLog
import WarpSim.Verification.Rollback.Antis
import WarpSim.Verification.Scans
import WarpSim.Verification.Suppression
import WarpSim.Verification.Deferral.Coverage
import WarpSim.Verification.Deferral.Table
import WarpSim.Verification.Deferral.Cancelled
import WarpSim.Verification.Deferral.Atomic
import WarpSim.Verification.Deferral.Turns
import WarpSim.Verification.Deferral.Livelock
import WarpSim.Verification.Directory.Pruning
import WarpSim.Verification.Stamping
import WarpSim.Verification.FailedSend
import WarpSim.Verification.Directory.Forwarding
import WarpSim.Verification.Directory.Priority
import WarpSim.Verification.Digest
import WarpSim.Verification.Migration.Ownership
import WarpSim.Verification.Migration.Cutover
import WarpSim.Verification.Migration.Retained
import WarpSim.Library.BackScan
import WarpSim.Library.Mixing
import WarpSim.Library.Consume
import WarpSim.Model.Trivial
import WarpSim.Verification.Trivial
import WarpSim.Model.OptimisticMigration
import WarpSim.Verification.Migration.Payloads
import WarpSim.Model.AoiLp
import WarpSim.Verification.Snapshots
import WarpSim.Verification.Aoi.Cone
import WarpSim.Verification.Aoi.Queries
import WarpSim.Model.Random
import WarpSim.Verification.Random
import WarpSim.Model.StateHistory
import WarpSim.Verification.StateHistory
import WarpSim.Verification.Counters
import WarpSim.Verification.Rollback.Pairing
import WarpSim.Library.UndoLog
import WarpSim.Verification.Rollback.Restoring
import WarpSim.Verification.Rollback.Contracts
import WarpSim.Verification.Resting
import WarpSim.Verification.Rollback.Replay
import WarpSim.Verification.Rollback.Anchored
import WarpSim.Verification.Conservation
import WarpSim.Library.Flushes
import WarpSim.Verification.Sinks
import WarpSim.Verification.Committed
import WarpSim.Verification.Rollback.Cancelling
import WarpSim.Library.Sequential
import WarpSim.Verification.UnderWay
import WarpSim.Verification.Sequential.Logs
import WarpSim.Verification.Sequential.Turns
import WarpSim.Verification.Sequential.Ledger
import WarpSim.Verification.Sequential.Steps
import WarpSim.Verification.Sequential.Accounts
import WarpSim.Verification.Sequential.Balance
import WarpSim.Verification.Sequential.Settling
import WarpSim.Verification.Sequential.Output
import WarpSim.Verification.Sequential.Opening
import WarpSim.Verification.Sequential.Outcomes
import WarpSim.Verification.Sequential.Invariance
import WarpSim.Verification.Rollback.Annulled
import WarpSim.Verification.Drawing
import WarpSim.Verification.Rollback.Sequences
import WarpSim.Verification.Ordering
