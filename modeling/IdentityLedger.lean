import IdentityLedger.Database.ClosedPool
import IdentityLedger.Engine.Follower
import IdentityLedger.Json.Printer
import IdentityLedger.Json.Reader
import IdentityLedger.Rehearsal.Stage
import IdentityLedger.Report.Aliases
import IdentityLedger.Report.Failures
import IdentityLedger.Report.Profiles
import IdentityLedger.Report.Projections
import IdentityLedger.Report.Settings
import IdentityLedger.Worker
import IdentityLedger.Proofs.Calendar.TimestampText
import IdentityLedger.Proofs.Json.Text
import IdentityLedger.Proofs.Profile.Json
import IdentityLedger.Proofs.EventStore.Log
import IdentityLedger.Proofs.Profile.History
import IdentityLedger.Proofs.Profile.Decision
import IdentityLedger.Proofs.Profile.Times
import IdentityLedger.Proofs.Profile.Session
import IdentityLedger.Proofs.Profile.Coherent
import IdentityLedger.Proofs.Plan
import IdentityLedger.Proofs.Repository
import IdentityLedger.Proofs.CommandHandler.Cycle
import IdentityLedger.Proofs.CommandHandler.SharedLog
import IdentityLedger.Proofs.CommandHandler.Written
import IdentityLedger.Proofs.Projection.Backlog
import IdentityLedger.Proofs.Projection.Runner
import IdentityLedger.Proofs.Projection.Delivery
import IdentityLedger.Proofs.ReadModel.Rows
import IdentityLedger.Proofs.Projection.Profiles
import IdentityLedger.Proofs.Projection.Outbox
import IdentityLedger.Proofs.Projection.CatchUp
import IdentityLedger.Proofs.Projection.Convergence
import IdentityLedger.Proofs.Engine.ReadModel
import IdentityLedger.Proofs.EventStore.Integrity
import IdentityLedger.Proofs.CommandHandler.Uncontended
import IdentityLedger.Proofs.Engine.SingleActive
import IdentityLedger.Proofs.Projection.DeliveryOrder
import IdentityLedger.Proofs.ReadModel.Repeats
import IdentityLedger.Proofs.Projection.UnreliableCursors
import IdentityLedger.Proofs.CommandHandler.Plan
import IdentityLedger.Proofs.CommandHandler.Race
import IdentityLedger.Proofs.CommandHandler.Coherence
import IdentityLedger.Proofs.Projection.Rebuild
import IdentityLedger.Proofs.Projection.Queue
import IdentityLedger.Proofs.Projection.Conservation
import IdentityLedger.Proofs.Records
import IdentityLedger.Proofs.Projection.LossyRebuild
import IdentityLedger.Proofs.Projection.Hearing
import IdentityLedger.Proofs.EventStore.Publishing
import IdentityLedger.Proofs.Pool
import IdentityLedger.Proofs.CommandHandler.Guided
import IdentityLedger.Proofs.Engine.Pipeline
import IdentityLedger.Proofs.Engine.Plan
import IdentityLedger.Proofs.Engine.Promise
import IdentityLedger.Proofs.Engine.Promised
import IdentityLedger.Proofs.Engine.Concurrent
import IdentityLedger.Proofs.Profile.Lifecycle
import IdentityLedger.Proofs.Profile.Established
import IdentityLedger.Proofs.Profile.Verification
import IdentityLedger.Proofs.Profile.Recovery
import IdentityLedger.Proofs.Engine.Effect
import IdentityLedger.Proofs.CommandHandler.Commit
import IdentityLedger.Proofs.CommandHandler.Retries
import IdentityLedger.Proofs.Projection.Healing
import IdentityLedger.Proofs.Projection.Gaps
import IdentityLedger.Proofs.Bus
import IdentityLedger.Proofs.Projection.Independence
import IdentityLedger.Proofs.Projection.Mirrors
import IdentityLedger.Proofs.Projection.Retries
import IdentityLedger.Proofs.Projection.Attempts
import IdentityLedger.Proofs.Projection.Tally
import IdentityLedger.Proofs.Projection.Merges
import IdentityLedger.Proofs.Worker
import IdentityLedger.Proofs.Broadcast
import IdentityLedger.Proofs.Config.Retry
