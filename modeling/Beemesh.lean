import Beemesh.Lib.Saturating
import Beemesh.Lib.Run
import Beemesh.Lib.Table
import Beemesh.Lib.Ledger
import Beemesh.Lib.Codec
import Beemesh.Lib.Base64
import Beemesh.Lib.Text
import Beemesh.Lib.Document
import Beemesh.Lib.Outcome
import Beemesh.Lib.Wire
import Beemesh.Lib.Window
import Beemesh.Basic
import Beemesh.Crypto.Blob
import Beemesh.Crypto.Keypair
import Beemesh.Protocol.ManifestId
import Beemesh.Resource.Verifier
import Beemesh.Resource.Accounting
import Beemesh.Resource.Admission
import Beemesh.Resource.Concurrent
import Beemesh.Envelope.Format
import Beemesh.Envelope.Nonce
import Beemesh.Envelope.Reference
import Beemesh.Envelope.Verify
import Beemesh.Envelope.Replay
import Beemesh.Node.Runtime
import Beemesh.Node.Messages
import Beemesh.Node.Handlers
import Beemesh.Node.Reference
import Beemesh.Node.System
import Beemesh.Node.Trace
import Beemesh.Node.Books
import Beemesh.Node.Holding
import Beemesh.Node.Once
import Beemesh.Node.Handshake
import Beemesh.Node.Removal
import Beemesh.Node.Deployment
import Beemesh.Node.Failure
import Beemesh.Rest.Control
import Beemesh.Rest.Attribution
import Beemesh.Rest.Candidates
import Beemesh.Rest.Backing
import Beemesh.Rest.Middleware
import Beemesh.Rest.Response
import Beemesh.Scheduler.Plan
import Beemesh.Cli.Apply
import Beemesh.Tasks.Calls
import Beemesh.Tasks.System
import Beemesh.Tasks.Reference
import Beemesh.Tasks.Ownership
import Beemesh.Tasks.Consistency
import Beemesh.Engine.Command
import Beemesh.Engine.Podman
import Beemesh.Engine.Docker
import Beemesh.Engine.Mock
import Beemesh.Engine.Found
import Beemesh.Provider.Manager
import Beemesh.Provider.Announce
import Beemesh.Provider.Lookup
import Beemesh.Workload.Manager
import Beemesh.Node.HandshakeTick
import Beemesh.Cli.Envelope
import Beemesh.Cli.Delete
import Beemesh.Workplane.Task
import Beemesh.Workplane.Scheduler
import Beemesh.Workplane.Intake
import Beemesh.Workplane.Raft
import Beemesh.Workplane.SelfHeal
import Beemesh.Envelope.Window
import Beemesh.Envelope.Extract
import Beemesh.Crypto.Recipient
import Beemesh.Provider.Announcement
import Beemesh.Engine.Naming
import Beemesh.Engine.PodRemoval
import Beemesh.Rest.Distinct
import Beemesh.Rest.RequestId
import Beemesh.Rest.Pending
import Beemesh.Engine.Identity
import Beemesh.Lib.Rotation
import Beemesh.Lib.StableSort
import Beemesh.Scheduler.Selection
import Beemesh.Scheduler.Fairness
import Beemesh.Scheduler.Load
import Beemesh.Provider.Remote
import Beemesh.Provider.Discovery
import Beemesh.Lib.Recency
import Beemesh.Provider.Recency
import Beemesh.Provider.Sightings
import Beemesh.Provider.Renewal
import Beemesh.Provider.Answers
import Beemesh.Lib.Firsts
import Beemesh.Provider.Filter
import Beemesh.Provider.Bookkeeping
import Beemesh.Provider.Limits
import Beemesh.Node.Replicas
import Beemesh.Node.Unwrapping
import Beemesh.Lib.Apportionment
import Beemesh.Lib.Sorting
import Beemesh.Rest.TaskStore
import Beemesh.Workplane.Ranking
import Beemesh.Workplane.Assignment
import Beemesh.Workplane.Proportional
import Beemesh.Workplane.Agreement
import Beemesh.Lib.Rounding
import Beemesh.Lib.Binary64
import Beemesh.Workplane.Float64
import Beemesh.Workplane.Shares
import Beemesh.Workplane.Bootstrap
import Beemesh.Lib.Pieces
import Beemesh.Workplane.Documents
import Beemesh.Lib.Interruption
import Beemesh.Workplane.Podman
import Beemesh.Workplane.Deployment
import Beemesh.Workplane.LocalShare
import Beemesh.Workplane.Streams
import Beemesh.Lib.Attempts
import Beemesh.Cli.Exchange
import Beemesh.Cli.Distribution
import Beemesh.Node.Disabled
import Beemesh.Cli.Bids
import Beemesh.Lib.Transfers
import Beemesh.Node.Substream
import Beemesh.Provider.Intervals
import Beemesh.Provider.Records
import Beemesh.Workplane.Shutdown
import Beemesh.Workplane.Infra
import Beemesh.Workplane.Agent
