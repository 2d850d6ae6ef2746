import ServiceBalancer.Agenda
import ServiceBalancer.Api.Address
import ServiceBalancer.Api.Phrase
import ServiceBalancer.Api.Request
import ServiceBalancer.Backoff
import ServiceBalancer.Cache
import ServiceBalancer.Change
import ServiceBalancer.Cloud.Balancer
import ServiceBalancer.Cloud.Error
import ServiceBalancer.Cloud.Identity
import ServiceBalancer.Cloud.Memory
import ServiceBalancer.Cloud.Tags
import ServiceBalancer.Cluster.Delta
import ServiceBalancer.Cluster.Memory
import ServiceBalancer.Cluster.Readiness
import ServiceBalancer.Cluster.Reflector
import ServiceBalancer.Cluster.Remote
import ServiceBalancer.Cluster.StatusWrite
import ServiceBalancer.Cluster.Watch
import ServiceBalancer.CommandLine
import ServiceBalancer.Controller
import ServiceBalancer.Digest
import ServiceBalancer.Duration
import ServiceBalancer.Eligibility
import ServiceBalancer.Error
import ServiceBalancer.Event
import ServiceBalancer.Event.Post
import ServiceBalancer.Fingerprint
import ServiceBalancer.Health
import ServiceBalancer.Json
import ServiceBalancer.Leadership.Claim
import ServiceBalancer.Leadership.Elector
import ServiceBalancer.Leadership.Identity
import ServiceBalancer.Leadership.LossWatch
import ServiceBalancer.Main
import ServiceBalancer.Metrics
import ServiceBalancer.Network.SocketAddress
import ServiceBalancer.Number.Binary64
import ServiceBalancer.Number.Shortest
import ServiceBalancer.Object.Endpoints
import ServiceBalancer.Object.Identity
import ServiceBalancer.Object.Lease
import ServiceBalancer.Object.Meta
import ServiceBalancer.Object.Node
import ServiceBalancer.Object.Reference
import ServiceBalancer.Object.Service
import ServiceBalancer.Object.ServiceJson
import ServiceBalancer.Program
import ServiceBalancer.Proofs.Backoff.Floor
import ServiceBalancer.Proofs.Backoff.History
import ServiceBalancer.Proofs.Cloud.Calls
import ServiceBalancer.Proofs.Cloud.Ensuring
import ServiceBalancer.Proofs.Cloud.Holdings
import ServiceBalancer.Proofs.Cloud.Identities
import ServiceBalancer.Proofs.Cloud.Messages
import ServiceBalancer.Proofs.Cloud.Names
import ServiceBalancer.Proofs.Cloud.Namesakes
import ServiceBalancer.Proofs.Cloud.Order
import ServiceBalancer.Proofs.Cloud.Pushes
import ServiceBalancer.Proofs.Cloud.Seeded
import ServiceBalancer.Proofs.Cloud.Tags
import ServiceBalancer.Proofs.Cloud.Writes
import ServiceBalancer.Proofs.Cluster.Keyed
import ServiceBalancer.Proofs.Cluster.Mirror
import ServiceBalancer.Proofs.Data.SortedMap
import ServiceBalancer.Proofs.Duration.Scaling
import ServiceBalancer.Proofs.Interleaving.Attention
import ServiceBalancer.Proofs.Interleaving.Clearance
import ServiceBalancer.Proofs.Interleaving.Engine
import ServiceBalancer.Proofs.Interleaving.Isolation
import ServiceBalancer.Proofs.Interleaving.Lifecycle
import ServiceBalancer.Proofs.Interleaving.Live
import ServiceBalancer.Proofs.Interleaving.NodeChanges
import ServiceBalancer.Proofs.Interleaving.Operation
import ServiceBalancer.Proofs.Interleaving.OptingOut
import ServiceBalancer.Proofs.Interleaving.Order
import ServiceBalancer.Proofs.Interleaving.Scene
import ServiceBalancer.Proofs.Interleaving.Staffing
import ServiceBalancer.Proofs.Interleaving.StaleMarks
import ServiceBalancer.Proofs.Interleaving.Tombstones
import ServiceBalancer.Proofs.Interleaving.Turns
import ServiceBalancer.Proofs.Json.Members
import ServiceBalancer.Proofs.Json.MergePatch
import ServiceBalancer.Proofs.Json.Reading
import ServiceBalancer.Proofs.Json.Text
import ServiceBalancer.Proofs.Leadership.Claims
import ServiceBalancer.Proofs.Leadership.Contest
import ServiceBalancer.Proofs.Leadership.Lookout
import ServiceBalancer.Proofs.Leadership.Registry
import ServiceBalancer.Proofs.Number.Arithmetic
import ServiceBalancer.Proofs.Number.Comparison
import ServiceBalancer.Proofs.Number.Reading
import ServiceBalancer.Proofs.Number.Rounding
import ServiceBalancer.Proofs.Object.Core
import ServiceBalancer.Proofs.Object.Reading
import ServiceBalancer.Proofs.Program.Amid
import ServiceBalancer.Proofs.Program.Attempts
import ServiceBalancer.Proofs.Program.Protocol
import ServiceBalancer.Proofs.Program.Retrying
import ServiceBalancer.Proofs.Queue.Custody
import ServiceBalancer.Proofs.Queue.Deadlines
import ServiceBalancer.Proofs.Queue.Demand
import ServiceBalancer.Proofs.Queue.HandoutOrder
import ServiceBalancer.Proofs.Queue.Orderly
import ServiceBalancer.Proofs.Queue.Signals
import ServiceBalancer.Proofs.Queue.Timers
import ServiceBalancer.Proofs.Queue.Wakeups
import ServiceBalancer.Proofs.Remote.Calls
import ServiceBalancer.Proofs.Remote.Departure
import ServiceBalancer.Proofs.Remote.StatusWrites
import ServiceBalancer.Proofs.Routing
import ServiceBalancer.Proofs.Routing.NodeUpdates
import ServiceBalancer.Proofs.Routing.ServiceUpdates
import ServiceBalancer.Proofs.Settings.Precedence
import ServiceBalancer.Proofs.Simulation.Backing
import ServiceBalancer.Proofs.Simulation.Backoffs
import ServiceBalancer.Proofs.Simulation.CacheChanges
import ServiceBalancer.Proofs.Simulation.Calls
import ServiceBalancer.Proofs.Simulation.ClockLimit
import ServiceBalancer.Proofs.Simulation.CloudChanges
import ServiceBalancer.Proofs.Simulation.Convergence
import ServiceBalancer.Proofs.Simulation.Deletion
import ServiceBalancer.Proofs.Simulation.EventRecord
import ServiceBalancer.Proofs.Simulation.Exchange
import ServiceBalancer.Proofs.Simulation.Execution
import ServiceBalancer.Proofs.Simulation.Outcomes
import ServiceBalancer.Proofs.Simulation.OwnWrites
import ServiceBalancer.Proofs.Simulation.Readiness
import ServiceBalancer.Proofs.Simulation.Reading
import ServiceBalancer.Proofs.Simulation.Recreation
import ServiceBalancer.Proofs.Simulation.Repetition
import ServiceBalancer.Proofs.Simulation.Retargeting
import ServiceBalancer.Proofs.Simulation.Returning
import ServiceBalancer.Proofs.Simulation.Solo
import ServiceBalancer.Proofs.Simulation.Teardown
import ServiceBalancer.Proofs.Simulation.Throttling
import ServiceBalancer.Proofs.Sync.Account
import ServiceBalancer.Proofs.Sync.Announcements
import ServiceBalancer.Proofs.Sync.Conduct
import ServiceBalancer.Proofs.Sync.Course
import ServiceBalancer.Proofs.Sync.Failures
import ServiceBalancer.Proofs.Sync.Fingerprint
import ServiceBalancer.Proofs.Sync.Parts
import ServiceBalancer.Proofs.Sync.Publication
import ServiceBalancer.Proofs.Text.Blank
import ServiceBalancer.Proofs.Text.Hex
import ServiceBalancer.Proofs.Text.Lines
import ServiceBalancer.Proofs.Timestamp
import ServiceBalancer.Queue.Signal
import ServiceBalancer.Queue.Timed
import ServiceBalancer.Queue.WorkQueue
import ServiceBalancer.Retry
import ServiceBalancer.Routing
import ServiceBalancer.ServiceKey
import ServiceBalancer.Settings
import ServiceBalancer.Settings.File
import ServiceBalancer.Settings.Overlay
import ServiceBalancer.Simulation.DeltaText
import ServiceBalancer.Simulation.Election
import ServiceBalancer.Simulation.Journal
import ServiceBalancer.Simulation.QueueTrial
import ServiceBalancer.Simulation.RemoteSite
import ServiceBalancer.Simulation.RetryTrial
import ServiceBalancer.Simulation.ScriptedServer
import ServiceBalancer.Simulation.Site
import ServiceBalancer.Simulation.Timeline
import ServiceBalancer.Simulation.World
import ServiceBalancer.SortedMap
import ServiceBalancer.Sync
import ServiceBalancer.Telemetry
import ServiceBalancer.Text.Blank
import ServiceBalancer.Text.Hidden
import ServiceBalancer.Text.Lines
import ServiceBalancer.Text.Quoted
import ServiceBalancer.Text.Reader
import ServiceBalancer.Timestamp
import ServiceBalancer.Toml.Document
import ServiceBalancer.Toml.Draft
import ServiceBalancer.Toml.Scalar
import ServiceBalancer.Toml.Value
import ServiceBalancer.WellKnown
import ServiceBalancer.Worker
