import MetricRelay.Main
import MetricRelay.Proofs.Number.Digits
import MetricRelay.Proofs.Number.Rounding
import MetricRelay.Proofs.Number.Shortest
import MetricRelay.Proofs.Number.Layout
import MetricRelay.Proofs.Number.Extremes
import MetricRelay.Proofs.Number.Exponents
import MetricRelay.Proofs.Json.Strings
import MetricRelay.Proofs.Json.Tokens
import MetricRelay.Proofs.Json.Records
import MetricRelay.Proofs.Message.RoundTrip
import MetricRelay.Proofs.Message.Shapes
import MetricRelay.Proofs.Metric.Canonical
import MetricRelay.Proofs.Reading
import MetricRelay.Proofs.Store.Content
import MetricRelay.Proofs.Metric.Cells
import MetricRelay.Proofs.Store.Memory
import MetricRelay.Proofs.Store.Snapshots
import MetricRelay.Proofs.Store.Records
import MetricRelay.Proofs.Disk.Places
import MetricRelay.Proofs.Store.File
import MetricRelay.Proofs.Database.Files
import MetricRelay.Proofs.Database.Standing
import MetricRelay.Proofs.Store.Database
import MetricRelay.Proofs.Database.Reopening
import MetricRelay.Proofs.Store.Sessions
import MetricRelay.Proofs.Store.Interchange
import MetricRelay.Proofs.Store.Apart
import MetricRelay.Proofs.Store.Layers
import MetricRelay.Proofs.Store.Mirror
import MetricRelay.Proofs.Store.Healing
import MetricRelay.Proofs.Http.Board
import MetricRelay.Proofs.Message.Binding
import MetricRelay.Proofs.Service
import MetricRelay.Proofs.Service.Updates
import MetricRelay.Proofs.Text.Percent
import MetricRelay.Proofs.Http.Server
import MetricRelay.Proofs.Http.Alike
import MetricRelay.Proofs.Http.Restart
import MetricRelay.Proofs.Http.Startup
import MetricRelay.Proofs.Http.Batches
import MetricRelay.Proofs.Agent.Delivery
import MetricRelay.Proofs.Agent.Sending
import MetricRelay.Proofs.Agent.Pushes
import MetricRelay.Proofs.Message.Numerals
import MetricRelay.Proofs.Http.Numerals
import MetricRelay.Proofs.Report
import MetricRelay.Proofs.Store.Faults
import MetricRelay.Proofs.Message.Lengths
import MetricRelay.Proofs.Http.Guard
import MetricRelay.Proofs.Http.Blame
import MetricRelay.Proofs.Agent.Chunking
import MetricRelay.Proofs.Http.Reached
import MetricRelay.Proofs.Http.Reading
import MetricRelay.Proofs.Http.Names
import MetricRelay.Proofs.Store.Restorable
import MetricRelay.Proofs.Schedule
import MetricRelay.Proofs.Store.Tending
import MetricRelay.Proofs.Agent.Collecting
import MetricRelay.Proofs.Agent.Watching
import MetricRelay.Proofs.Config.Agent
import MetricRelay.Proofs.Agent.Polls
import MetricRelay.Proofs.Store.Keeping
import MetricRelay.Proofs.Message.Demands
import MetricRelay.Proofs.Config.Accepted
import MetricRelay.Proofs.Store.Wholeness
import MetricRelay.Proofs.Agent.Pushing
import MetricRelay.Proofs.Store.Running
import MetricRelay.Proofs.Store.Order
import MetricRelay.Proofs.Store.Rewriting
import MetricRelay.Proofs.Json.Locality
import MetricRelay.Proofs.Json.Parts
import MetricRelay.Proofs.Message.Lists
import MetricRelay.Proofs.Number.FreeText
import MetricRelay.Proofs.Metric.Texts
import MetricRelay.Proofs.Address.Subnets
import MetricRelay.Proofs.Metric.Changes
import MetricRelay.Proofs.Metric.Aliases
import MetricRelay.Proofs.Store.Clients
import MetricRelay.Proofs.Store.Sharing
import MetricRelay.Proofs.Json.Spelling
import MetricRelay.Proofs.Json.Grammar
import MetricRelay.Proofs.Number.Nearest
import MetricRelay.Proofs.Message.Objects
import MetricRelay.Proofs.Agent.Address
import MetricRelay.Proofs.Snapshot.Order
import MetricRelay.Proofs.Report.Page
import MetricRelay.Proofs.Snapshot.NormalForm
import MetricRelay.Proofs.Config.Strict
import MetricRelay.Proofs.Agent.Registry
import MetricRelay.Proofs.Agent.Providers
