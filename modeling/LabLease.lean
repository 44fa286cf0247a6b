import LabLease.Client.Agent
import LabLease.Client.Driver
import LabLease.Client.Exchange
import LabLease.Client.Link
import LabLease.Client.Replica
import LabLease.Client.Session
import LabLease.Client.Settings
import LabLease.Command.Grammar
import LabLease.Command.Invocation
import LabLease.Command.Report
import LabLease.Command.Word
import LabLease.Config
import LabLease.Coordinator.Action
import LabLease.Coordinator.Hub
import LabLease.Coordinator.Journal
import LabLease.Coordinator.Mailbox
import LabLease.Coordinator.Settings
import LabLease.Coordinator.State
import LabLease.Coordinator.Sweep
import LabLease.Exporter.Session
import LabLease.Exporter.Settings
import LabLease.Json.Numeral
import LabLease.Json.Part
import LabLease.Json.Tree
import LabLease.Json.Value
import LabLease.Json.Writer
import LabLease.Lease.Event
import LabLease.Lease.Place
import LabLease.Lease.Request
import LabLease.Lease.Reservation
import LabLease.Main
import LabLease.Number.Binary64
import LabLease.Number.Shortest
import LabLease.Number.Whole
import LabLease.Program.Coordinator
import LabLease.Program.Effect
import LabLease.Program.Errand
import LabLease.Program.Exporter
import LabLease.Program.Run
import LabLease.Proofs.Client.Agent
import LabLease.Proofs.Client.Batches
import LabLease.Proofs.Client.Driver
import LabLease.Proofs.Client.Leftovers
import LabLease.Proofs.Client.Link
import LabLease.Proofs.Client.Replica
import LabLease.Proofs.Client.Resumption
import LabLease.Proofs.Conversation
import LabLease.Proofs.Coordinator.Announcement
import LabLease.Proofs.Coordinator.Atomicity
import LabLease.Proofs.Coordinator.Cascade
import LabLease.Proofs.Coordinator.Content
import LabLease.Proofs.Coordinator.Course
import LabLease.Proofs.Coordinator.Delivery
import LabLease.Proofs.Coordinator.Emission
import LabLease.Proofs.Coordinator.Eviction
import LabLease.Proofs.Coordinator.Farewells
import LabLease.Proofs.Coordinator.Grace
import LabLease.Proofs.Coordinator.Grant
import LabLease.Proofs.Coordinator.Idleness
import LabLease.Proofs.Coordinator.Journal
import LabLease.Proofs.Coordinator.Lapse
import LabLease.Proofs.Coordinator.Latecomers
import LabLease.Proofs.Coordinator.Leasing
import LabLease.Proofs.Coordinator.LifeCycle
import LabLease.Proofs.Coordinator.Lifetime
import LabLease.Proofs.Coordinator.Log
import LabLease.Proofs.Coordinator.Mailbox
import LabLease.Proofs.Coordinator.Move
import LabLease.Proofs.Coordinator.Naming
import LabLease.Proofs.Coordinator.Offers
import LabLease.Proofs.Coordinator.Operations
import LabLease.Proofs.Coordinator.Orphans
import LabLease.Proofs.Coordinator.Outcome
import LabLease.Proofs.Coordinator.Ownership
import LabLease.Proofs.Coordinator.Presence
import LabLease.Proofs.Coordinator.Publication
import LabLease.Proofs.Coordinator.Reports
import LabLease.Proofs.Coordinator.Retention
import LabLease.Proofs.Coordinator.Run
import LabLease.Proofs.Coordinator.Seat
import LabLease.Proofs.Coordinator.Soundness
import LabLease.Proofs.Coordinator.Stream
import LabLease.Proofs.Coordinator.Subscription
import LabLease.Proofs.Coordinator.Teardown
import LabLease.Proofs.Coordinator.Tenure
import LabLease.Proofs.Coordinator.Timers
import LabLease.Proofs.Coordinator.Trail
import LabLease.Proofs.Coordinator.Turn
import LabLease.Proofs.Coordinator.Versions
import LabLease.Proofs.Exporter.Session
import LabLease.Proofs.Json.Balance
import LabLease.Proofs.Json.Part
import LabLease.Proofs.Json.Value
import LabLease.Proofs.Json.Writer
import LabLease.Proofs.Number.Digits
import LabLease.Proofs.Number.Shortest
import LabLease.Proofs.Refusal
import LabLease.Proofs.Registry.Allotment
import LabLease.Proofs.Registry.Assignment
import LabLease.Proofs.Registry.Attendance
import LabLease.Proofs.Registry.Belongings
import LabLease.Proofs.Registry.Binding
import LabLease.Proofs.Registry.Content
import LabLease.Proofs.Registry.Descent
import LabLease.Proofs.Registry.Inventory
import LabLease.Proofs.Registry.Lease
import LabLease.Proofs.Registry.Lifetime
import LabLease.Proofs.Registry.Places
import LabLease.Proofs.Registry.Precedence
import LabLease.Proofs.Registry.Publication
import LabLease.Proofs.Registry.Queue
import LabLease.Proofs.Registry.Rank
import LabLease.Proofs.Registry.Refusals
import LabLease.Proofs.Registry.Roster
import LabLease.Proofs.Registry.Service
import LabLease.Proofs.Registry.Spell
import LabLease.Proofs.Registry.Stride
import LabLease.Proofs.Resource.Identity
import LabLease.Proofs.Resource.Parameters
import LabLease.Proofs.Resource.Pattern
import LabLease.Proofs.Resource.Text
import LabLease.Proofs.Server.Connection
import LabLease.Proofs.Server.Content
import LabLease.Proofs.Server.Switchboard
import LabLease.Proofs.Table
import LabLease.Proofs.Text.Utf8
import LabLease.Proofs.Time.Timestamp
import LabLease.Proofs.Wire.Frame
import LabLease.Proofs.Wire.Heading
import LabLease.Proofs.Wire.Lease
import LabLease.Proofs.Wire.Limits
import LabLease.Proofs.Wire.Line
import LabLease.Proofs.Wire.Oversize
import LabLease.Proofs.Wire.Reading
import LabLease.Proofs.Wire.Resource
import LabLease.Proofs.Wire.RoundTrip
import LabLease.Proofs.Wire.Splitting
import LabLease.Proofs.Wire.Stream
import LabLease.Refusal
import LabLease.Registry.Inventory
import LabLease.Registry.Places
import LabLease.Registry.Queue
import LabLease.Registry.Roster
import LabLease.Resource.Basic
import LabLease.Resource.Pattern
import LabLease.Server.Connection
import LabLease.Server.Switchboard
import LabLease.Session
import LabLease.Table
import LabLease.Text.Fields
import LabLease.Text.Glob
import LabLease.Text.Utf8
import LabLease.Time.Timestamp
import LabLease.Wire.Address
import LabLease.Wire.Frame
import LabLease.Wire.Lease
import LabLease.Wire.Line
import LabLease.Wire.Resource
import LabLease.Yaml.Cursor
import LabLease.Yaml.Node
import LabLease.Yaml.Scalar
import LabLease.Yaml.Token
import LabLease.Yaml.Typed
