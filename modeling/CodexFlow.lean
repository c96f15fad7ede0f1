import CodexFlow.Capsule.Acyclic
import CodexFlow.Capsule.Codec
import CodexFlow.Capsule.Graph
import CodexFlow.Capsule.JsonRoundTrip
import CodexFlow.Capsule.JsonText
import CodexFlow.Capsule.Ownership
import CodexFlow.Capsule.Persistence
import CodexFlow.Capsule.Plans
import CodexFlow.Capsule.RoundTrip
import CodexFlow.Capsule.TextSize
import CodexFlow.Capsule.Types
import CodexFlow.Capsule.Value
import CodexFlow.Contracts.Bundles
import CodexFlow.Contracts.ControllerActions
import CodexFlow.Contracts.Envelopes
import CodexFlow.Contracts.Fields
import CodexFlow.Contracts.Plugins
import CodexFlow.Contracts.ProgramActions
import CodexFlow.Contracts.Results
import CodexFlow.Contracts.Reviews
import CodexFlow.Control.Client
import CodexFlow.Control.Listing
import CodexFlow.Control.Outcomes
import CodexFlow.Control.Paging
import CodexFlow.Executions.Boundary
import CodexFlow.Executions.Calls
import CodexFlow.Executions.Controller
import CodexFlow.Executions.Crashes
import CodexFlow.Executions.Finish
import CodexFlow.Executions.Leases
import CodexFlow.Executions.Marks
import CodexFlow.Executions.Once
import CodexFlow.Executions.Outcomes
import CodexFlow.Executions.Requests
import CodexFlow.Executions.Restarts
import CodexFlow.Executions.Rows
import CodexFlow.Executions.Steps
import CodexFlow.Executions.System
import CodexFlow.Executions.Validate
import CodexFlow.Git.Digests
import CodexFlow.Git.ExactlyOnce
import CodexFlow.Git.Faithful
import CodexFlow.Git.History
import CodexFlow.Git.Integration
import CodexFlow.Git.Ownership
import CodexFlow.Git.Paths
import CodexFlow.Git.Signatures
import CodexFlow.Hook.CreateRepair
import CodexFlow.Hook.Effects
import CodexFlow.Hook.Events
import CodexFlow.Hook.Fingerprints
import CodexFlow.Hook.Json
import CodexFlow.Hook.Ownership
import CodexFlow.Hook.Payload
import CodexFlow.Hook.Phase
import CodexFlow.Hook.Reconcile
import CodexFlow.Hook.Snapshot
import CodexFlow.Hook.State
import CodexFlow.Hook.Verdict
import CodexFlow.Ipc.Frames
import CodexFlow.Ipc.Sizes
import CodexFlow.Ipc.Submit
import CodexFlow.Ipc.Utf8
import CodexFlow.Ledger.Accounting
import CodexFlow.Ledger.Action
import CodexFlow.Ledger.Attention
import CodexFlow.Ledger.Authority
import CodexFlow.Ledger.Bundle
import CodexFlow.Ledger.Cancellation
import CodexFlow.Ledger.Captured
import CodexFlow.Ledger.Checkpoints
import CodexFlow.Ledger.CommandRows
import CodexFlow.Ledger.Commands
import CodexFlow.Ledger.Controller
import CodexFlow.Ledger.Decision
import CodexFlow.Ledger.DecisionCalls
import CodexFlow.Ledger.DecisionFacts
import CodexFlow.Ledger.DecisionHistory
import CodexFlow.Ledger.DecisionRuns
import CodexFlow.Ledger.DecisionSteps
import CodexFlow.Ledger.Delivery
import CodexFlow.Ledger.DiagnosticStream
import CodexFlow.Ledger.Diagnostics
import CodexFlow.Ledger.Enqueues
import CodexFlow.Ledger.Epochs
import CodexFlow.Ledger.Exit
import CodexFlow.Ledger.Fencing
import CodexFlow.Ledger.Gates
import CodexFlow.Ledger.Generations
import CodexFlow.Ledger.Identities
import CodexFlow.Ledger.Inspections
import CodexFlow.Ledger.Launches
import CodexFlow.Ledger.Life
import CodexFlow.Ledger.Moves
import CodexFlow.Ledger.Outcome
import CodexFlow.Ledger.Paid
import CodexFlow.Ledger.ProgramDecisions
import CodexFlow.Ledger.ProgramWrites
import CodexFlow.Ledger.Queue
import CodexFlow.Ledger.Reaping
import CodexFlow.Ledger.Receipts
import CodexFlow.Ledger.Recovery
import CodexFlow.Ledger.Refine
import CodexFlow.Ledger.RefineRecovery
import CodexFlow.Ledger.RefineResult
import CodexFlow.Ledger.RefineRetry
import CodexFlow.Ledger.Replay
import CodexFlow.Ledger.Result
import CodexFlow.Ledger.Retry
import CodexFlow.Ledger.RetryEntries
import CodexFlow.Ledger.Rows
import CodexFlow.Ledger.Simulation
import CodexFlow.Ledger.Submit
import CodexFlow.Ledger.System
import CodexFlow.Ledger.Transactions
import CodexFlow.Ledger.Types
import CodexFlow.Ledger.Validate
import CodexFlow.Ledger.WakeOutcomes
import CodexFlow.Ledger.Wakes
import CodexFlow.Ledger.Withdrawn
import CodexFlow.Ledger.Work
import CodexFlow.Ledger.Worker
import CodexFlow.Ledger.Writers
import CodexFlow.Lib.Built
import CodexFlow.Lib.Checked
import CodexFlow.Lib.Cursor
import CodexFlow.Lib.Dag
import CodexFlow.Lib.Journal
import CodexFlow.Lib.LastMatch
import CodexFlow.Lib.Marks
import CodexFlow.Lib.Pieces
import CodexFlow.Lib.Raises
import CodexFlow.Lib.Raising
import CodexFlow.Lib.Reach
import CodexFlow.Lib.Replacing
import CodexFlow.Lib.Run
import CodexFlow.Lib.Scripted
import CodexFlow.Lib.Table
import CodexFlow.Lib.Traversal
import CodexFlow.Lib.Waiting
import CodexFlow.Lib.Window
import CodexFlow.Lib.Words
import CodexFlow.Native.Confinement
import CodexFlow.Native.Symlinks
import CodexFlow.Plugins.Bundle
import CodexFlow.Plugins.Paths
import CodexFlow.Plugins.Pins
import CodexFlow.Programs.Actions
import CodexFlow.Programs.Bounds
import CodexFlow.Programs.Calls
import CodexFlow.Programs.Currency
import CodexFlow.Programs.Effects
import CodexFlow.Programs.Events
import CodexFlow.Programs.Evidence
import CodexFlow.Programs.Facts
import CodexFlow.Programs.Frames
import CodexFlow.Programs.Outbox
import CodexFlow.Programs.Projection
import CodexFlow.Programs.Readable
import CodexFlow.Programs.Readiness
import CodexFlow.Programs.Results
import CodexFlow.Programs.ReviewPhases
import CodexFlow.Programs.Reviews
import CodexFlow.Programs.Revisions
import CodexFlow.Programs.Rows
import CodexFlow.Programs.Runs
import CodexFlow.Programs.Sizes
import CodexFlow.Programs.Stages
import CodexFlow.Programs.Starts
import CodexFlow.Programs.Status
import CodexFlow.Programs.Steps
import CodexFlow.Programs.System
import CodexFlow.Programs.Transitions
import CodexFlow.Programs.Trunk
import CodexFlow.Programs.Types
import CodexFlow.Redaction.Stable
import CodexFlow.Review.Authorities
import CodexFlow.Review.Endings
import CodexFlow.Review.MultiAuthority
import CodexFlow.Review.Session
import CodexFlow.Review.SingleReviewer
import CodexFlow.Review.Soundness
import CodexFlow.Review.Types
import CodexFlow.Review.Workflow
import CodexFlow.Schema.Accepted
import CodexFlow.Schema.Contract
import CodexFlow.Schema.Draft
import CodexFlow.Schema.Escapes
import CodexFlow.Schema.Instances
import CodexFlow.Schema.Measure
import CodexFlow.Schema.Multiples
import CodexFlow.Schema.Nodes
import CodexFlow.Schema.Objects
import CodexFlow.Schema.Plain
import CodexFlow.Schema.Soundness
import CodexFlow.Schema.Totality
import CodexFlow.Schema.Values
import CodexFlow.Service.Refresh
import CodexFlow.Service.Starts
