import NotificationLedger.Foundation.Run
import NotificationLedger.Foundation.Table
import NotificationLedger.Foundation.Outcome
import NotificationLedger.Foundation.Json
import NotificationLedger.Foundation.Sha256
import NotificationLedger.Text
import NotificationLedger.Domain
import NotificationLedger.Contracts
import NotificationLedger.Ledger
import NotificationLedger.Snapshot
import NotificationLedger.Events
import NotificationLedger.Runtime
import NotificationLedger.Repository
import NotificationLedger.Public
import NotificationLedger.Plugin
import NotificationLedger.Effects
import NotificationLedger.Transactions
import NotificationLedger.Growth
import NotificationLedger.Course
import NotificationLedger.Refinement
import NotificationLedger.System
import NotificationLedger.Interleaving
import NotificationLedger.Admission
import NotificationLedger.Receipts
import NotificationLedger.Workers
import NotificationLedger.Deployment
import NotificationLedger.Terminal
import NotificationLedger.AttemptLog
import NotificationLedger.NoRepeat
import NotificationLedger.Resolution
import NotificationLedger.Observations
import NotificationLedger.Replay
import NotificationLedger.Agreement
import NotificationLedger.Scoping
import NotificationLedger.Columns
import NotificationLedger.Revisions
import NotificationLedger.Cancellation
import NotificationLedger.Evidence
import NotificationLedger.Queue
import NotificationLedger.Projection
import NotificationLedger.Retries
import NotificationLedger.Answers
import NotificationLedger.Rows
import NotificationLedger.Intents
import NotificationLedger.Creation
import NotificationLedger.Requests
import NotificationLedger.Idempotency
import NotificationLedger.Acknowledgement
import NotificationLedger.Commutation
import NotificationLedger.Presentation
import NotificationLedger.Timeliness
import NotificationLedger.Boundary
import NotificationLedger.Replayability
import NotificationLedger.Persistence
import NotificationLedger.Protection
import NotificationLedger.Sending
import NotificationLedger.Releases
import NotificationLedger.Backoff
import NotificationLedger.Foundation.Paging
import NotificationLedger.Isolation
import NotificationLedger.Pages
import NotificationLedger.Details
import NotificationLedger.Redaction
import NotificationLedger.Concealment
import NotificationLedger.Foundation.Framing
import NotificationLedger.ContentDigest
import NotificationLedger.Transitions
import NotificationLedger.WriteOnce
import NotificationLedger.Foundation.Utf8
import NotificationLedger.Operator
import NotificationLedger.Scanning
import NotificationLedger.Renaming
import NotificationLedger.Lexing
import NotificationLedger.Qualifying
import NotificationLedger.Eligibility
import NotificationLedger.Crash
import NotificationLedger.Linearization
import NotificationLedger.Locks
import NotificationLedger.Foundation.Progress
import NotificationLedger.Progress
import NotificationLedger.Fingerprint
import NotificationLedger.Overtaking
import NotificationLedger.Rendering
import NotificationLedger.Foundation.Stutter
import NotificationLedger.Authority
import NotificationLedger.AgentTools
import NotificationLedger.Agents
import NotificationLedger.Console
import NotificationLedger.Configuration
