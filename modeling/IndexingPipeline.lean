import IndexingPipeline.Action.Basic
import IndexingPipeline.Action.Progress
import IndexingPipeline.Action.Report
import IndexingPipeline.Chunk.Basic
import IndexingPipeline.Chunk.Split
import IndexingPipeline.Clock
import IndexingPipeline.Command
import IndexingPipeline.Config.Basic
import IndexingPipeline.Config.Reader
import IndexingPipeline.Database
import IndexingPipeline.Digest.Base64
import IndexingPipeline.Digest.Sha256
import IndexingPipeline.Document
import IndexingPipeline.Embedding.Basic
import IndexingPipeline.Embedding.Remote
import IndexingPipeline.Exchange.Basic
import IndexingPipeline.Exchange.Url
import IndexingPipeline.Export
import IndexingPipeline.Failure
import IndexingPipeline.Identifier
import IndexingPipeline.Json.Record
import IndexingPipeline.Json.Text
import IndexingPipeline.Json.Tree
import IndexingPipeline.Json.Value
import IndexingPipeline.Layout
import IndexingPipeline.Lock
import IndexingPipeline.Main
import IndexingPipeline.Number.Binary
import IndexingPipeline.Number.Shortest
import IndexingPipeline.Point.Basic
import IndexingPipeline.Point.Gateway
import IndexingPipeline.Point.Memory
import IndexingPipeline.Point.Payload
import IndexingPipeline.Policy.Basic
import IndexingPipeline.Policy.Credentials
import IndexingPipeline.Policy.Readiness
import IndexingPipeline.Policy.Usage
import IndexingPipeline.Queue
import IndexingPipeline.Revision
import IndexingPipeline.Run.Basic
import IndexingPipeline.Run.Step
import IndexingPipeline.Sweep
import IndexingPipeline.Template.Filter
import IndexingPipeline.Template.Program
import IndexingPipeline.Template.Render
import IndexingPipeline.Template.Token
import IndexingPipeline.Template.Value
import IndexingPipeline.Text.Blank
import IndexingPipeline.Text.Case
import IndexingPipeline.Text.Quoted
import IndexingPipeline.Token.Cache
import IndexingPipeline.Token.Service
import IndexingPipeline.Token.Sweeper
import IndexingPipeline.Toml.Document
import IndexingPipeline.Toml.Term
import IndexingPipeline.Words
import IndexingPipeline.Worker
import IndexingPipeline.World
import IndexingPipeline.Proofs.Index
import IndexingPipeline.Proofs.Outcome
import IndexingPipeline.Proofs.Schedule
import IndexingPipeline.Proofs.Switchover
import IndexingPipeline.Proofs.Writer
import IndexingPipeline.Proofs.Lifecycle
import IndexingPipeline.Proofs.Fence
import IndexingPipeline.Proofs.Sweeping
import IndexingPipeline.Proofs.Calls
import IndexingPipeline.Proofs.Stock
import IndexingPipeline.Proofs.Edition
import IndexingPipeline.Proofs.Docket
import IndexingPipeline.Proofs.Course
import IndexingPipeline.Proofs.History
import IndexingPipeline.Proofs.Label
import IndexingPipeline.Proofs.Ledger
import IndexingPipeline.Proofs.Marker
import IndexingPipeline.Proofs.Content
import IndexingPipeline.Proofs.Reindex
import IndexingPipeline.Proofs.Actions
import IndexingPipeline.Proofs.Chronicle
import IndexingPipeline.Proofs.Recount
import IndexingPipeline.Proofs.Incidents
import IndexingPipeline.Proofs.Notice
import IndexingPipeline.Proofs.Rulings
import IndexingPipeline.Proofs.Governance
import IndexingPipeline.Proofs.Exclusion
import IndexingPipeline.Proofs.Rows
import IndexingPipeline.Proofs.Failures
import IndexingPipeline.Proofs.Retries
import IndexingPipeline.Proofs.Takeover
import IndexingPipeline.Proofs.Windows
import IndexingPipeline.Proofs.Spans
import IndexingPipeline.Proofs.Settling
import IndexingPipeline.Proofs.Faults
import IndexingPipeline.Proofs.Isolation
import IndexingPipeline.Proofs.Neighbours
import IndexingPipeline.Proofs.Draining
import IndexingPipeline.Proofs.Recovery
import IndexingPipeline.Proofs.Addressing
import IndexingPipeline.Proofs.Expiry
import IndexingPipeline.Proofs.Orphans
import IndexingPipeline.Proofs.Polling
import IndexingPipeline.Proofs.Backlog
import IndexingPipeline.Proofs.Identity
import IndexingPipeline.Proofs.Collections
import IndexingPipeline.Proofs.Answers
import IndexingPipeline.Proofs.Freshness
import IndexingPipeline.Proofs.Spelling
import IndexingPipeline.Proofs.Records
import IndexingPipeline.Proofs.Reports
import IndexingPipeline.Proofs.Visibility
import IndexingPipeline.Proofs.Grants
import IndexingPipeline.Proofs.Digests
import IndexingPipeline.Proofs.Rounding
import IndexingPipeline.Proofs.Percentages
import IndexingPipeline.Proofs.Indifference
import IndexingPipeline.Proofs.Accounts
import IndexingPipeline.Proofs.Providers
import IndexingPipeline.Proofs.Moments
