import AgenticSecurity.Api.CreateJob
import AgenticSecurity.Api.Server
import AgenticSecurity.Assertions.Atomicity
import AgenticSecurity.Assertions.History
import AgenticSecurity.Assertions.Identity
import AgenticSecurity.Changes.Context
import AgenticSecurity.Collection.Cache
import AgenticSecurity.Collection.CacheInvariant
import AgenticSecurity.Collection.Git
import AgenticSecurity.Collection.History
import AgenticSecurity.Collection.Interval
import AgenticSecurity.Collection.Live
import AgenticSecurity.Collection.Persistence
import AgenticSecurity.Collection.Retrieval
import AgenticSecurity.Contradictions.Exactness
import AgenticSecurity.Contradictions.Rules
import AgenticSecurity.Derivations
import AgenticSecurity.Derivations.Confidence
import AgenticSecurity.Editorial.Pipelines
import AgenticSecurity.Editorial.Reports
import AgenticSecurity.Editorial.Risk
import AgenticSecurity.Editorial.Status
import AgenticSecurity.Evidence.LineAnchors
import AgenticSecurity.Jobs.Drain
import AgenticSecurity.Jobs.Executions
import AgenticSecurity.Jobs.Executor
import AgenticSecurity.Jobs.Failures
import AgenticSecurity.Jobs.Fifo
import AgenticSecurity.Jobs.Idempotency
import AgenticSecurity.Jobs.Lock
import AgenticSecurity.Jobs.Reads
import AgenticSecurity.Jobs.Timestamps
import AgenticSecurity.Jobs.Worker
import AgenticSecurity.Library.Compensation
import AgenticSecurity.Library.Fifo
import AgenticSecurity.Library.FixedWidth
import AgenticSecurity.Library.Grouping
import AgenticSecurity.Library.Integrity
import AgenticSecurity.Library.Loops
import AgenticSecurity.Library.Simulation
import AgenticSecurity.Models
import AgenticSecurity.Normalization
import AgenticSecurity.Normalization.Shape
import AgenticSecurity.Publishing.Artifacts
import AgenticSecurity.Publishing.Assignments
import AgenticSecurity.Publishing.BundleOrder
import AgenticSecurity.Publishing.Containment
import AgenticSecurity.Publishing.Failures
import AgenticSecurity.Publishing.FieldNames
import AgenticSecurity.Publishing.Laundering
import AgenticSecurity.Publishing.Projection
import AgenticSecurity.Publishing.Republication
import AgenticSecurity.Publishing.Retry
import AgenticSecurity.Publishing.SecretScan
import AgenticSecurity.Python.Dict
import AgenticSecurity.Python.Html
import AgenticSecurity.Python.Matches
import AgenticSecurity.Python.Regex
import AgenticSecurity.Python.SequenceMatcher
import AgenticSecurity.Python.Text
import AgenticSecurity.Python.TimeOrder
import AgenticSecurity.Python.Words
import AgenticSecurity.Site.Accounts
import AgenticSecurity.Site.Attribution
import AgenticSecurity.Site.Changes
import AgenticSecurity.Site.Independence
import AgenticSecurity.Site.Privacy
import AgenticSecurity.Site.References
import AgenticSecurity.Site.Reports
import AgenticSecurity.Sources.Canonical
import AgenticSecurity.Sources.Rendering
import AgenticSecurity.Sources.Stability
import AgenticSecurity.Storage.ConfirmedChanges
import AgenticSecurity.Storage.Conflicts
import AgenticSecurity.Storage.CurrentTaxonomy
import AgenticSecurity.Storage.Database
import AgenticSecurity.Storage.EvidenceAnchors
import AgenticSecurity.Storage.EvidenceOrigins
import AgenticSecurity.Storage.Initialization
import AgenticSecurity.Storage.Integrity
import AgenticSecurity.Storage.LifecycleHistory
import AgenticSecurity.Storage.PacketRoundTrip
import AgenticSecurity.Storage.PreviewVelocity
import AgenticSecurity.Storage.ReviewPipeline
import AgenticSecurity.Storage.Seeding
import AgenticSecurity.Changes.Replay
