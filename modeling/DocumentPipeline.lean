import DocumentPipeline.Lib.Program
import DocumentPipeline.Lib.Reach
import DocumentPipeline.Lib.PyText
import DocumentPipeline.Core
import DocumentPipeline.Records
import DocumentPipeline.Database
import DocumentPipeline.Redis
import DocumentPipeline.Operations
import DocumentPipeline.JobService
import DocumentPipeline.FileStorage
import DocumentPipeline.Queue
import DocumentPipeline.RetryPolicy
import DocumentPipeline.Processor
import DocumentPipeline.World
import DocumentPipeline.Effects
import DocumentPipeline.System
import DocumentPipeline.AttemptProtocol
import DocumentPipeline.RequestProtocol
import DocumentPipeline.LoopProtocol
import DocumentPipeline.Tracking
import DocumentPipeline.Sessions
import DocumentPipeline.Invariants
import DocumentPipeline.History
import DocumentPipeline.Locks
import DocumentPipeline.Lifecycle
import DocumentPipeline.Deliveries
import DocumentPipeline.CrashRecovery
import DocumentPipeline.Windows
import DocumentPipeline.Ownership
import DocumentPipeline.Events
import DocumentPipeline.Scheduling
import DocumentPipeline.Retrying
import DocumentPipeline.WorkerLoops
import DocumentPipeline.RowConsistency
import DocumentPipeline.Logging
import DocumentPipeline.FileValidation
import DocumentPipeline.UploadGate
import DocumentPipeline.ExtractionSchemas
import DocumentPipeline.OpenaiProvider
import DocumentPipeline.FakeProvider
import DocumentPipeline.StoredResults
import DocumentPipeline.Repair
import DocumentPipeline.RetryDecisions
import DocumentPipeline.TextExtraction
import DocumentPipeline.ErrorMessages
import DocumentPipeline.Lib.Reserve
import DocumentPipeline.StorageKeys
import DocumentPipeline.FilingProtocol
import DocumentPipeline.Linkage
import DocumentPipeline.Custody
import DocumentPipeline.EventAgreement
import DocumentPipeline.Filenames
import DocumentPipeline.ColumnLimits
import DocumentPipeline.Normalisation
import DocumentPipeline.TextGate
import DocumentPipeline.Backoff
import DocumentPipeline.FakeExtraction
import DocumentPipeline.LocalStorage
import DocumentPipeline.DuplicateResults
import DocumentPipeline.ConnectionUrls
import DocumentPipeline.Lib.Select
import DocumentPipeline.Pagination
import DocumentPipeline.ManualRetries
import DocumentPipeline.Revival
import DocumentPipeline.DeliveryCounts
import DocumentPipeline.Lib.Ledger
import DocumentPipeline.OrderlyRetries
import DocumentPipeline.SpendBounds
import DocumentPipeline.HonestOutcomes
import DocumentPipeline.Permanence
import DocumentPipeline.RetryBudget
import DocumentPipeline.RowWaits
import DocumentPipeline.EventIdentity
import DocumentPipeline.Acknowledgement
import DocumentPipeline.Lib.Refinement
import DocumentPipeline.JobBoard
import DocumentPipeline.SerialRows
import DocumentPipeline.Finality
import DocumentPipeline.Provenance
import DocumentPipeline.Lib.Logged
import DocumentPipeline.Startup
import DocumentPipeline.Draining
import DocumentPipeline.WorkerProcess
import DocumentPipeline.Acceptance
import DocumentPipeline.JobViews
import DocumentPipeline.PageWalks
