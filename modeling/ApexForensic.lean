import ApexForensic.Partitions.Storage
import ApexForensic.Auth.FailedRefresh
import ApexForensic.Auth.KeyCacheLaw
import ApexForensic.Mcp.ConfirmationUses
import ApexForensic.Mcp.GrantUse
import ApexForensic.Mcp.RateLimit
import ApexForensic.Ai.PolicyRevisions
import ApexForensic.Ai.KeywordVersions
import ApexForensic.Registry.Reader
import ApexForensic.Domain.SameDocument
import ApexForensic.Timeline.CurrentSources
import ApexForensic.Timeline.Revisions
import ApexForensic.Jobs.Cancellation
import ApexForensic.Context.SnapshotRefresh
import ApexForensic.Extraction.CandidateReview
import ApexForensic.Desktop.TaskLaw
import ApexForensic.Reports.RendererLaw
import ApexForensic.Search.SafePatterns
import ApexForensic.Evidence.HashJobLaw
import ApexForensic.Ai.ExecutionLaw
import ApexForensic.Carving.Windows
import ApexForensic.Partitions.ExtendedChain
import ApexForensic.Carving.Probing
import ApexForensic.FreeSpace.Truncation
import ApexForensic.Registry.CarvingCoverage
import ApexForensic.Ai.LiveRequests
import ApexForensic.Recovery.Exactness
import ApexForensic.Reports.AuditChain
import ApexForensic.Reports.OutputReferences
import ApexForensic.Search.ExactQueries
import ApexForensic.Context.RawReads
import ApexForensic.Reports.DraftIngest
import ApexForensic.Reports.StoreHistory
import ApexForensic.Media.Inspection
import ApexForensic.EventLog.Records
import ApexForensic.Prefetch.Totality
import ApexForensic.FileSystem.Slack
import ApexForensic.Mcp.BudgetWindows
import ApexForensic.Artifacts.Pagination
import ApexForensic.Media.BoxWalk
import ApexForensic.Media.ScanData
import ApexForensic.Desktop.JournalLaw
