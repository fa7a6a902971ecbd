import TenantLibrary.FairQueue.Model
import TenantLibrary.FairQueue.Stranded
import TenantLibrary.FairQueue.Accounting
import TenantLibrary.FairQueue.Bypass
import TenantLibrary.Lib.Columns
import TenantLibrary.Ingestion.Service
import TenantLibrary.Ingestion.Storing
import TenantLibrary.Ingestion.Isolation
import TenantLibrary.Ingestion.JobTask
import TenantLibrary.Ingestion.Attribution
import TenantLibrary.Store.Statements
import TenantLibrary.Ingestion.Growth
import TenantLibrary.Ingestion.Reingestion
import TenantLibrary.Ingestion.Representation
import TenantLibrary.Ingestion.Enrichment
import TenantLibrary.Ingestion.Storable
import TenantLibrary.Ingestion.Completing
import TenantLibrary.ReadingLists.Pii
import TenantLibrary.ReadingLists.Service
import TenantLibrary.Lib.ReadCommitted
import TenantLibrary.ReadingLists.Replace
import TenantLibrary.JobQueue.Payload
import TenantLibrary.JobQueue.System
import TenantLibrary.JobQueue.Agreement
import TenantLibrary.Lib.Share
import TenantLibrary.Tenancy.Partition
import TenantLibrary.Tenancy.Programs
import TenantLibrary.Api.Pagination
import TenantLibrary.Books.Service
import TenantLibrary.Books.Filters
import TenantLibrary.Api.Endpoints
import TenantLibrary.Lib.Unwinding
import TenantLibrary.Tenancy.Endpoints
import TenantLibrary.Tenancy.Noninterference
import TenantLibrary.Store.Renaming
import TenantLibrary.Tenancy.Renaming
import TenantLibrary.Lib.Mirror
import TenantLibrary.ReadingLists.Resolution
import TenantLibrary.ReadingLists.Submitting
import TenantLibrary.Lib.LastWrite
import TenantLibrary.ReadingLists.LastWrite
import TenantLibrary.ReadingLists.Completion
import TenantLibrary.FairQueue.Lock
import TenantLibrary.Lib.Lease
import TenantLibrary.Lib.Counters
import TenantLibrary.RateLimit.Middleware
import TenantLibrary.RateLimit.Quota
import TenantLibrary.Api.PageTurning
import TenantLibrary.Lib.Paging
import TenantLibrary.OpenLibrary.Pacing
import TenantLibrary.ReadingLists.Cascade
import TenantLibrary.Lib.Invariant
import TenantLibrary.Api.Histories
import TenantLibrary.Api.ReadBack
import TenantLibrary.Lib.Regex
import TenantLibrary.ReadingLists.Masking
import TenantLibrary.FairQueue.Batch
import TenantLibrary.OpenLibrary.Documents
import TenantLibrary.Tenants.Creation
import TenantLibrary.OpenLibrary.Sharing
import TenantLibrary.ReadingLists.Bindings
import TenantLibrary.Api.Bindings
import TenantLibrary.Ingestion.SubjectCap
import TenantLibrary.Tenants.Slugs
import TenantLibrary.RateLimit.RetryAfter
import TenantLibrary.Lib.Json
import TenantLibrary.Lib.JsonRoundTrip
import TenantLibrary.JobQueue.Wire
import TenantLibrary.FairQueue.Waiting
import TenantLibrary.Lib.Lifetimes
import TenantLibrary.RateLimit.Outages
import TenantLibrary.Lib.UniqueInserts
import TenantLibrary.Tenants.Concurrent
import TenantLibrary.Tenants.Seeding
import TenantLibrary.Ingestion.Transactions
import TenantLibrary.Api.Upkeep
import TenantLibrary.Api.Journal
import TenantLibrary.Api.Refreshes
import TenantLibrary.Lib.Purging
import TenantLibrary.Tenancy.Gateway
import TenantLibrary.Lib.Alike
import TenantLibrary.Api.Blind
import TenantLibrary.ReadingLists.Veiling
import TenantLibrary.Api.Privacy
import TenantLibrary.Api.References
import TenantLibrary.Lib.Replacing
import TenantLibrary.ReadingLists.Concurrent
import TenantLibrary.ReadingLists.Waiting
