import TenantLibrary.Books.Service
import TenantLibrary.Ingestion.JobTask
import TenantLibrary.JobQueue.System
import TenantLibrary.ReadingLists.Service

/-!
The tenant's endpoints and the worker (`app/api/v1`, `app/tasks/ingestion_tasks.py`).

A request runs its handler on a fresh session; what the handler does not commit is lost.
`trigger_ingestion` enqueues the task of its job into the tenant's queue, and a worker
later runs attempts at the tasks that were enqueued. Requests follow one another: each
is served before the next one begins. The tenant of a request is the one its path names.
-/

namespace TenantLibrary.Api

open TenantLibrary.Lib TenantLibrary.OpenLibrary TenantLibrary.Store TenantLibrary.Ingestion
  TenantLibrary.Books TenantLibrary.ReadingLists TenantLibrary.JobQueue

/-! ### Schemas -/

/-- `IngestionRequest`. -/
structure IngestionBody where
  queryType : QueryType
  queryValue : String
  limit : Nat
  value_length : 1 ≤ queryValue.toList.length ∧ queryValue.toList.length ≤ 500
  limit_range : 1 ≤ limit ∧ limit ≤ 500
deriving DecidableEq

structure IngestionJobResponse where
  jobId : Uuid
  status : Status
  message : String
deriving DecidableEq, Repr

/-- `IngestionJobDetail` without its timestamps. -/
structure IngestionJobDetail where
  id : Uuid
  queryType : QueryType
  queryValue : String
  limit : Nat
  status : Status
  progress : Option Progress
  errorMessage : Option String
deriving DecidableEq, Repr

/-- `IngestionLogEntry` without its timestamps. -/
structure IngestionLogEntry where
  id : Uuid
  queryType : QueryType
  queryValue : String
  worksFetched : Nat
  worksStored : Nat
  worksFailed : Nat
  status : Status
  errorMessage : Option String
deriving DecidableEq, Repr

structure ReadingListItemOut where
  olWorkKey : Option String
  isbn : Option String
  resolved : Bool
deriving DecidableEq, Repr

/-- `ReadingListOut` without its timestamps. -/
structure ReadingListOut where
  id : Uuid
  patronNameMasked : String
  emailMasked : String
  items : List ReadingListItemOut
deriving DecidableEq, Repr

def jobDetail (job : IngestionJob) : IngestionJobDetail where
  id := job.id
  queryType := job.queryType
  queryValue := job.queryValue
  limit := job.limit
  status := job.status
  progress := job.progress
  errorMessage := job.errorMessage

def logEntry (log : IngestionLog) : IngestionLogEntry where
  id := log.id
  queryType := log.queryType
  queryValue := log.queryValue
  worksFetched := log.worksFetched
  worksStored := log.worksStored
  worksFailed := log.worksFailed
  status := log.status
  errorMessage := log.errorMessage

/-- A reading list with its items, over the item table of all tenants. -/
def readingListOut (db : Database) (rl : ReadingList) : ReadingListOut where
  id := rl.id
  patronNameMasked := rl.patronNameMasked
  emailMasked := rl.emailMasked
  items := (db.readingListItems.rows.filter (·.readingListId = rl.id)).map fun item =>
    ⟨item.olWorkKey, item.isbn, item.resolved⟩

/-! ### Handlers -/

/-- What an endpoint answers. -/
inductive Response where
  | books (response : PaginatedResponse BookSummary)
  | book (detail : BookDetail)
  | jobs (response : PaginatedResponse IngestionJobDetail)
  | job (detail : IngestionJobDetail)
  | logs (response : PaginatedResponse IngestionLogEntry)
  | readingLists (response : PaginatedResponse ReadingListOut)
  | readingList (detail : ReadingListOut)
  | ingestionQueued (response : IngestionJobResponse)
  | submitted (response : ReadingListResponse)
  /-- an attempt of the worker; nobody receives a text -/
  | attempted
  | notFound (detail : String)
  /-- the handler raised -/
  | serverError (exc : SessionError DbError Failure)
deriving DecidableEq

/-- `HTTPException(404)` where the row is missing. -/
def orNotFound {α : Type} (detail : String) (respond : α → Response) : Option α → Response
  | none => .notFound detail
  | some a => respond a

/-- A listing of the rows of a table, newest first: a count and a page. -/
def listNewestFirst {α β : Type} (params : PageParams) (rows : Database → List α)
    (out : Database → α → β) : IngestM (PaginatedResponse β) := do
  let total ← SessionM.select (Write.send Refusal.never) fun db => (rows db).length
  let items ← selectBinding params.parameters fun db =>
    (params.slice (rows db).reverse).map (out db)
  return params.respond total items

def tenantJobs (tenantId : Uuid) (db : Database) : List IngestionJob :=
  db.jobs.rows.filter fun j => j.tenantId = tenantId

def tenantLogs (tenantId : Uuid) (db : Database) : List IngestionLog :=
  db.logs.rows.filter fun l => l.tenantId = tenantId

def tenantLists (tenantId : Uuid) (db : Database) : List ReadingList :=
  db.readingLists.rows.filter fun l => l.tenantId = tenantId

/-- `list_jobs`. -/
def listJobs (tenantId : Uuid) (params : PageParams) :
    IngestM (PaginatedResponse IngestionJobDetail) :=
  listNewestFirst params (tenantJobs tenantId) fun _ => jobDetail

/-- `list_activity_log`. -/
def listActivityLog (tenantId : Uuid) (params : PageParams) :
    IngestM (PaginatedResponse IngestionLogEntry) :=
  listNewestFirst params (tenantLogs tenantId) fun _ => logEntry

/-- `list_reading_lists`. -/
def listReadingLists (tenantId : Uuid) (params : PageParams) :
    IngestM (PaginatedResponse ReadingListOut) :=
  listNewestFirst params (tenantLists tenantId) readingListOut

/-- `get_job`. -/
def getJob (tenantId jobId : Uuid) : IngestM (Option IngestionJobDetail) := do
  let rows ← SessionM.select (Write.send Refusal.never) fun db =>
    (db.jobs.rows.filter fun j => j.tenantId = tenantId && j.id = jobId).map jobDetail
  scalarOneOrNone rows

/-- `get_reading_list`. -/
def getReadingList (tenantId readingListId : Uuid) : IngestM (Option ReadingListOut) := do
  let rows ← SessionM.select (Write.send Refusal.never) fun db =>
    (db.readingLists.rows.filter fun l => l.tenantId = tenantId && l.id = readingListId).map
      (readingListOut db)
  scalarOneOrNone rows

/-- The row `trigger_ingestion` adds. -/
def IngestionBody.job (body : IngestionBody) (tenantId jobId : Uuid) : IngestionJob :=
  newJob jobId ⟨tenantId, body.queryType, body.queryValue⟩ body.limit

/-- The arguments of the task `trigger_ingestion` enqueues. -/
def IngestionBody.task (body : IngestionBody) (tenantId jobId : Uuid) : TaskArgs :=
  ⟨tenantId, jobId, body.queryType, body.queryValue⟩

/-- `trigger_ingestion` up to its commit, and its response. -/
def triggerIngestion (tenantId : Uuid) (body : IngestionBody) (jobId : Uuid) :
    IngestM IngestionJobResponse := do
  SessionM.add (.insertJob (body.job tenantId jobId))
  SessionM.commit (Write.send Refusal.never)
  return {
    jobId
    status := .queued
    message := s!"Ingestion job queued for {queryTypeText body.queryType} '{body.queryValue}'" }

/-! ### Requests -/

/-- A request of a tenant, or an attempt of the worker at one of the tenant's tasks,
with what the environment does meanwhile: the answers of Open Library and the
identifiers drawn. -/
inductive Request where
  | listBooks (filters : BookFilters) (params : PageParams)
  | getBook (bookId : Uuid)
  | triggerIngestion (body : IngestionBody) (jobId : Uuid)
  | listJobs (params : PageParams)
  | getJob (jobId : Uuid)
  | listActivityLog (params : PageParams)
  | submitReadingList (submission : Submission) (draws : SubmitDraws)
      (answers : Nat → ReferenceAnswers)
  | listReadingLists (params : PageParams)
  | getReadingList (readingListId : Uuid)
  /-- an attempt at the task enqueued at this position -/
  | ingestWorks (position : Nat) (attempt : Attempt)

structure Operation where
  tenantId : Uuid
  request : Request

/-- What is configured: `str` on exceptions, the hashing of PII, the database's locale. -/
structure Environment where
  str : SessionError DbError Failure → String
  hashing : Hashing
  collation : Collation

/-- The committed database and the tasks ever enqueued for each tenant. -/
structure Service where
  db : Database
  enqueued : Uuid → List TaskArgs

theorem Service.ext {s t : Service} (db : s.db = t.db)
    (enqueued : ∀ tenantId, s.enqueued tenantId = t.enqueued tenantId) : s = t := by
  cases s
  cases t
  obtain rfl : _ = _ := db
  obtain rfl := funext enqueued
  rfl

/-- Nothing stored, nothing enqueued. -/
def Service.empty : Service := ⟨.empty, fun _ => []⟩

/-- Append a task, if there is one, to the queue it names. -/
def Service.enqueue (s : Service) : Option TaskArgs → Service
  | none => s
  | some args =>
      { s with
        enqueued := Function.update s.enqueued args.tenantId (s.enqueued args.tenantId ++ [args]) }

@[simp] theorem Service.db_enqueue (s : Service) (task : Option TaskArgs) :
    (s.enqueue task).db = s.db := by
  cases task <;> rfl

theorem Service.enqueued_enqueue (s : Service) (args : TaskArgs) :
    (s.enqueue (some args)).enqueued args.tenantId = s.enqueued args.tenantId ++ [args] :=
  Function.update_self ..

theorem Service.enqueued_enqueue_of_ne (s : Service) {args : TaskArgs} {tenantId : Uuid}
    (other : tenantId ≠ args.tenantId) :
    (s.enqueue (some args)).enqueued tenantId = s.enqueued tenantId :=
  Function.update_of_ne other ..

/-- The program that serves a request, given the tasks enqueued for the tenant. -/
def handle (env : Environment) (tenantId : Uuid) (tasks : List TaskArgs) :
    Request → IngestM Response
  | .listBooks filters params =>
      return .books (← Books.listBooks env.collation tenantId filters params)
  | .getBook bookId => return orNotFound "Book not found" .book (← Books.getBook tenantId bookId)
  | .triggerIngestion body jobId =>
      return .ingestionQueued (← Api.triggerIngestion tenantId body jobId)
  | .listJobs params => return .jobs (← Api.listJobs tenantId params)
  | .getJob jobId => return orNotFound "Job not found" .job (← Api.getJob tenantId jobId)
  | .listActivityLog params => return .logs (← Api.listActivityLog tenantId params)
  | .submitReadingList submission draws answers =>
      return .submitted (← submit env.hashing tenantId submission draws answers)
  | .listReadingLists params => return .readingLists (← Api.listReadingLists tenantId params)
  | .getReadingList readingListId =>
      return orNotFound "Reading list not found" .readingList
        (← Api.getReadingList tenantId readingListId)
  | .ingestWorks position attempt =>
      match tasks[position]? with
      | none => return .attempted
      | some args => do
          ingestWorksAsync env.str args attempt
          return .attempted

/-- What a request enqueues once it is served. -/
def enqueues (tenantId : Uuid) : Request → Response → Option TaskArgs
  | .triggerIngestion body jobId, .ingestionQueued _ => some (body.task tenantId jobId)
  | _, _ => none

/-- The response to a request whose handler returned or raised. -/
def respond : Except (SessionError DbError Failure) Response → Response
  | .ok response => response
  | .error exc => .serverError exc

/-- Serve one request on a fresh session. -/
def serve (env : Environment) (s : Service) (op : Operation) : Response × Service :=
  let program := handle env op.tenantId (s.enqueued op.tenantId) op.request
  let ran := program.runOn (.opened s.db)
  let response := respond ran.1
  let after : Service := { s with db := ran.2.committed }
  (response, after.enqueue (enqueues op.tenantId op.request response))

end TenantLibrary.Api
