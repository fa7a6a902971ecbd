import TenantLibrary.Ingestion.Isolation

/-!
The ingestion task and the status of its job (`app/tasks/ingestion_tasks.py`).

An attempt runs on a fresh session: it marks the job running, ingests, and writes
the outcome to the job. When anything raises, the exception handler tries to mark
the job failed on the same session and asks Celery for a retry; after `max_retries`
retries there is no further attempt. What a session has not committed is lost when
the attempt ends.

`job_finishes_iff` says when the job is left in a terminal status: exactly when one
of the attempts meets no row the database refuses. Such an attempt ends normally
with the job completed or failed. Every other one ends with the handler running into
the failed session, and leaves the job running.
-/

namespace TenantLibrary.Ingestion

open TenantLibrary.Lib TenantLibrary.OpenLibrary TenantLibrary.Store

/-! ### The task -/

/-- What one attempt meets: what other transactions commit before it starts, the
outcomes of the search, and the identifiers drawn for it. -/
structure Attempt where
  meanwhile : Database → Database
  search : Search
  celeryTaskId : String
  logId : Uuid

/-- The arguments of the task. -/
structure TaskArgs where
  tenantId : Uuid
  jobId : Uuid
  queryType : QueryType
  queryValue : String
deriving DecidableEq, Repr

def TaskArgs.request (args : TaskArgs) (attempt : Attempt) : IngestRequest :=
  ⟨args.tenantId, args.queryType, args.queryValue, some args.jobId, attempt.logId⟩

/-- The rows with a job's id. -/
def jobRow (jobId : Uuid) (db : Database) : List IngestionJob :=
  db.jobs.rows.filter fun job => job.id = jobId

/-- The job's row: `select … where id == job_uuid` and `scalar_one`. -/
def loadJob (jobId : Uuid) : IngestM IngestionJob := do
  match ← SessionM.select (Write.send Refusal.never) (jobRow jobId) with
  | [job] => return job
  | [] => throw (.raised (.other "No row was found when one was required"))
  | _ => throw (.raised (.other "Multiple rows were found when exactly one was required"))

/-- The body of the `try`. -/
def runIngestion (str : SessionError DbError Failure → String) (args : TaskArgs)
    (attempt : Attempt) : IngestM Unit := do
  let job ← loadJob args.jobId
  SessionM.add (.updateJob
    { job with status := .running, celeryTaskId := some attempt.celeryTaskId })
  SessionM.commit (Write.send Refusal.never)
  let log ← ingest str attempt.search (args.request attempt)
  -- `session.refresh(job)`
  let job ← loadJob args.jobId
  SessionM.add (.updateJob
    { job with
      status := if log.status = .completed then .completed else .failed
      progress := some ⟨log.worksFetched, log.worksStored, log.worksFailed⟩
      errorMessage := if truthy log.errorMessage then log.errorMessage else job.errorMessage })
  SessionM.commit (Write.send Refusal.never)

/-- The body of the inner `try` of the handler. -/
def markFailed (str : SessionError DbError Failure → String) (args : TaskArgs)
    (exc : SessionError DbError Failure) : IngestM Unit := do
  let job ← loadJob args.jobId
  SessionM.add (.updateJob { job with status := .failed, errorMessage := some (errorText str exc) })
  SessionM.commit (Write.send Refusal.never)

/-- `_ingest_works_async`; the exception it ends with stands for `task.retry`. -/
def ingestWorksAsync (str : SessionError DbError Failure → String) (args : TaskArgs)
    (attempt : Attempt) : IngestM Unit :=
  tryCatch (runIngestion str args attempt) fun exc => do
    tryCatch (markFailed str args exc) fun _ => return ()
    throw exc

/-- One attempt from a committed database: whether it ended normally, and what is
committed when its session is closed. -/
def runAttempt (str : SessionError DbError Failure → String) (args : TaskArgs)
    (attempt : Attempt) (db : Database) : Bool × Database :=
  match SessionM.runOn (ingestWorksAsync str args attempt) (.opened (attempt.meanwhile db)) with
  | (.ok _, s) => (true, s.committed)
  | (.error _, s) => (false, s.committed)

/-- `max_retries`. -/
def maxRetries : Nat := 3

/-- The task with its retries: what is committed when the last attempt has ended.
`attempt n` is what the n-th attempt meets. -/
def runTask (str : SessionError DbError Failure → String) (args : TaskArgs)
    (attempt : Nat → Attempt) : Nat → Database → Database
  | 0, db => (runAttempt str args (attempt 0) db).2
  | retries + 1, db =>
      match runAttempt str args (attempt 0) db with
      | (true, after) => after
      | (false, after) => runTask str args (fun n => attempt (n + 1)) retries after

/-- `ingest_works`. -/
def ingestWorks (str : SessionError DbError Failure → String) (args : TaskArgs)
    (attempt : Nat → Attempt) (db : Database) : Database :=
  runTask str args attempt maxRetries db

/-! ### The job's row -/

/-- The job's row is there, with its status among `allowed`. -/
def JobHas (allowed : Status → Prop) (jobId : Uuid) (db : Database) : Prop :=
  ∃ job, jobRow jobId db = [job] ∧ allowed job.status

/-- The statuses a job does not leave. -/
def Terminal (status : Status) : Prop := status = .completed ∨ status = .failed

/-- Replace the row of a job. -/
def setJob (job : IngestionJob) (db : Database) : Database :=
  { db with jobs := db.jobs.modify (replaceJob job) clash_of_replaceJob }

theorem id_of_jobRow {jobId : Uuid} {db : Database} {job : IngestionJob}
    (row : jobRow jobId db = [job]) : job.id = jobId := by
  have mem : job ∈ jobRow jobId db := row ▸ List.mem_singleton_self job
  simpa using (List.mem_filter.mp mem).2

theorem jobRow_congr {db after : Database} (sameJobs : after.jobs = db.jobs) (jobId : Uuid) :
    jobRow jobId after = jobRow jobId db := by
  rw [jobRow, jobRow, sameJobs]

theorem jobRow_setJob {jobId : Uuid} {db : Database} {old job : IngestionJob}
    (row : jobRow jobId db = [old]) (same : job.id = jobId) :
    jobRow jobId (setJob job db) = [job] := by
  have oldId := id_of_jobRow row
  unfold jobRow setJob
  rw [Table.rows_modify, List.filter_map]
  have unchanged : ((fun row : IngestionJob => decide (row.id = jobId)) ∘ replaceJob job) =
      fun row => decide (row.id = jobId) := by
    funext row
    simp
  rw [unchanged, show db.jobs.rows.filter (fun row => decide (row.id = jobId)) = [old] from row]
  simp [replaceJob, oldId, same]

/-- The job's row as an attempt marks it before it ingests. -/
def markedRunning (args : TaskArgs) (attempt : Attempt) (db : Database) : Database :=
  match jobRow args.jobId db with
  | [job] => setJob { job with status := .running, celeryTaskId := some attempt.celeryTaskId } db
  | _ => db

section Attempt

open SessionM

variable (str : SessionError DbError Failure → String) (args : TaskArgs) (attempt : Attempt)

theorem runOn_loadJob {jobId : Uuid} {db : Database} {job : IngestionJob}
    (row : jobRow jobId db = [job]) :
    runOn (loadJob jobId) (.opened db) = (.ok job, .opened db) := by
  rw [loadJob, Session.opened, runOn_bind_ok (runOn_select_clean _ _ db db), row]
  rfl

theorem runOn_loadJob_failed {jobId : Uuid} {s : Session Database Write} (failed : s.failed = true) :
    runOn (loadJob jobId) s = (.error .pendingRollback, s) :=
  runOn_bind_error (runOn_select_failed _ _ s failed)

/-- Write a job's row, commit and go on. -/
theorem runOn_saveJob (job : IngestionJob) (db : Database) (next : IngestM Unit) :
    runOn (do
        SessionM.add (.updateJob job)
        SessionM.commit (Write.send Refusal.never)
        next : IngestM Unit) (.opened db) = runOn next (.opened (setJob job db)) :=
  rfl

theorem jobRow_markedRunning {db : Database} {job : IngestionJob}
    (row : jobRow args.jobId db = [job]) :
    jobRow args.jobId (markedRunning args attempt db) =
      [{ job with status := .running, celeryTaskId := some attempt.celeryTaskId }] := by
  have same := id_of_jobRow row
  unfold markedRunning
  rw [row]
  exact jobRow_setJob row same

/-- The first transaction of an attempt marks the job running. -/
theorem runOn_runIngestion {db : Database} {job : IngestionJob}
    (row : jobRow args.jobId db = [job]) :
    runOn (runIngestion str args attempt) (.opened db) =
      runOn (do
          let log ← ingest str attempt.search (args.request attempt)
          let job ← loadJob args.jobId
          SessionM.add (.updateJob
            { job with
              status := if log.status = .completed then .completed else .failed
              progress := some ⟨log.worksFetched, log.worksStored, log.worksFailed⟩
              errorMessage :=
                if truthy log.errorMessage then log.errorMessage else job.errorMessage })
          SessionM.commit (Write.send Refusal.never))
        (.opened (markedRunning args attempt db)) := by
  unfold runIngestion markedRunning
  rw [row]
  exact (runOn_bind_ok (runOn_loadJob row)).trans (runOn_saveJob _ db _)

/-- On a failed session the handler gives up without a write. -/
theorem runOn_markFailed_failed {s : Session Database Write} (failed : s.failed = true)
    (exc : SessionError DbError Failure) :
    runOn (markFailed str args exc) s = (.error .pendingRollback, s) :=
  runOn_bind_error (runOn_loadJob_failed failed)

/-- The ingestion of an attempt ends normally: its log's id is new, and either the
search fails or the database refuses no row of what it found. -/
def Accepted (db : Database) : Prop :=
  (∀ log ∈ db.logs.rows, log.id ≠ attempt.logId) ∧
    match attempt.search.run args.queryType with
    | .error _ => True
    | .ok works => NoRefusal args.tenantId works db.catalog

instance (db : Database) : Decidable (Accepted args attempt db) :=
  @instDecidableAnd _ _ inferInstance <|
    match attempt.search.run args.queryType with
    | .error _ => isTrue trivial
    | .ok works => instDecidableNoRefusal args.tenantId works db.catalog

variable {str args attempt}

/-- An accepted ingestion returns a log and leaves the jobs alone. -/
theorem runOn_ingest_of_accepted {db : Database} (accepted : Accepted args attempt db) :
    ∃ log after,
      runOn (ingest str attempt.search (args.request attempt)) (.opened db) =
        (.ok log, .opened after) ∧ after.jobs = db.jobs := by
  obtain ⟨fresh, accepted⟩ := accepted
  cases found : attempt.search.run args.queryType with
  | error failure =>
      obtain ⟨log, after, returned, _, _, sameJobs⟩ :=
        runOn_ingest_searchFailed str attempt.search (args.request attempt) db found fresh
      exact ⟨log, after, returned, sameJobs⟩
  | ok works =>
      rw [found] at accepted
      obtain ⟨log, after, returned, _, _, sameJobs, _⟩ :=
        runOn_ingest_accepted str attempt.search (args.request attempt) db found fresh accepted
      exact ⟨log, after, returned, sameJobs⟩

/-- Any other ingestion raises on a failed session. -/
theorem runOn_ingest_of_not_accepted {db : Database} (refused : ¬ Accepted args attempt db) :
    ∃ e s, runOn (ingest str attempt.search (args.request attempt)) (.opened db) = (.error e, s) ∧
      s.committed = db ∧ s.failed = true := by
  by_cases fresh : ∀ log ∈ db.logs.rows, log.id ≠ attempt.logId
  · cases found : attempt.search.run args.queryType with
    | error failure => exact absurd ⟨fresh, by rw [found]; trivial⟩ refused
    | ok works =>
        have rejected : ¬ NoRefusal args.tenantId works db.catalog := fun accepted =>
          refused ⟨fresh, by rw [found]; exact accepted⟩
        obtain ⟨s, raised, base, failed⟩ :=
          runOn_ingest_refused str attempt.search (args.request attempt) db found fresh rejected
        exact ⟨_, s, raised, base, failed⟩
  · exact ⟨_, _, runOn_ingest_taken str attempt.search (args.request attempt) db fresh, rfl, rfl⟩

/-- An attempt whose ingestion is accepted ends normally, with the job completed or
failed. -/
theorem runAttempt_accepted {db : Database} {job : IngestionJob}
    (row : jobRow args.jobId (attempt.meanwhile db) = [job])
    (accepted : Accepted args attempt (markedRunning args attempt (attempt.meanwhile db))) :
    ∃ after, runAttempt str args attempt db = (true, after) ∧
      JobHas Terminal args.jobId after := by
  obtain ⟨log, after, returned, sameJobs⟩ := @runOn_ingest_of_accepted str args attempt _ accepted
  have kept := (jobRow_congr sameJobs args.jobId).trans (jobRow_markedRunning args attempt row)
  have finished := runOn_runIngestion str args attempt row
  rw [runOn_bind_ok returned, runOn_bind_ok (runOn_loadJob kept)] at finished
  have same := id_of_jobRow row
  let saved : IngestionJob := { job with
    status := if log.status = .completed then .completed else .failed
    celeryTaskId := some attempt.celeryTaskId
    progress := some ⟨log.worksFetched, log.worksStored, log.worksFailed⟩
    errorMessage := if truthy log.errorMessage then log.errorMessage else job.errorMessage }
  refine ⟨setJob saved after, ?_, saved, jobRow_setJob kept same, ?_⟩
  · unfold runAttempt ingestWorksAsync
    rw [runOn_tryCatch, finished]
    rfl
  · unfold saved
    dsimp only
    split
    · exact .inl rfl
    · exact .inr rfl

/-- Every other attempt leaves the job running and asks for a retry. -/
theorem runAttempt_not_accepted {db : Database} {job : IngestionJob}
    (row : jobRow args.jobId (attempt.meanwhile db) = [job])
    (refused : ¬ Accepted args attempt (markedRunning args attempt (attempt.meanwhile db))) :
    runAttempt str args attempt db =
      (false, markedRunning args attempt (attempt.meanwhile db)) := by
  obtain ⟨e, s, raised, base, failed⟩ := @runOn_ingest_of_not_accepted str args attempt _ refused
  have ran := runOn_runIngestion str args attempt row
  rw [runOn_bind_error raised] at ran
  unfold runAttempt ingestWorksAsync
  rw [runOn_tryCatch, ran]
  simp only [runOn_bind, runOn_tryCatch, runOn_markFailed_failed str args failed, runOn_pure, runOn_throw,
    base]

end Attempt

/-! ### The task with its retries -/

/-- Some attempt is accepted, each one starting from what the refused attempts before
it left. -/
def SomeAttemptAccepted (args : TaskArgs) (attempt : Nat → Attempt) : Nat → Database → Prop
  | 0, db => Accepted args (attempt 0) (markedRunning args (attempt 0) ((attempt 0).meanwhile db))
  | retries + 1, db =>
      let start := markedRunning args (attempt 0) ((attempt 0).meanwhile db)
      Accepted args (attempt 0) start ∨
        SomeAttemptAccepted args (fun n => attempt (n + 1)) retries start

/-- A job marked running is not in a terminal status. -/
theorem not_terminal_markedRunning {args : TaskArgs} {attempt : Attempt} {db : Database}
    {job : IngestionJob} (row : jobRow args.jobId db = [job]) :
    ¬ JobHas Terminal args.jobId (markedRunning args attempt db) := by
  rintro ⟨marked, markedRow, terminal⟩
  rw [jobRow_markedRunning args attempt row] at markedRow
  obtain rfl := List.singleton_injective markedRow
  rcases terminal with completed | failed
  · cases completed
  · cases failed

theorem runTask_finishes_iff (str : SessionError DbError Failure → String) (args : TaskArgs)
    (retries : Nat) (attempt : Nat → Attempt) (db : Database)
    (committed : ∃ job, jobRow args.jobId db = [job])
    (kept : ∀ n db, jobRow args.jobId ((attempt n).meanwhile db) = jobRow args.jobId db) :
    JobHas Terminal args.jobId (runTask str args attempt retries db) ↔
      SomeAttemptAccepted args attempt retries db := by
  induction retries generalizing attempt db with
  | zero =>
      obtain ⟨job, row⟩ := committed
      rw [← kept 0 db] at row
      rw [runTask, SomeAttemptAccepted]
      by_cases accepted : Accepted args (attempt 0)
          (markedRunning args (attempt 0) ((attempt 0).meanwhile db))
      · obtain ⟨after, ended, terminal⟩ := @runAttempt_accepted str args (attempt 0) db job row accepted
        simp only [ended, accepted, terminal]
      · rw [@runAttempt_not_accepted str args (attempt 0) db job row accepted]
        simp only [accepted, iff_false]
        exact not_terminal_markedRunning row
  | succ retries ih =>
      obtain ⟨job, row⟩ := committed
      rw [← kept 0 db] at row
      rw [runTask, SomeAttemptAccepted]
      by_cases accepted : Accepted args (attempt 0)
          (markedRunning args (attempt 0) ((attempt 0).meanwhile db))
      · obtain ⟨after, ended, terminal⟩ := @runAttempt_accepted str args (attempt 0) db job row accepted
        simp only [ended, accepted, terminal, true_or]
      · rw [@runAttempt_not_accepted str args (attempt 0) db job row accepted]
        simp only [accepted, false_or]
        exact ih (fun n => attempt (n + 1)) _ ⟨_, jobRow_markedRunning args (attempt 0) row⟩
          fun n db => kept (n + 1) db

/-- For every committed job and every run of its task with all its retries: the job
ends completed or failed if and only if, in one of the four attempts, the search
fails or the database refuses no row. -/
theorem job_finishes_iff (str : SessionError DbError Failure → String) (args : TaskArgs)
    (attempt : Nat → Attempt) (db : Database)
    (committed : ∃ job, jobRow args.jobId db = [job])
    (kept : ∀ n db, jobRow args.jobId ((attempt n).meanwhile db) = jobRow args.jobId db) :
    JobHas Terminal args.jobId (ingestWorks str args attempt db) ↔
      SomeAttemptAccepted args attempt maxRetries db :=
  runTask_finishes_iff str args maxRetries attempt db committed kept

/-- The n-th attempt when nothing else happens and the search always finds `works`. -/
def attemptFinding (works : List WorkInput) (n : Nat) : Attempt where
  meanwhile := id
  search := searchFinding works
  celeryTaskId := "task"
  logId := n

def sampleArgs : TaskArgs := ⟨1, 5, .author, "ann"⟩

/-- A database with one queued job. -/
def oneJob : Database :=
  { Database.empty with
    jobs := ⟨[⟨5, 1, none, .author, "ann", 50, .queued, none, none⟩], by simp⟩ }

/-- A search result with a `null` title leaves its job running after the last retry. -/
theorem null_title_job_stays_running :
    ¬ JobHas Terminal 5 (ingestWorks (fun _ => "") sampleArgs
      (attemptFinding (batchWith (plainWork "OL2W" none 20))) oneJob) := by
  rintro ⟨job, row, terminal⟩
  have running : (jobRow 5 (ingestWorks (fun _ => "") sampleArgs
      (attemptFinding (batchWith (plainWork "OL2W" none 20))) oneJob)).map (·.status) = [.running] := by
    decide +kernel
  rw [row] at running
  rw [List.map_singleton, List.singleton_inj] at running
  rw [running] at terminal
  rcases terminal with completed | failed
  · cases completed
  · cases failed

/-- The same batch with the title repaired before the first retry. -/
def repairedAfterOne (n : Nat) : Attempt :=
  attemptFinding (batchWith (plainWork "OL2W" (if n = 0 then none else some "Two") 20)) n

/-- The first retry finishes the job. -/
theorem repaired_job_finishes :
    JobHas Terminal 5 (ingestWorks (fun _ => "") sampleArgs repairedAfterOne oneJob) := by
  refine (job_finishes_iff _ sampleArgs repairedAfterOne oneJob ⟨_, rfl⟩ fun n db => rfl).mpr ?_
  exact .inr (.inl (by decide +kernel))

end TenantLibrary.Ingestion
