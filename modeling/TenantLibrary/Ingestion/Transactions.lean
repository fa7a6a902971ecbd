import TenantLibrary.Ingestion.JobTask
import TenantLibrary.Lib.Run

/-!
The transactions of an ingestion task.

`_ingest_works_async` commits three times: the mark on its job, the ingestion with its log,
and the outcome of the job. Between two commits other transactions are committed, and a worker
that dies leaves the commits before. `TaskStage.next` runs one transaction, inside the `try` of the
task; `runAttempt_eq` says that an attempt with nothing in between is its three transactions.

What each of them does to the committed database is said once (`next_received`, `next_marked`,
`next_ingested`). The second one adds one log, and the catalog it leaves is the one the log
tells of (`Records`).
-/

namespace TenantLibrary.Ingestion

open TenantLibrary.Lib TenantLibrary.OpenLibrary TenantLibrary.Store

/-! ### Stages -/

/-- `runIngestion` up to its first commit. -/
def markRunning (args : TaskArgs) (attempt : Attempt) : IngestM Unit := do
  let job ← loadJob args.jobId
  SessionM.add (.updateJob
    { job with status := .running, celeryTaskId := some attempt.celeryTaskId })
  SessionM.commit (Write.send Refusal.never)

/-- The job's row with the outcome of its ingestion. -/
def outcome (job : IngestionJob) (log : IngestionLog) : IngestionJob :=
  { job with
    status := if log.status = .completed then .completed else .failed
    progress := some ⟨log.worksFetched, log.worksStored, log.worksFailed⟩
    errorMessage := if truthy log.errorMessage then log.errorMessage else job.errorMessage }

/-- `runIngestion` from `session.refresh(job)` on. -/
def writeOutcome (args : TaskArgs) (log : IngestionLog) : IngestM Unit := do
  let job ← loadJob args.jobId
  SessionM.add (.updateJob (outcome job log))
  SessionM.commit (Write.send Refusal.never)

/-- A part of the task inside its `try`. -/
def handled {α : Type} (str : SessionError DbError Failure → String) (args : TaskArgs)
    (program : IngestM α) : IngestM α :=
  tryCatch program fun exc => do
    tryCatch (markFailed str args exc) fun _ => return ()
    throw exc

/-- Where a worker stands between the transactions of its attempt. What the attempt meets is
drawn when it begins; its `meanwhile` is left to the transactions in between. -/
inductive TaskStage where
  | idle
  | received (args : TaskArgs) (attempt : Attempt)
  /-- the job is marked running -/
  | marked (args : TaskArgs) (attempt : Attempt)
  /-- the ingestion is committed -/
  | ingested (args : TaskArgs) (log : IngestionLog)

/-- Run a transaction; the exception handler ends the attempt. -/
def transact {α : Type} (str : SessionError DbError Failure → String) (args : TaskArgs)
    (program : IngestM α) (next : α → TaskStage) (db : Database) : TaskStage × Database :=
  match (handled str args program).runOn (.opened db) with
  | (.ok a, s) => (next a, s.committed)
  | (.error _, s) => (.idle, s.committed)

/-- The next transaction of a worker. -/
def TaskStage.next (str : SessionError DbError Failure → String) (db : Database) :
    TaskStage → TaskStage × Database
  | .idle => (.idle, db)
  | .received args attempt =>
      transact str args (markRunning args attempt) (fun _ => .marked args attempt) db
  | .marked args attempt =>
      transact str args (ingest str attempt.search (args.request attempt)) (.ingested args) db
  | .ingested args log => transact str args (writeOutcome args log) (fun _ => .idle) db

/-- The task a worker is at. -/
def TaskStage.task : TaskStage → Option TaskArgs
  | .idle => none
  | .received args _ => some args
  | .marked args _ => some args
  | .ingested args _ => some args

/-- The attempt a worker is at, until its ingestion is committed. -/
def TaskStage.attempt : TaskStage → Option Attempt
  | .received _ attempt => some attempt
  | .marked _ attempt => some attempt
  | _ => none

/-- The transactions of the task. -/
theorem runIngestion_eq (str : SessionError DbError Failure → String) (args : TaskArgs)
    (attempt : Attempt) : runIngestion str args attempt = (do
      markRunning args attempt
      let log ← ingest str attempt.search (args.request attempt)
      writeOutcome args log) := by
  simp only [runIngestion, markRunning, writeOutcome, outcome, bind_assoc]

/-! ### The log of an ingestion -/

/-- A log with the attempt that wrote it. -/
structure JournalEntry where
  log : IngestionLog
  attempt : Attempt

/-- What the attempt's search answered. -/
def JournalEntry.found (entry : JournalEntry) : Except Failure (List WorkInput) :=
  entry.attempt.search.run entry.log.queryType

/-- One log after the other tells what became of the catalog: an ingestion that completed has
stored the works its search found, in isolation, and counts them; one whose search failed has
changed nothing. -/
inductive Records (c : Catalog) (entry : JournalEntry) : Catalog → Prop where
  | completed (works : List WorkInput) (found : entry.found = .ok works)
      (status : entry.log.status = .completed)
      (fetched : entry.log.worksFetched = works.length)
      (stored : entry.log.worksStored = (storedInIsolation entry.log.tenantId works c).2)
      (counted : entry.log.worksStored + entry.log.worksFailed = entry.log.worksFetched)
      (silent : entry.log.errorMessage = none) :
      Records c entry (storedInIsolation entry.log.tenantId works c).1
  | failed (failure : Failure) (raised : entry.found = .error failure)
      (status : entry.log.status = .failed) (error : entry.log.errorMessage.isSome)
      (nothing : entry.log.worksFetched = 0 ∧ entry.log.worksStored = 0 ∧
        entry.log.worksFailed = 0) :
      Records c entry c

/-- An ingestion for this task: one more log, of its job, and the catalog it tells of. -/
structure Logged (args : TaskArgs) (attempt : Attempt) (db : Database) (log : IngestionLog)
    (after : Database) : Prop where
  jobs : after.jobs = db.jobs
  logs : after.logs.rows = db.logs.rows ++ [log]
  logId : log.id = attempt.logId
  jobId : log.jobId = some args.jobId
  query : log.tenantId = args.tenantId ∧ log.queryType = args.queryType ∧
    log.queryValue = args.queryValue
  records : Records db.catalog ⟨log, attempt⟩ after.catalog

section Ingest

open SessionM

variable {str : SessionError DbError Failure → String} {args : TaskArgs} {attempt : Attempt}
  {db : Database}

/-- Updating a log leaves the others. -/
theorem map_replaceLog (log : IngestionLog) (fresh : ∀ row ∈ db.logs.rows, row.id ≠ log.id) :
    db.logs.rows.map (replaceLog log) = db.logs.rows := by
  refine (List.map_congr_left fun row mem => ?_).trans (List.map_id _)
  exact if_neg (fresh row mem)

theorem logged_accepted {works : List WorkInput}
    (found : attempt.search.run args.queryType = .ok works)
    (fresh : ∀ log ∈ db.logs.rows, log.id ≠ attempt.logId)
    (accepted : NoRefusal args.tenantId works db.catalog) :
    ∃ log after, runOn (ingest str attempt.search (args.request attempt)) (.opened db) =
      (.ok log, .opened after) ∧ Logged args attempt db log after := by
  have ready := ready_fetching (args.request attempt) db fresh works.length
  obtain ⟨t, batch, last⟩ := runOn_storeAll_ready ready args.tenantId works 0 0 accepted
  rw [Nat.zero_add, Nat.zero_add] at batch
  have sameCatalog : ((args.request attempt).fetching db fresh works.length).catalog = db.catalog :=
    rfl
  rw [sameCatalog] at batch last
  have finished := runOn_ingest str attempt.search (args.request attempt) db found fresh batch
  have held := last.updateLog ((args.request attempt).completedLog works.length
    (storedInIsolation args.tenantId works db.catalog).2
    (works.length - (storedInIsolation args.tenantId works db.catalog).2)) Refusal.never
  rw [runOn_commit _ _ held.healthy, held.view] at finished
  have bounded := storedInIsolation_le_length args.tenantId works db.catalog
  refine ⟨_, _, finished, rfl, ?_, rfl, rfl, ⟨rfl, rfl, rfl⟩,
    .completed works found rfl rfl rfl (Nat.add_sub_of_le bounded) rfl⟩
  simp only [Table.rows_modify, IngestRequest.fetching, IngestRequest.begun, List.map_append]
  rw [map_replaceLog ((args.request attempt).fetchedLog works.length) fresh,
    map_replaceLog ((args.request attempt).completedLog ..) fresh]
  simp [replaceLog, IngestRequest.completedLog, IngestRequest.fetchedLog]

theorem logged_searchFailed {failure : Failure}
    (failed : attempt.search.run args.queryType = .error failure)
    (fresh : ∀ log ∈ db.logs.rows, log.id ≠ attempt.logId) :
    ∃ log after, runOn (ingest str attempt.search (args.request attempt)) (.opened db) =
      (.ok log, .opened after) ∧ Logged args attempt db log after := by
  have failed : attempt.search.run (args.request attempt).queryType = .error failure := failed
  let log : IngestionLog := { (args.request attempt).log with
    status := .failed, errorMessage := some (errorText str (.raised failure)) }
  refine ⟨log, { (args.request attempt).begun db fresh with
    logs := ((args.request attempt).begun db fresh).logs.modify (replaceLog log)
      clash_of_replaceLog }, ?_, rfl, ?_, rfl, rfl, ⟨rfl, rfl, rfl⟩,
      .failed failure failed rfl rfl ⟨rfl, rfl, rfl⟩⟩
  · simp only [ingest, runOn_bind, runOn_add, Session.opened, List.nil_append,
      runOn_flush_insertLog (args.request attempt) db fresh, runOn_tryCatch, failed, liftAnswer,
      runOn_throw, runOn_pure]
    rfl
  · simp only [Table.rows_modify, IngestRequest.begun, List.map_append]
    rw [map_replaceLog log fresh]
    simp [replaceLog, log]

/-- An ingestion adds a log and what it tells of, or raises on a failed session over the
database it began with. -/
theorem runOn_ingest_cases (str : SessionError DbError Failure → String) (args : TaskArgs)
    (attempt : Attempt) (db : Database) :
    (∃ log after, runOn (ingest str attempt.search (args.request attempt)) (.opened db) =
      (.ok log, .opened after) ∧ Logged args attempt db log after) ∨
    ∃ e s, runOn (ingest str attempt.search (args.request attempt)) (.opened db) = (.error e, s) ∧
      s.committed = db ∧ s.failed = true := by
  by_cases fresh : ∀ log ∈ db.logs.rows, log.id ≠ attempt.logId
  · cases found : attempt.search.run args.queryType with
    | error failure => exact .inl (logged_searchFailed found fresh)
    | ok works =>
        by_cases accepted : NoRefusal args.tenantId works db.catalog
        · exact .inl (logged_accepted found fresh accepted)
        · obtain ⟨s, raised, base, failed⟩ := runOn_ingest_refused str attempt.search
            (args.request attempt) db found fresh accepted
          exact .inr ⟨_, s, raised, base, failed⟩
  · have taken := runOn_ingest_taken str attempt.search (args.request attempt) db fresh
    exact .inr ⟨_, _, taken, rfl, rfl⟩

end Ingest

/-! ### What each transaction does -/

section Next

open SessionM

variable {α : Type} {str : SessionError DbError Failure → String} {args : TaskArgs}
  {attempt : Attempt} {db : Database}

/-- A job's row is there or not; its id is the primary key. -/
theorem jobRow_cases (jobId : Uuid) (db : Database) :
    jobRow jobId db = [] ∨ ∃ job, jobRow jobId db = [job] := by
  have atMostOne := @Table.filter_length_le_one _ _ db.jobs (fun job => job.id = jobId)
    fun a b isA isB => (of_decide_eq_true isA).trans (of_decide_eq_true isB).symm
  change (jobRow jobId db).length ≤ 1 at atMostOne
  match found : jobRow jobId db with
  | [] => exact .inl rfl
  | [job] => exact .inr ⟨job, rfl⟩
  | _ :: _ :: _ => simp [found] at atMostOne

theorem runOn_loadJob_missing {jobId : Uuid} (missing : jobRow jobId db = []) :
    ∃ e, runOn (loadJob jobId) (.opened db) = (.error e, .opened db) := by
  rw [loadJob, Session.opened, runOn_bind_ok (runOn_select_clean _ _ db db), missing]
  exact ⟨_, rfl⟩

/-- A part that returns is handled as it is. -/
theorem runOn_handled_ok {program : IngestM α} {s t : Session Database Write} {a : α}
    (returned : runOn program s = (.ok a, t)) : runOn (handled str args program) s = (.ok a, t) := by
  rw [handled, runOn_tryCatch, returned]

/-- The handler passes the exception on, and writes nothing when it cannot read the job. -/
theorem runOn_handled_error {program : IngestM α} {s t : Session Database Write}
    {e e' : SessionError DbError Failure} (raised : runOn program s = (.error e, t))
    (unread : runOn (loadJob args.jobId) t = (.error e', t)) :
    runOn (handled str args program) s = (.error e, t) := by
  have unmarked : runOn (markFailed str args e) t = (.error e', t) := runOn_bind_error unread
  rw [handled, runOn_tryCatch, raised]
  simp only [runOn_bind, runOn_tryCatch, unmarked, runOn_pure, runOn_throw]

theorem transact_ok {program : IngestM α} {next : α → TaskStage} {a : α} {s : Session Database Write}
    (returned : runOn program (.opened db) = (.ok a, s)) :
    transact str args program next db = (next a, s.committed) := by
  rw [transact, runOn_handled_ok returned]

theorem transact_error {program : IngestM α} {next : α → TaskStage} {s : Session Database Write}
    {e e' : SessionError DbError Failure} (raised : runOn program (.opened db) = (.error e, s))
    (unread : runOn (loadJob args.jobId) s = (.error e', s)) :
    transact str args program next db = (.idle, s.committed) := by
  rw [transact, runOn_handled_error raised unread]

theorem runOn_markRunning {job : IngestionJob} (row : jobRow args.jobId db = [job]) :
    runOn (markRunning args attempt) (.opened db) =
      (.ok (), .opened (markedRunning args attempt db)) := by
  unfold markRunning markedRunning
  rw [runOn_bind_ok (runOn_loadJob row), row]
  rfl

theorem runOn_writeOutcome {job : IngestionJob} (row : jobRow args.jobId db = [job])
    (log : IngestionLog) :
    runOn (writeOutcome args log) (.opened db) = (.ok (), .opened (setJob (outcome job log) db)) := by
  unfold writeOutcome
  rw [runOn_bind_ok (runOn_loadJob row)]
  rfl

/-- The mark on the job, or nothing. -/
theorem next_received (str : SessionError DbError Failure → String) (args : TaskArgs)
    (attempt : Attempt) (db : Database) :
    (∃ job, jobRow args.jobId db = [job] ∧ (TaskStage.received args attempt).next str db =
      (.marked args attempt, markedRunning args attempt db)) ∨
    jobRow args.jobId db = [] ∧ (TaskStage.received args attempt).next str db = (.idle, db) := by
  rcases jobRow_cases args.jobId db with missing | ⟨job, row⟩
  · obtain ⟨e, unread⟩ := runOn_loadJob_missing missing
    exact .inr ⟨missing, transact_error (runOn_bind_error unread) unread⟩
  · exact .inl ⟨job, row, transact_ok (runOn_markRunning row)⟩

/-- One log and what it tells of, or nothing. -/
theorem next_marked (str : SessionError DbError Failure → String) (args : TaskArgs)
    (attempt : Attempt) (db : Database) :
    (∃ log after, (TaskStage.marked args attempt).next str db = (.ingested args log, after) ∧
      Logged args attempt db log after) ∨
    (TaskStage.marked args attempt).next str db = (.idle, db) := by
  rcases runOn_ingest_cases str args attempt db with
    ⟨log, after, returned, logged⟩ | ⟨e, s, raised, rfl, failed⟩
  · exact .inl ⟨log, after, transact_ok returned, logged⟩
  · exact .inr (transact_error raised (runOn_loadJob_failed failed))

/-- The outcome of the job, or nothing. -/
theorem next_ingested (str : SessionError DbError Failure → String) (args : TaskArgs)
    (log : IngestionLog) (db : Database) :
    (∃ job, jobRow args.jobId db = [job] ∧ (TaskStage.ingested args log).next str db =
      (.idle, setJob (outcome job log) db)) ∨
    jobRow args.jobId db = [] ∧ (TaskStage.ingested args log).next str db = (.idle, db) := by
  rcases jobRow_cases args.jobId db with missing | ⟨job, row⟩
  · obtain ⟨e, unread⟩ := runOn_loadJob_missing missing
    exact .inr ⟨missing, transact_error (runOn_bind_error unread) unread⟩
  · exact .inl ⟨job, row, transact_ok (runOn_writeOutcome row log)⟩

end Next

/-! ### An attempt with nothing in between -/

section Attempt

open SessionM

variable {str : SessionError DbError Failure → String} {args : TaskArgs} {attempt : Attempt}
  {db : Database}

/-- The transactions a worker has left, one right after the other. -/
def TaskStage.finish (str : SessionError DbError Failure → String) (db : Database) (stage : TaskStage) :
    Database :=
  let first := stage.next str db
  let second := first.1.next str first.2
  (second.1.next str second.2).2

theorem committed_transact {α : Type} (program : IngestM α) (next : α → TaskStage) :
    (transact str args program next db).2 =
      (runOn (handled str args program) (.opened db)).2.committed := by
  unfold transact
  split <;> rename_i ran <;> rw [ran]

/-- The handler is the one of the whole task at each of its transactions. -/
theorem runOn_handled_bind {α β : Type} {program : IngestM α} {next : α → IngestM β}
    {s t : Session Database Write} {a : α} (returned : runOn program s = (.ok a, t)) :
    runOn (handled str args (program >>= next)) s = runOn (handled str args (next a)) t := by
  rw [handled, handled, runOn_tryCatch, runOn_tryCatch, runOn_bind_ok returned]

theorem committed_runAttempt (str : SessionError DbError Failure → String) (args : TaskArgs)
    (attempt : Attempt) (db : Database) :
    (runAttempt str args attempt db).2 = (runOn (handled str args (do
      markRunning args attempt
      let log ← ingest str attempt.search (args.request attempt)
      writeOutcome args log)) (.opened (attempt.meanwhile db))).2.committed := by
  rw [← runIngestion_eq, runAttempt, ingestWorksAsync]
  change _ = (runOn (tryCatch _ _) _).2.committed
  split <;> rename_i ran <;> rw [ran]

/-- What an attempt leaves is what its transactions leave. -/
theorem runAttempt_eq (str : SessionError DbError Failure → String) (args : TaskArgs)
    (attempt : Attempt) (db : Database) :
    (runAttempt str args attempt db).2 =
      (TaskStage.received args attempt).finish str (attempt.meanwhile db) := by
  generalize started : attempt.meanwhile db = start
  rw [committed_runAttempt, started, TaskStage.finish]
  rcases jobRow_cases args.jobId start with missing | ⟨job, row⟩
  · obtain ⟨e, unread⟩ := runOn_loadJob_missing missing
    have raised : runOn (markRunning args attempt) (.opened start) = (.error e, .opened start) :=
      runOn_bind_error unread
    have received : (TaskStage.received args attempt).next str start = (.idle, start) :=
      transact_error raised unread
    rw [received, runOn_handled_error (runOn_bind_error raised) unread]
    rfl
  · have received : (TaskStage.received args attempt).next str start =
        (.marked args attempt, markedRunning args attempt start) :=
      transact_ok (runOn_markRunning row)
    rw [received, runOn_handled_bind (runOn_markRunning row)]
    rcases runOn_ingest_cases str args attempt (markedRunning args attempt start) with
      ⟨log, after, returned, _⟩ | ⟨e, s, raised, base, failed⟩
    · have marked : (TaskStage.marked args attempt).next str (markedRunning args attempt start) =
          (.ingested args log, after) := transact_ok returned
      rw [marked, runOn_handled_bind returned]
      exact (committed_transact _ _).symm
    · have unread := @runOn_loadJob_failed args.jobId s failed
      have marked : (TaskStage.marked args attempt).next str (markedRunning args attempt start) =
          (.idle, s.committed) := transact_error raised unread
      rw [marked, runOn_handled_error (runOn_bind_error raised) unread]
      rfl

end Attempt

end TenantLibrary.Ingestion
