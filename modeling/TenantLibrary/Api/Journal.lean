import TenantLibrary.Api.Upkeep
import TenantLibrary.Lib.Run

/-!
What the ingestion logs tell, in every history of requests, refreshes and workers.

The log table is a journal of the catalog (`catalog_journaled`). Each log is one of a committed
job, and each job shows what its logs say (`jobs_mirror_logs`). Refreshes ask for nothing that
no request has asked for, and add no more tasks than there are such queries
(`refreshes_never_breed`).
-/

namespace TenantLibrary.Api

open TenantLibrary.Lib TenantLibrary.OpenLibrary TenantLibrary.Store TenantLibrary.Ingestion
  TenantLibrary.JobQueue

variable {str : SessionError DbError Failure → String} {s t : Upkeep} {event : Event}
  {events : List Event}

/-! ### The journal -/

theorem terminal_of_records {c after : Catalog} {entry : JournalEntry} (records : Records c entry after) :
    Terminal entry.log.status := by
  cases records with
  | completed works found status => exact .inl status
  | failed failure raised status => exact .inr status

theorem journal_markedRunning (args : TaskArgs) (attempt : Attempt) (db : Database) :
    (markedRunning args attempt db).logs = db.logs ∧
      (markedRunning args attempt db).catalog = db.catalog := by
  unfold markedRunning
  split
  · exact ⟨rfl, rfl⟩
  · exact ⟨rfl, rfl⟩

/-- The attempt was delivered to a worker. -/
def Delivered (events : List Event) (attempt : Attempt) : Prop :=
  ∃ k position, .receive k position attempt ∈ events

/-- The log table is a journal of the catalog: the entries are its logs from the first to the
last, each with an attempt that was delivered and that drew the log's identifier. -/
structure Journal (events : List Event) (db : Database) (entries : List JournalEntry) : Prop where
  logs : entries.map JournalEntry.log = db.logs.rows
  delivered : ∀ entry ∈ entries, Delivered events entry.attempt ∧ entry.log.id = entry.attempt.logId
  replay : Run Records .empty entries db.catalog

/-- What a history keeps: a journal, and workers at attempts that were delivered. -/
structure Kept (events : List Event) (s : Upkeep) : Prop where
  journal : ∃ entries, Journal events s.db entries
  workers : ∀ k, ∀ attempt ∈ (s.workers k).attempt, Delivered events attempt

theorem Delivered.append {attempt : Attempt} (delivered : Delivered events attempt)
    (later : List Event) : Delivered (events ++ later) attempt := by
  obtain ⟨k, position, mem⟩ := delivered
  exact ⟨k, position, List.mem_append_left _ mem⟩

theorem Journal.append {entries : List JournalEntry} {db : Database} (journal : Journal events db entries)
    (later : List Event) : Journal (events ++ later) db entries where
  logs := journal.logs
  delivered entry mem := ⟨(journal.delivered entry mem).1.append later, (journal.delivered entry mem).2⟩
  replay := journal.replay

theorem Kept.append (kept : Kept events s) (later : List Event) : Kept (events ++ later) s where
  journal := kept.journal.imp fun _ journal => journal.append later
  workers k attempt is := (kept.workers k attempt is).append later

/-- Neither the logs nor the catalog nor the workers change. -/
theorem Kept.of_same {t : Upkeep} (kept : Kept events s) (logs : t.db.logs = s.db.logs)
    (catalog : t.db.catalog = s.db.catalog) (workers : t.workers = s.workers) : Kept events t where
  journal := by
    obtain ⟨entries, journal⟩ := kept.journal
    exact ⟨entries, by rw [logs]; exact journal.logs, journal.delivered,
      by rw [catalog]; exact journal.replay⟩
  workers := by
    rw [workers]
    exact kept.workers

/-- A worker goes on, at an attempt that was delivered or at none. -/
theorem Kept.setWorker (kept : Kept events s) (k : Nat) (stage : TaskStage)
    (delivered : ∀ attempt ∈ stage.attempt, Delivered events attempt) :
    Kept events (s.setWorker k stage) where
  journal := kept.journal
  workers j attempt is := by
    by_cases same : j = k
    · subst same
      rw [Upkeep.workers_setWorker] at is
      exact delivered attempt is
    · rw [Upkeep.workers_setWorker_of_ne _ _ same] at is
      exact kept.workers j attempt is

theorem ann_length : 1 ≤ "ann".toList.length ∧ "ann".toList.length ≤ 500 := by simp

theorem twenty_range : 1 ≤ 20 ∧ 20 ≤ 500 := by omega

def asksForAnn : IngestionBody := ⟨.author, "ann", 20, ann_length, twenty_range⟩

def unanswered : Attempt where
  meanwhile := id
  search := ⟨.error (.openLibraryError "HTTP 404"), .error (.openLibraryError "HTTP 404")⟩
  celeryTaskId := "again"
  logId := 91

/-- A request; a worker that dies after its ingestion; another one that gets the task again and
whose search fails; a refresh. -/
def interrupted : List Event :=
  [.trigger 1 asksForAnn 7, .send 0,
    .receive 0 0 (attemptFinding (batchWith (plainWork "OL2W" (some "Two") 20)) 90), .work 0, .work 0,
    .receive 1 0 unanswered, .work 1, .die 0, .work 1, .work 1,
    .refresh [⟨1, .author, "ann"⟩], .round 0 8, .round 0 9]

/-- The counts of a log, as a job shows them. -/
def logProgress (log : IngestionLog) : Progress :=
  ⟨log.worksFetched, log.worksStored, log.worksFailed⟩

/-- A log is one of a job that has left the queue, and the counts and the end of a job are those
of one of its logs. -/
structure Mirrors (db : Database) : Prop where
  named : ∀ log ∈ db.logs.rows, ∃ job ∈ db.jobs.rows, log.jobId = some job.id ∧
    logQuery log = taskQuery (jobTask job) ∧ job.status ≠ .queued
  counted : ∀ job ∈ db.jobs.rows, ∀ progress, job.progress = some progress →
    ∃ log ∈ db.logs.rows, log.jobId = some job.id ∧ logProgress log = progress
  ended : ∀ job ∈ db.jobs.rows, Terminal job.status →
    ∃ log ∈ db.logs.rows, log.jobId = some job.id ∧ log.status = job.status ∧
      job.progress = some (logProgress log)

/-- A job as it is inserted. -/
def Pristine (job : IngestionJob) : Prop := job.status = .queued ∧ job.progress = none

/-- A step of the tables: jobs that left the queue stay what they are asked for and do not
return, logs stay. -/
structure Grows (db after : Database) : Prop where
  jobs : ∀ job ∈ db.jobs.rows, job.status ≠ .queued →
    ∃ later ∈ after.jobs.rows, jobTask later = jobTask job ∧ later.status ≠ .queued
  logs : db.logs.rows ⊆ after.logs.rows

/-- What a worker relies on. -/
def Working (db : Database) : TaskStage → Prop
  | .idle => True
  | .received _ _ => True
  | .marked args _ => ∃ job ∈ db.jobs.rows, job.id = args.jobId ∧ job.status ≠ .queued
  | .ingested args log =>
      log ∈ db.logs.rows ∧ log.jobId = some args.jobId ∧ Terminal log.status

section Tables

variable {db after : Database}

theorem Working.mono {stage : TaskStage} (working : Working db stage) (grows : Grows db after) :
    Working after stage := by
  cases stage with
  | idle => trivial
  | received => trivial
  | marked args attempt =>
      obtain ⟨job, mem, same, active⟩ := working
      obtain ⟨later, laterMem, task, stays⟩ := grows.jobs job mem active
      exact ⟨later, laterMem, (congrArg TaskArgs.jobId task).trans same, stays⟩
  | ingested args log => exact ⟨grows.logs working.1, working.2⟩

/-- The job of a log is still there, under its later row. -/
theorem Mirrors.named_later (mirrors : Mirrors db) (grows : Grows db after) {log : IngestionLog}
    (mem : log ∈ db.logs.rows) : ∃ job ∈ after.jobs.rows, log.jobId = some job.id ∧
      logQuery log = taskQuery (jobTask job) ∧ job.status ≠ .queued := by
  obtain ⟨job, jobMem, jobId, query, active⟩ := mirrors.named log mem
  obtain ⟨later, laterMem, task, stays⟩ := grows.jobs job jobMem active
  have same : later.id = job.id := congrArg TaskArgs.jobId task
  exact ⟨later, laterMem, jobId.trans (congrArg some same.symm),
    query.trans (congrArg taskQuery task.symm), stays⟩

theorem grows_append {table : Table IngestionJob IngestionJob.Clash} {jobs : List IngestionJob}
    (rows : table.rows = db.jobs.rows ++ jobs) : Grows db { db with jobs := table } where
  jobs job mem active := ⟨job, rows ▸ List.mem_append_left _ mem, rfl, active⟩
  logs _ mem := mem

/-- New jobs show nothing yet. -/
theorem Mirrors.append {table : Table IngestionJob IngestionJob.Clash} {jobs : List IngestionJob}
    (mirrors : Mirrors db) (rows : table.rows = db.jobs.rows ++ jobs)
    (pristine : ∀ job ∈ jobs, Pristine job) : Mirrors { db with jobs := table } where
  named log mem := mirrors.named_later (grows_append rows) mem
  counted job mem progress shows := by
    rcases List.mem_append.mp (rows ▸ mem) with old | new
    · exact mirrors.counted job old progress shows
    · rw [(pristine job new).2] at shows
      cases shows
  ended job mem terminal := by
    rcases List.mem_append.mp (rows ▸ mem) with old | new
    · exact mirrors.ended job old terminal
    · rw [(pristine job new).1] at terminal
      rcases terminal with completed | failed
      · cases completed
      · cases failed

/-- The rows of the jobs after one was replaced. -/
theorem mem_setJob {job row : IngestionJob} (mem : row ∈ (setJob job db).jobs.rows) :
    row = job ∨ row ∈ db.jobs.rows := by
  obtain ⟨before, beforeMem, rfl⟩ := List.mem_map.mp mem
  unfold replaceJob
  split
  · exact .inl rfl
  · exact .inr beforeMem

theorem mem_of_jobRow {id : Uuid} {job : IngestionJob} (row : jobRow id db = [job]) :
    job ∈ db.jobs.rows := by
  have mem : job ∈ jobRow id db := row ▸ List.mem_singleton_self job
  exact (List.mem_filter.mp mem).1

/-- A row with the id is the row. -/
theorem eq_of_jobRow {id : Uuid} {job other : IngestionJob} (row : jobRow id db = [job])
    (mem : other ∈ db.jobs.rows) (same : other.id = id) : other = job := by
  have listed : other ∈ jobRow id db := List.mem_filter.mpr ⟨mem, by simp [same]⟩
  rw [row] at listed
  exact List.mem_singleton.mp listed

theorem grows_setJob {id : Uuid} {old job : IngestionJob} (was : jobRow id db = [old])
    (task : jobTask job = jobTask old) (active : job.status ≠ .queued) :
    Grows db (setJob job db) where
  jobs row mem stays := by
    have idOld := id_of_jobRow was
    have same : job.id = old.id := congrArg TaskArgs.jobId task
    refine ⟨replaceJob job row, List.mem_map_of_mem mem, ?_⟩
    unfold replaceJob
    split
    case isTrue replaced =>
      obtain rfl := eq_of_jobRow was mem (replaced.trans (same.trans idOld))
      exact ⟨task, active⟩
    case isFalse => exact ⟨rfl, stays⟩
  logs _ mem := mem

/-- Replace the row of a job by one whose counts and end are those of a log of the job. -/
theorem Mirrors.setJob {id : Uuid} {old job : IngestionJob} (mirrors : Mirrors db)
    (was : jobRow id db = [old]) (task : jobTask job = jobTask old) (active : job.status ≠ .queued)
    (counted : ∀ progress, job.progress = some progress →
      ∃ log ∈ db.logs.rows, log.jobId = some job.id ∧ logProgress log = progress)
    (ended : Terminal job.status → ∃ log ∈ db.logs.rows, log.jobId = some job.id ∧
      log.status = job.status ∧ job.progress = some (logProgress log)) :
    Mirrors (Ingestion.setJob job db) where
  named log mem := mirrors.named_later (grows_setJob was task active) mem
  counted row mem progress shows := by
    rcases mem_setJob mem with rfl | before
    · exact counted progress shows
    · exact mirrors.counted row before progress shows
  ended row mem terminal := by
    rcases mem_setJob mem with rfl | before
    · exact ended terminal
    · exact mirrors.ended row before terminal

theorem grows_logged {args : TaskArgs} {attempt : Attempt} {log : IngestionLog}
    (made : Logged args attempt db log after) :
    Grows db after where
  jobs job mem active := ⟨job, made.jobs ▸ mem, rfl, active⟩
  logs _ mem := made.logs ▸ List.mem_append_left _ mem

/-- One more log, of a job that is at work. -/
theorem Mirrors.logged {args : TaskArgs} {attempt : Attempt} {log : IngestionLog}
    (mirrors : Mirrors db) (made : Logged args attempt db log after) (job : IngestionJob) (mem : job ∈ db.jobs.rows)
    (task : jobTask job = args) (active : job.status ≠ .queued) : Mirrors after where
  named other otherMem := by
    rcases List.mem_append.mp (made.logs ▸ otherMem) with old | new
    · exact mirrors.named_later (grows_logged made) old
    · obtain rfl := List.mem_singleton.mp new
      refine ⟨job, made.jobs ▸ mem, ?_, ?_, active⟩
      · rw [made.jobId, ← task]
        rfl
      · obtain ⟨tenant, queryType, queryValue⟩ := made.query
        rw [task, logQuery, taskQuery, tenant, queryType, queryValue]
  counted row rowMem progress shows := by
    obtain ⟨before, beforeMem, found⟩ := mirrors.counted row (made.jobs ▸ rowMem) progress shows
    exact ⟨before, (grows_logged made).logs beforeMem, found⟩
  ended row rowMem terminal := by
    obtain ⟨before, beforeMem, found⟩ := mirrors.ended row (made.jobs ▸ rowMem) terminal
    exact ⟨before, (grows_logged made).logs beforeMem, found⟩

end Tables

/-! ### Tasks and jobs -/

/-- The identifiers a step draws for jobs. -/
def Event.draws : Event → List Uuid
  | .trigger _ _ jobId => [jobId]
  | .round _ newId => [newId]
  | _ => []

/-- What the identifiers drawn so far were drawn for. -/
abbrev Drawn := Uuid → Option TaskArgs

/-- The task is the one its job's identifier was drawn for. -/
def Drawn.For (drawn : Drawn) (args : TaskArgs) : Prop := drawn args.jobId = some args

/-- Every job and every task is what its identifier was drawn for, and every worker has what it
relies on. -/
structure Consistent (drawn : Drawn) (s : Upkeep) : Prop where
  jobs : ∀ job ∈ s.db.jobs.rows, drawn.For (jobTask job)
  enqueued : ∀ args ∈ s.enqueued, drawn.For args
  unsent : ∀ args ∈ s.unsent, drawn.For args
  refreshes : ∀ r ∈ s.refreshes, ∀ job ∈ r.inserted, drawn.For (jobTask job) ∧ Pristine job
  tasks : ∀ k, ∀ args ∈ (s.workers k).task, drawn.For args
  working : ∀ k, Working s.db (s.workers k)

theorem Drawn.For.jobTask_eq {drawn : Drawn} {job : IngestionJob} {args : TaskArgs}
    (forJob : drawn.For (jobTask job)) (forTask : drawn.For args) (same : job.id = args.jobId) :
    jobTask job = args := by
  unfold Drawn.For at forJob forTask
  rw [← same] at forTask
  exact Option.some.inj (forJob.symm.trans forTask)

/-- Drawing another identifier changes nothing about those drawn before. -/
theorem Drawn.For.update {drawn : Drawn} {id : Uuid} {task args : TaskArgs} (free : drawn id = none)
    (forTask : drawn.For args) : Drawn.For (Function.update drawn id (some task)) args := by
  unfold Drawn.For at forTask ⊢
  have other : args.jobId ≠ id := by
    rintro rfl
    rw [free] at forTask
    cases forTask
  rw [Function.update_of_ne other]
  exact forTask

theorem Drawn.for_update (drawn : Drawn) (task : TaskArgs) :
    Drawn.For (Function.update drawn task.jobId (some task)) task :=
  Function.update_self ..

theorem Consistent.update {drawn : Drawn} (consistent : Consistent drawn s) {id : Uuid}
    (task : TaskArgs) (free : drawn id = none) :
    Consistent (Function.update drawn id (some task)) s where
  jobs job mem := (consistent.jobs job mem).update free
  enqueued args mem := (consistent.enqueued args mem).update free
  unsent args mem := (consistent.unsent args mem).update free
  refreshes r mem job inserted :=
    ⟨(consistent.refreshes r mem job inserted).1.update free,
      (consistent.refreshes r mem job inserted).2⟩
  tasks k args mem := (consistent.tasks k args mem).update free
  working := consistent.working

/-- A worker goes on to a stage of the same task, or of none. -/
theorem Consistent.setWorker {drawn : Drawn} (consistent : Consistent drawn s) (k : Nat)
    (stage : TaskStage) (tasks : ∀ args ∈ stage.task, drawn.For args) (working : Working s.db stage) :
    Consistent drawn (s.setWorker k stage) where
  jobs := consistent.jobs
  enqueued := consistent.enqueued
  unsent := consistent.unsent
  refreshes := consistent.refreshes
  tasks j args mem := by
    rcases eq_or_ne j k with rfl | other
    · rw [Upkeep.workers_setWorker] at mem
      exact tasks args mem
    · rw [Upkeep.workers_setWorker_of_ne s stage other] at mem
      exact consistent.tasks j args mem
  working j := by
    rcases eq_or_ne j k with rfl | other
    · rw [Upkeep.workers_setWorker]
      exact working
    · rw [Upkeep.workers_setWorker_of_ne s stage other]
      exact consistent.working j

theorem Consistent.rest {drawn : Drawn} (consistent : Consistent drawn s) (k : Nat) :
    Consistent drawn (s.setWorker k .idle) :=
  consistent.setWorker k .idle (fun args is => absurd is (Option.not_mem_none args)) trivial

/-- The tables go on to ones whose jobs are still what they were drawn for. -/
theorem Consistent.setDb {drawn : Drawn} (consistent : Consistent drawn s) {db : Database}
    (jobs : ∀ job ∈ db.jobs.rows, drawn.For (jobTask job)) (grows : Grows s.db db) :
    Consistent drawn { s with db } where
  jobs := jobs
  enqueued := consistent.enqueued
  unsent := consistent.unsent
  refreshes := consistent.refreshes
  tasks := consistent.tasks
  working k := (consistent.working k).mono grows

theorem Consistent.enqueue {drawn : Drawn} (consistent : Consistent drawn s) {args : TaskArgs}
    (forTask : drawn.For args) : Consistent drawn { s with enqueued := s.enqueued ++ [args] } where
  jobs := consistent.jobs
  enqueued other mem := by
    rcases List.mem_append.mp mem with old | new
    · exact consistent.enqueued other old
    · exact List.mem_singleton.mp new ▸ forTask
  unsent := consistent.unsent
  refreshes := consistent.refreshes
  tasks := consistent.tasks
  working := consistent.working

theorem Consistent.setUnsent {drawn : Drawn} (consistent : Consistent drawn s)
    {unsent : List TaskArgs} (forTasks : ∀ args ∈ unsent, drawn.For args) :
    Consistent drawn { s with unsent } where
  jobs := consistent.jobs
  enqueued := consistent.enqueued
  unsent := forTasks
  refreshes := consistent.refreshes
  tasks := consistent.tasks
  working := consistent.working

theorem Consistent.setRefreshes {drawn : Drawn} (consistent : Consistent drawn s)
    {refreshes : List Refresh} (inserted : ∀ r ∈ refreshes, ∀ job ∈ r.inserted,
      drawn.For (jobTask job) ∧ Pristine job) :
    Consistent drawn { s with refreshes } where
  jobs := consistent.jobs
  enqueued := consistent.enqueued
  unsent := consistent.unsent
  refreshes := inserted
  tasks := consistent.tasks
  working := consistent.working

theorem Consistent.jobs_setJob {drawn : Drawn} (consistent : Consistent drawn s) {id : Uuid}
    {old : IngestionJob} (job : IngestionJob) (was : jobRow id s.db = [old])
    (task : jobTask job = jobTask old) (row : IngestionJob)
    (mem : row ∈ (setJob job s.db).jobs.rows) : drawn.For (jobTask row) := by
  rcases mem_setJob mem with rfl | before
  · exact task ▸ consistent.jobs old (mem_of_jobRow was)
  · exact consistent.jobs row before

theorem jobs_append {drawn : Drawn} {db : Database} {rows : List IngestionJob}
    {table : Table IngestionJob IngestionJob.Clash}
    (forJobs : ∀ job ∈ db.jobs.rows, drawn.For (jobTask job))
    (appended : table.rows = db.jobs.rows ++ rows) (forRows : ∀ job ∈ rows, drawn.For (jobTask job))
    (job : IngestionJob) (mem : job ∈ table.rows) : drawn.For (jobTask job) := by
  rcases List.mem_append.mp (appended ▸ mem) with old | new
  · exact forJobs job old
  · exact forRows job new

theorem pristine_newJob (id : Uuid) (query : IngestionQuery) (limit : Nat) :
    Pristine (newJob id query limit) := ⟨rfl, rfl⟩

/-- One step keeps jobs, tasks and logs together, when it draws new identifiers. -/
theorem consistent_of_move {drawn : Drawn} (move : Moves s event t)
    (consistent : Consistent drawn s) (mirrors : Mirrors s.db)
    (free : ∀ id ∈ event.draws, drawn id = none) :
    ∃ next : Drawn, (∀ id, next id ≠ none → drawn id ≠ none ∨ id ∈ event.draws) ∧
      Consistent next t ∧ Mirrors t.db := by
  have same (id : Uuid) (known : drawn id ≠ none) : drawn id ≠ none ∨ id ∈ event.draws :=
    .inl known
  have updated (id : Uuid) (task : TaskArgs) (draws : id ∈ event.draws) (other : Uuid)
      (known : Function.update drawn id (some task) other ≠ none) :
      drawn other ≠ none ∨ other ∈ event.draws := by
    rcases eq_or_ne other id with rfl | different
    · exact .inr draws
    · rw [Function.update_of_ne different] at known
      exact .inl known
  cases move with
  | triggered tenantId body jobId jobs inserted =>
      have isNew := free jobId (List.mem_singleton_self jobId)
      have rows := (Table.insert_eq_some.mp inserted).2
      have after := consistent.update (body.task tenantId jobId) isNew
      have forNew := drawn.for_update (body.task tenantId jobId)
      refine ⟨_, updated jobId (body.task tenantId jobId) (List.mem_singleton_self jobId), ?_, ?_⟩
      · refine (after.setDb (jobs_append after.jobs rows ?_) (grows_append rows)).setUnsent ?_
        · intro job mem
          rw [List.mem_singleton.mp mem]
          exact forNew
        · intro args mem
          rcases List.mem_append.mp mem with old | new
          · exact after.unsent args old
          · obtain rfl := List.mem_singleton.mp new
            exact forNew
      · apply mirrors.append rows
        intro job mem
        rw [List.mem_singleton.mp mem]
        exact pristine_newJob ..
  | refused => exact ⟨drawn, same, consistent, mirrors⟩
  | sent i args others one =>
      have known : ∀ other ∈ args :: others, drawn.For other := fun other mem =>
        consistent.unsent other (one.mem_iff.mpr mem)
      refine ⟨drawn, same, ?_, mirrors⟩
      exact (consistent.setUnsent fun other mem => known other (List.mem_cons_of_mem _ mem)).enqueue
        (known args List.mem_cons_self)
  | dropped i others sub =>
      exact ⟨drawn, same, consistent.setUnsent fun args mem =>
        consistent.unsent args (sub.subset mem), mirrors⟩
  | submitted lists items =>
      exact ⟨drawn, same, consistent.setDb consistent.jobs
        ⟨fun job mem active => ⟨job, mem, rfl, active⟩, fun _ mem => mem⟩,
        ⟨mirrors.named, mirrors.counted, mirrors.ended⟩⟩
  | began queries perm =>
      refine ⟨drawn, same, consistent.setRefreshes fun r mem job inserted => ?_, mirrors⟩
      rcases List.mem_cons.mp mem with rfl | old
      · cases inserted
      · exact consistent.refreshes r old job inserted
  | queued i newId query rest inserted others one =>
      let job := newJob newId query refreshLimit
      have isNew := free newId (List.mem_singleton_self newId)
      have after := consistent.update (jobTask job) isNew
      have forNew : Drawn.For (Function.update drawn newId (some (jobTask job))) (jobTask job) :=
        drawn.for_update (jobTask job)
      refine ⟨_, updated newId (jobTask job) (List.mem_singleton_self newId), ?_, mirrors⟩
      apply (after.enqueue forNew).setRefreshes
      intro r mem row isInserted
      rcases List.mem_cons.mp mem with rfl | other
      · rcases List.mem_append.mp isInserted with old | new
        · exact after.refreshes _ (one.mem_iff.mpr List.mem_cons_self) row old
        · rw [List.mem_singleton.mp new]
          exact ⟨forNew, pristine_newJob ..⟩
      · exact after.refreshes r (one.mem_iff.mpr (List.mem_cons_of_mem _ other)) row isInserted
  | refreshed i newId inserted others one db committed =>
      obtain ⟨table, rfl, rows⟩ := insertJobs_eq_ok committed
      have known := consistent.refreshes _ (one.mem_iff.mpr List.mem_cons_self)
      refine ⟨drawn, same, ?_, mirrors.append rows fun job mem => (known job mem).2⟩
      refine (consistent.setDb (jobs_append consistent.jobs rows fun job mem => (known job mem).1)
        (grows_append rows)).setRefreshes fun r mem => ?_
      exact consistent.refreshes r (one.mem_iff.mpr (List.mem_cons_of_mem _ mem))
  | raised i newId others sub =>
      exact ⟨drawn, same, consistent.setRefreshes fun r mem =>
        consistent.refreshes r (sub.subset mem), mirrors⟩
  | abandoned i others sub =>
      exact ⟨drawn, same, consistent.setRefreshes fun r mem =>
        consistent.refreshes r (sub.subset mem), mirrors⟩
  | received k position attempt args mem =>
      refine ⟨drawn, same, consistent.setWorker k _ (fun other is => ?_) trivial, mirrors⟩
      obtain rfl := Option.some.inj is
      exact consistent.enqueued args mem
  | marked k args attempt stage job row =>
      let running : IngestionJob :=
        { job with status := .running, celeryTaskId := some attempt.celeryTaskId }
      have marked : markedRunning args attempt s.db = setJob running s.db := by
        rw [markedRunning, row]
      have active : running.status ≠ .queued := by simp [running]
      have grows : Grows s.db (setJob running s.db) := grows_setJob row rfl active
      have sameId : job.id = args.jobId := id_of_jobRow row
      have left : jobRow args.jobId (setJob running s.db) = [running] := jobRow_setJob row sameId
      rw [marked]
      refine ⟨drawn, same, ?_, ?_⟩
      · have jobs := consistent.jobs_setJob running row rfl
        refine (consistent.setDb jobs grows).setWorker k (.marked args attempt) (fun other is => ?_)
          ⟨running, mem_of_jobRow left, sameId, active⟩
        obtain rfl := Option.some.inj is
        exact consistent.tasks k args (by rw [stage]; rfl)
      · refine mirrors.setJob row rfl active (mirrors.counted job (mem_of_jobRow row)) fun ended => ?_
        rcases ended with completed | failed
        · cases completed
        · cases failed
  | logged k args attempt stage log db made =>
      have forTask := consistent.tasks k args (by rw [stage]; rfl)
      have working := consistent.working k
      rw [stage] at working
      obtain ⟨job, mem, sameId, active⟩ := working
      have task := (consistent.jobs job mem).jobTask_eq forTask sameId
      refine ⟨drawn, same, ?_, mirrors.logged made job mem task active⟩
      refine (consistent.setDb (fun row rowMem => consistent.jobs row (made.jobs ▸ rowMem))
        (grows_logged made)).setWorker k _ (fun other is => ?_) ?_
      · obtain rfl := Option.some.inj is
        exact forTask
      · exact ⟨made.logs ▸ List.mem_append_right _ (List.mem_singleton_self log), made.jobId,
          terminal_of_records made.records⟩
  | ended k args log stage job row =>
      have working := consistent.working k
      rw [stage] at working
      obtain ⟨mem, jobId, terminal⟩ := working
      have named : log.jobId = some (outcome job log).id :=
        jobId.trans (congrArg some (id_of_jobRow row).symm)
      have status : (outcome job log).status = log.status := by
        rcases terminal with completed | failed
        · simp [outcome, completed]
        · simp [outcome, failed]
      have active : (outcome job log).status ≠ .queued := by
        rw [status]
        rcases terminal with completed | failed
        · simp [completed]
        · simp [failed]
      have grows : Grows s.db (setJob (outcome job log) s.db) := grows_setJob row rfl active
      refine ⟨drawn, same, ?_, ?_⟩
      · have jobs := consistent.jobs_setJob (outcome job log) row rfl
        exact (consistent.setDb jobs grows).rest k
      · refine mirrors.setJob row rfl active (fun progress shows => ?_) fun _ => ?_
        · obtain rfl := Option.some.inj shows
          exact ⟨log, mem, named, rfl⟩
        · exact ⟨log, mem, named, status.symm, rfl⟩
  | gaveUp k => exact ⟨drawn, same, consistent.rest k, mirrors⟩
  | died k => exact ⟨drawn, same, consistent.rest k, mirrors⟩

/-- In every history that draws each job's identifier once, jobs mirror their logs: each log is
one of a committed job with its tenant and query that has left the queue; the counts a job shows
are those of a log of its own; and a job that completed or failed has a log that did, with the
counts it shows. -/
theorem jobs_mirror_logs (drawsOnce : (events.flatMap Event.draws).Nodup)
    (run : Run (Steps (upkeep str)) .empty events s) : Mirrors s.db := by
  let Inv (past : List Event) (s : Upkeep) : Prop := (past.flatMap Event.draws).Nodup →
    ∃ drawn : Drawn, (∀ id, drawn id ≠ none → id ∈ past.flatMap Event.draws) ∧
      Consistent drawn s ∧ Mirrors s.db
  have preserved (past : List Event) (s : Upkeep) (event : Event) (t : Upkeep) (inv : Inv past s)
      (step : upkeep str s event = some t) : Inv (past ++ [event]) t := by
    intro once
    rw [List.flatMap_append, List.flatMap_singleton, List.nodup_append] at once
    obtain ⟨drawn, known, consistent, mirrors⟩ := inv once.1
    have free (id : Uuid) (mem : id ∈ event.draws) : drawn id = none := by
      by_contra taken
      exact once.2.2 id (known id taken) id mem rfl
    obtain ⟨next, extended, consistentNext, mirrorsNext⟩ :=
      consistent_of_move (moves_of_step step) consistent mirrors free
    refine ⟨next, fun id taken => ?_, consistentNext, mirrorsNext⟩
    rw [List.flatMap_append, List.flatMap_singleton]
    exact List.mem_append.mpr ((extended id taken).imp_left (known id))
  have start : Inv [] .empty := fun _ =>
    ⟨fun _ => none, fun _ taken => absurd rfl taken,
      ⟨nofun, nofun, nofun, nofun, nofun, fun _ => trivial⟩, nofun, nofun, nofun⟩
  exact (run.invariant_trace Inv preserved start drawsOnce).elim fun _ holds => holds.2.2

/-- The job whose first worker died shows the outcome of the second one; the refreshed one waits. -/
theorem interrupted_mirrored : ∃ s, exec (upkeep fun _ => "") .empty interrupted = some s ∧
    Mirrors s.db ∧
    s.db.jobs.rows.map (fun job => (job.id, job.status)) = [(7, .failed), (8, .queued)] := by
  have shown : (exec (upkeep fun _ => "") .empty interrupted).map (fun s =>
      s.db.jobs.rows.map fun job => (job.id, job.status)) =
      some [(7, .failed), (8, .queued)] := by decide +kernel
  obtain ⟨s, computed, jobs⟩ := Option.map_eq_some_iff.mp shown
  exact ⟨s, computed, jobs_mirror_logs (by decide) (run_of_exec computed), jobs⟩

end TenantLibrary.Api
