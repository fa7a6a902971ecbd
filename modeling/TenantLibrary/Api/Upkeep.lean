import TenantLibrary.Api.Endpoints
import TenantLibrary.Ingestion.Transactions
import TenantLibrary.Store.Statements

/-!
From a request to the activity log (`trigger_ingestion`, `_refresh_all_catalogs_async`,
`_ingest_works_async`).

Requests, refreshes and workers take turns in any order, one transaction or one Redis command
at a time. A request commits its job before it enqueues the task. A refresh reads the queries
of the completed logs, inserts a job for each into one open transaction, enqueues its task
right after the insert, and commits at the end. A worker may receive any task that was ever
enqueued, also one that was received before. Whoever dies leaves what is committed and what is
enqueued. Of a submission only the tables it writes matter here.

`moves_of_step` says once what a step can do.
-/

namespace TenantLibrary.Api

open TenantLibrary.Lib TenantLibrary.OpenLibrary TenantLibrary.Store TenantLibrary.Ingestion
  TenantLibrary.JobQueue

/-! ### Tasks and queries -/

/-- The task of a job. -/
def jobTask (job : IngestionJob) : TaskArgs :=
  ⟨job.tenantId, job.id, job.queryType, job.queryValue⟩

def taskQuery (args : TaskArgs) : IngestionQuery :=
  ⟨args.tenantId, args.queryType, args.queryValue⟩

def logQuery (log : IngestionLog) : IngestionQuery :=
  ⟨log.tenantId, log.queryType, log.queryValue⟩

/-- `select(tenant_id, query_type, query_value).where(status == "completed").distinct()`. -/
def completedQueries (db : Database) : List IngestionQuery :=
  ((db.logs.rows.filter fun log => log.status = .completed).map logQuery).dedup

/-- Insert jobs into one transaction. -/
def insertJobs (jobs : List IngestionJob) (db : Database) : Except DbError Database :=
  sendAll (Write.send Refusal.never) (jobs.map .insertJob) db

/-! ### State -/

/-- A run of `_refresh_all_catalogs_async`: the queries it has left and the jobs in its
transaction. -/
structure Refresh where
  rest : List IngestionQuery
  inserted : List IngestionJob
deriving DecidableEq, Repr

/-- What is committed, the tasks ever enqueued, and who is at work. -/
structure Upkeep where
  db : Database
  enqueued : List TaskArgs
  /-- tasks of requests between their commit and their `enqueue_task_async` -/
  unsent : List TaskArgs
  refreshes : List Refresh
  workers : Nat → TaskStage

namespace Upkeep

/-- Nothing stored, nobody at work. -/
def empty : Upkeep := ⟨.empty, [], [], [], fun _ => .idle⟩

def setWorker (s : Upkeep) (k : Nat) (stage : TaskStage) : Upkeep :=
  { s with workers := Function.update s.workers k stage }

@[simp] theorem workers_setWorker (s : Upkeep) (k : Nat) (stage : TaskStage) :
    (s.setWorker k stage).workers k = stage := Function.update_self ..

theorem workers_setWorker_of_ne (s : Upkeep) {k j : Nat} (stage : TaskStage) (other : j ≠ k) :
    (s.setWorker k stage).workers j = s.workers j := Function.update_of_ne other ..

end Upkeep

/-! ### Steps -/

/-- What happens next. Requests and refreshes under way are numbered by their place in the
state, workers by a number of their own; identifiers are drawn with the step that needs them. -/
inductive Event where
  /-- the transaction of `trigger_ingestion` -/
  | trigger (tenantId : Uuid) (body : IngestionBody) (jobId : Uuid)
  /-- its `enqueue_task_async` -/
  | send (i : Nat)
  | drop (i : Nat)
  /-- a submission commits -/
  | submit (lists : Table ReadingList ReadingList.Clash)
      (items : Table ReadingListItem ReadingListItem.Clash)
  /-- a refresh begins; `distinct()` gives the queries in any order -/
  | refresh (queries : List IngestionQuery)
  /-- a round of a refresh, or its commit -/
  | round (i : Nat) (newId : Uuid)
  | abandon (i : Nat)
  /-- a worker receives the task enqueued at this position -/
  | receive (k : Nat) (position : Nat) (attempt : Attempt)
  /-- the next transaction of a worker -/
  | work (k : Nat)
  | die (k : Nat)

/-- The next round of a refresh, with the others. -/
def Refresh.round (s : Upkeep) (newId : Uuid) (others : List Refresh) (r : Refresh) : Upkeep :=
  match r.rest with
  | [] =>
      match insertJobs r.inserted s.db with
      | .ok db => { s with db, refreshes := others }
      | .error _ => { s with refreshes := others }
  | query :: rest =>
      let job := newJob newId query refreshLimit
      match insertJobs (r.inserted ++ [job]) s.db with
      | .ok _ => { s with
          enqueued := s.enqueued ++ [jobTask job]
          refreshes := ⟨rest, r.inserted ++ [job]⟩ :: others }
      | .error _ => { s with refreshes := others }

/-- One step; `none` when the event is not possible. -/
def upkeep (str : SessionError DbError Failure → String) (s : Upkeep) : Event → Option Upkeep
  | .trigger tenantId body jobId =>
      match (triggerIngestion tenantId body jobId).runOn (.opened s.db) with
      | (.ok _, u) => some { s with
          db := u.committed, unsent := s.unsent ++ [body.task tenantId jobId] }
      | (.error _, u) => some { s with db := u.committed }
  | .send i => s.unsent[i]?.map fun args =>
      { s with unsent := s.unsent.eraseIdx i, enqueued := s.enqueued ++ [args] }
  | .drop i => some { s with unsent := s.unsent.eraseIdx i }
  | .submit lists items => some { s with
      db := { s.db with readingLists := lists, readingListItems := items } }
  | .refresh queries =>
      if queries.Perm (completedQueries s.db) then
        some { s with refreshes := ⟨queries, []⟩ :: s.refreshes }
      else none
  | .round i newId => s.refreshes[i]?.map fun r => r.round s newId (s.refreshes.eraseIdx i)
  | .abandon i => some { s with refreshes := s.refreshes.eraseIdx i }
  | .receive k position attempt =>
      match s.workers k with
      | .idle => s.enqueued[position]?.map fun args => s.setWorker k (.received args attempt)
      | _ => none
  | .work k =>
      let next := (s.workers k).next str s.db
      some ({ s with db := next.2 }.setWorker k next.1)
  | .die k => some (s.setWorker k .idle)

/-- Jobs that are inserted are rows; nothing else changes. -/
theorem insertJobs_eq_ok {jobs : List IngestionJob} {db after : Database}
    (inserted : insertJobs jobs db = .ok after) :
    ∃ table, after = { db with jobs := table } ∧ table.rows = db.jobs.rows ++ jobs := by
  unfold insertJobs at inserted
  induction jobs generalizing db with
  | nil => exact ⟨db.jobs, (Except.ok.inj inserted).symm, (List.append_nil _).symm⟩
  | cons job rest ih =>
      obtain ⟨next, first, later⟩ := bind_eq_ok.mp inserted
      obtain ⟨_, _, stored⟩ := bind_eq_ok.mp first
      obtain ⟨one, accepted, made⟩ := bind_eq_ok.mp stored
      obtain rfl := Except.ok.inj made
      obtain ⟨table, rfl, rows⟩ := ih later
      refine ⟨table, rfl, ?_⟩
      rw [rows, (Table.insert_eq_some.mp (orUniqueViolation_eq_ok.mp accepted)).2]
      exact List.append_assoc ..

/-! ### What a step can do -/

/-- The effects of each event. -/
inductive Moves (s : Upkeep) : Event → Upkeep → Prop where
  | triggered (tenantId : Uuid) (body : IngestionBody) (jobId : Uuid)
      (jobs : Table IngestionJob IngestionJob.Clash)
      (inserted : s.db.jobs.insert (body.job tenantId jobId) = some jobs) :
      Moves s (.trigger tenantId body jobId)
        { s with db := { s.db with jobs }, unsent := s.unsent ++ [body.task tenantId jobId] }
  | refused (tenantId : Uuid) (body : IngestionBody) (jobId : Uuid) :
      Moves s (.trigger tenantId body jobId) s
  | sent (i : Nat) (args : TaskArgs) (others : List TaskArgs)
      (one : s.unsent.Perm (args :: others)) :
      Moves s (.send i) { s with unsent := others, enqueued := s.enqueued ++ [args] }
  | dropped (i : Nat) (others : List TaskArgs) (sub : others.Sublist s.unsent) :
      Moves s (.drop i) { s with unsent := others }
  | submitted (lists : Table ReadingList ReadingList.Clash)
      (items : Table ReadingListItem ReadingListItem.Clash) :
      Moves s (.submit lists items)
        { s with db := { s.db with readingLists := lists, readingListItems := items } }
  | began (queries : List IngestionQuery) (perm : queries.Perm (completedQueries s.db)) :
      Moves s (.refresh queries) { s with refreshes := ⟨queries, []⟩ :: s.refreshes }
  | queued (i : Nat) (newId : Uuid) (query : IngestionQuery) (rest : List IngestionQuery)
      (inserted : List IngestionJob) (others : List Refresh)
      (one : s.refreshes.Perm (⟨query :: rest, inserted⟩ :: others)) :
      Moves s (.round i newId) { s with
        enqueued := s.enqueued ++ [jobTask (newJob newId query refreshLimit)]
        refreshes := ⟨rest, inserted ++ [newJob newId query refreshLimit]⟩ :: others }
  | refreshed (i : Nat) (newId : Uuid) (inserted : List IngestionJob) (others : List Refresh)
      (one : s.refreshes.Perm (⟨[], inserted⟩ :: others)) (db : Database)
      (committed : insertJobs inserted s.db = .ok db) :
      Moves s (.round i newId) { s with db, refreshes := others }
  | raised (i : Nat) (newId : Uuid) (others : List Refresh) (sub : others.Sublist s.refreshes) :
      Moves s (.round i newId) { s with refreshes := others }
  | abandoned (i : Nat) (others : List Refresh) (sub : others.Sublist s.refreshes) :
      Moves s (.abandon i) { s with refreshes := others }
  | received (k position : Nat) (attempt : Attempt) (args : TaskArgs) (mem : args ∈ s.enqueued) :
      Moves s (.receive k position attempt) (s.setWorker k (.received args attempt))
  | marked (k : Nat) (args : TaskArgs) (attempt : Attempt)
      (stage : s.workers k = .received args attempt)
      (job : IngestionJob) (row : jobRow args.jobId s.db = [job]) :
      Moves s (.work k) ({ s with
        db := markedRunning args attempt s.db }.setWorker k (.marked args attempt))
  | logged (k : Nat) (args : TaskArgs) (attempt : Attempt)
      (stage : s.workers k = .marked args attempt)
      (log : IngestionLog) (db : Database) (made : Logged args attempt s.db log db) :
      Moves s (.work k) ({ s with db }.setWorker k (.ingested args log))
  | ended (k : Nat) (args : TaskArgs) (log : IngestionLog)
      (stage : s.workers k = .ingested args log)
      (job : IngestionJob) (row : jobRow args.jobId s.db = [job]) :
      Moves s (.work k) ({ s with db := setJob (outcome job log) s.db }.setWorker k .idle)
  | gaveUp (k : Nat) : Moves s (.work k) (s.setWorker k .idle)
  | died (k : Nat) : Moves s (.die k) (s.setWorker k .idle)

section Steps

variable {str : SessionError DbError Failure → String} {s t : Upkeep}

theorem perm_of_getElem? {α : Type} {as : List α} {i : Nat} {a : α} (at_ : as[i]? = some a) :
    as.Perm (a :: as.eraseIdx i) := by
  obtain ⟨bound, rfl⟩ := List.getElem?_eq_some_iff.mp at_
  exact (List.getElem_cons_eraseIdx_perm bound).symm

/-- The transaction of a request inserts its job or leaves the database as it was. -/
theorem runOn_triggerIngestion (tenantId : Uuid) (body : IngestionBody) (jobId : Uuid)
    (db : Database) :
    (∃ response jobs, db.jobs.insert (body.job tenantId jobId) = some jobs ∧
      (triggerIngestion tenantId body jobId).runOn (.opened db) =
        (.ok response, .opened { db with jobs })) ∨
    ∃ e u, (triggerIngestion tenantId body jobId).runOn (.opened db) = (.error e, u) ∧
      u.committed = db := by
  let job := body.job tenantId jobId
  have added : SessionM.runOn (SessionM.add (.insertJob job) : IngestM Unit) (.opened db) =
      (.ok (), ⟨db, db, [.insertJob job], false⟩) := rfl
  have committed := @SessionM.runOn_commit Database Write DbError Failure (Write.send Refusal.never)
    ⟨db, db, [.insertJob job], false⟩ rfl
  cases sent : sendAll (Write.send Refusal.never) [.insertJob job] db with
  | error e =>
      dsimp only at committed
      rw [sent] at committed
      exact .inr ⟨_, _,
        (SessionM.runOn_bind_ok added).trans (SessionM.runOn_bind_error committed), rfl⟩
  | ok after =>
      dsimp only at committed
      rw [sent] at committed
      obtain ⟨_, first, made⟩ := bind_eq_ok.mp sent
      obtain rfl := Except.ok.inj made
      obtain ⟨_, _, stored⟩ := bind_eq_ok.mp first
      obtain ⟨jobs, inserted, made⟩ := bind_eq_ok.mp stored
      obtain rfl := Except.ok.inj made
      exact .inl ⟨_, jobs, orUniqueViolation_eq_ok.mp inserted,
        (SessionM.runOn_bind_ok added).trans (SessionM.runOn_bind_ok committed)⟩

theorem moves_of_round {i : Nat} {newId : Uuid} {r : Refresh} (at_ : s.refreshes[i]? = some r) :
    Moves s (.round i newId) (r.round s newId (s.refreshes.eraseIdx i)) := by
  have one := perm_of_getElem? at_
  have sub := List.eraseIdx_sublist s.refreshes i
  obtain ⟨rest, inserted⟩ := r
  cases rest with
  | nil =>
      unfold Refresh.round
      dsimp only
      split
      case h_1 db committed => exact .refreshed i newId inserted _ one db committed
      case h_2 => exact .raised i newId _ sub
  | cons query rest =>
      unfold Refresh.round
      dsimp only
      split
      · exact .queued i newId query rest inserted _ one
      · exact .raised i newId _ sub

theorem moves_of_work (k : Nat) (stage : TaskStage) (is : s.workers k = stage) :
    Moves s (.work k)
      ({ s with db := (stage.next str s.db).2 }.setWorker k (stage.next str s.db).1) := by
  cases stage with
  | idle => exact .gaveUp k
  | received args attempt =>
      rcases next_received str args attempt s.db with ⟨job, row, next⟩ | ⟨_, next⟩
      · rw [next]
        exact .marked k args attempt is job row
      · rw [next]
        exact .gaveUp k
  | marked args attempt =>
      rcases next_marked str args attempt s.db with ⟨log, db, next, made⟩ | next
      · rw [next]
        exact .logged k args attempt is log db made
      · rw [next]
        exact .gaveUp k
  | ingested args log =>
      rcases next_ingested str args log s.db with ⟨job, row, next⟩ | ⟨_, next⟩
      · rw [next]
        exact .ended k args log is job row
      · rw [next]
        exact .gaveUp k

/-- Every step is one of the moves. -/
theorem moves_of_step {event : Event} (step : upkeep str s event = some t) : Moves s event t := by
  cases event with
  | trigger tenantId body jobId =>
      rcases runOn_triggerIngestion tenantId body jobId s.db with
        ⟨response, jobs, inserted, ran⟩ | ⟨e, u, ran, base⟩
      · simp only [upkeep, ran] at step
        obtain rfl := Option.some.inj step
        exact .triggered tenantId body jobId jobs inserted
      · simp only [upkeep, ran, base] at step
        obtain rfl := Option.some.inj step
        exact .refused tenantId body jobId
  | send i =>
      obtain ⟨args, at_, rfl⟩ := Option.map_eq_some_iff.mp step
      exact .sent i args _ (perm_of_getElem? at_)
  | drop i =>
      obtain rfl := Option.some.inj step
      exact .dropped i _ (List.eraseIdx_sublist ..)
  | submit lists items =>
      obtain rfl := Option.some.inj step
      exact .submitted lists items
  | refresh queries =>
      rw [upkeep] at step
      split at step
      case isTrue perm =>
        obtain rfl := Option.some.inj step
        exact .began queries perm
      case isFalse => cases step
  | round i newId =>
      obtain ⟨r, at_, rfl⟩ := Option.map_eq_some_iff.mp step
      exact moves_of_round at_
  | abandon i =>
      obtain rfl := Option.some.inj step
      exact .abandoned i _ (List.eraseIdx_sublist ..)
  | receive k position attempt =>
      rw [upkeep] at step
      split at step
      case h_1 =>
        obtain ⟨args, at_, rfl⟩ := Option.map_eq_some_iff.mp step
        exact .received k position attempt args (List.mem_of_getElem? at_)
      case h_2 => cases step
  | work k =>
      obtain rfl := Option.some.inj step
      exact moves_of_work k _ rfl
  | die k =>
      obtain rfl := Option.some.inj step
      exact .died k

end Steps

end TenantLibrary.Api
