import TenantLibrary.JobQueue.Payload

/-!
The job table and the task queues (`trigger_ingestion`, `_refresh_all_catalogs_async`,
`dispatch_fair_batch`, `_ingest_works_async`).

Any number of producers, dispatchers and workers take their steps in any order.
`trigger_ingestion` commits its job and then enqueues the payload.
`_refresh_all_catalogs_async` inserts the job of one query after the other into one open
transaction, enqueues each payload right after its insert, and commits at the end. A
producer can fail between any two of its steps; what it has not committed is rolled back.

A dispatcher sends its Redis commands as the fair queue's model has them; it runs inside
a worker, and its `send_task` can raise. A worker takes a message, calls `ingest_works` with
the message's arguments, marks the job running, and later writes the outcome.
Of the row only what the producers write and the status is followed here.
-/

namespace TenantLibrary.JobQueue

open TenantLibrary.Lib TenantLibrary.Store TenantLibrary.FairQueue

/-! ### Producers, workers and their shared state -/

/-- What an ingestion is asked for. -/
structure IngestionQuery where
  tenantId : Uuid
  queryType : QueryType
  queryValue : String
deriving DecidableEq, Repr

/-- The job both producers add. -/
def newJob (id : Uuid) (query : IngestionQuery) (limit : Nat) : IngestionJob where
  id := id
  tenantId := query.tenantId
  celeryTaskId := none
  queryType := query.queryType
  queryValue := query.queryValue
  limit := limit
  status := .queued
  progress := none
  errorMessage := none

/-- The limit of a refresh. -/
def refreshLimit : Nat := 50

/-- Where a producer stands. -/
inductive Producer where
  | idle
  /-- `trigger_ingestion` before its commit -/
  | triggering (query : IngestionQuery) (limit : Nat)
  /-- `trigger_ingestion` between its commit and its `enqueue_task_async` -/
  | triggered (job : IngestionJob)
  /-- `_refresh_all_catalogs_async` at the head of its loop, with the rows of its
  transaction -/
  | refreshing (rest : List IngestionQuery) (inserted : List IngestionJob)
  /-- between the flush of a job and its `enqueue_task` -/
  | flushed (job : IngestionJob) (rest : List IngestionQuery) (inserted : List IngestionJob)
deriving DecidableEq, Repr

/-- Where a worker stands. -/
inductive Worker where
  | free
  | received (payload : Payload Dict)
  /-- the job is marked running -/
  | ingesting (payload : Payload Dict) (jobId : Uuid)

/-- The payload in a worker's hands. -/
def Worker.inHand : Worker → List (Payload Dict)
  | .free => []
  | .received payload => [payload]
  | .ingesting payload _ => [payload]

/-- The job a worker ingests for. -/
def Worker.jobId : Worker → Option Uuid
  | .ingesting _ jobId => some jobId
  | _ => none

/-- How an attempt ends after the job was marked running: with the status written to the
job, or with an exception, after which the handler may or may not have reached the row. -/
inductive Ending where
  | returned (status : Status) (terminal : status = .completed ∨ status = .failed)
  | raised (marked again : Bool)
deriving DecidableEq

/-- The committed rows, the queues, and everybody's local state. The dispatcher inside
`world` is the one that has just taken a step. -/
structure System where
  jobs : Table IngestionJob IngestionJob.Clash
  world : World Dict
  producers : Nat → Producer
  dispatchers : Nat → Dispatcher Dict
  workers : Nat → Worker

namespace System

def empty : System where
  jobs := .empty
  world := .empty
  producers _ := .idle
  dispatchers _ := .idle
  workers _ := .free

def setProducer (s : System) (k : Nat) (producer : Producer) : System :=
  { s with producers := Function.update s.producers k producer }

def setWorker (s : System) (k : Nat) (worker : Worker) : System :=
  { s with workers := Function.update s.workers k worker }

@[simp] theorem producers_setProducer (s : System) (k : Nat) (producer : Producer) :
    (s.setProducer k producer).producers k = producer := Function.update_self ..

theorem producers_setProducer_of_ne (s : System) {k j : Nat} (producer : Producer) (other : j ≠ k) :
    (s.setProducer k producer).producers j = s.producers j := Function.update_of_ne other ..

@[simp] theorem workers_setWorker (s : System) (k : Nat) (worker : Worker) :
    (s.setWorker k worker).workers k = worker := Function.update_self ..

theorem workers_setWorker_of_ne (s : System) {k j : Nat} (worker : Worker) (other : j ≠ k) :
    (s.setWorker k worker).workers j = s.workers j := Function.update_of_ne other ..

end System

/-! ### Steps -/

/-- Set the status of one job. -/
def withStatus (id : Uuid) (status : Status) (row : IngestionJob) : IngestionJob :=
  if row.id = id then { row with status } else row

@[simp] theorem withStatus_id (id : Uuid) (status : Status) (row : IngestionJob) :
    (withStatus id status row).id = row.id := by
  unfold withStatus
  split <;> rfl

theorem clash_of_withStatus {id : Uuid} {status : Status} (a b : IngestionJob)
    (clash : (withStatus id status a).Clash (withStatus id status b)) : a.Clash b := by
  simpa [IngestionJob.Clash] using clash

def setStatus (id : Uuid) (status : Status) (jobs : Table IngestionJob IngestionJob.Clash) :
    Table IngestionJob IngestionJob.Clash :=
  jobs.modify (withStatus id status) clash_of_withStatus

/-- Insert rows in order; `none` when one violates the primary key. -/
def insertAll (jobs : Table IngestionJob IngestionJob.Clash) (rows : List IngestionJob) :
    Option (Table IngestionJob IngestionJob.Clash) :=
  rows.foldlM (fun jobs row => jobs.insert row) jobs

/-- The payload of a job goes to its tenant's queue. -/
def enqueueJob (codec : Codec Dict) (world : World Dict) (job : IngestionJob) : World Dict :=
  let tenantId := uuidText job.tenantId
  { world with
    redis := enqueueTask codec world.redis tenantId ingestWorksName (ingestKwargs job)
    enqueued := Function.update world.enqueued tenantId
      (world.enqueued tenantId ++ [payloadOf job]) }

/-- The next step of a producer; `newId` is the id drawn if it inserts a job. An insert
that the primary key refuses raises and ends the producer. -/
def produce (codec : Codec Dict) (s : System) (k : Nat) (newId : Uuid) : Option System :=
  match s.producers k with
  | .idle => none
  | .triggering query limit =>
      match s.jobs.insert (newJob newId query limit) with
      | none => some (s.setProducer k .idle)
      | some jobs =>
          some ({ s with jobs }.setProducer k (.triggered (newJob newId query limit)))
  | .triggered job =>
      some ({ s with world := enqueueJob codec s.world job }.setProducer k .idle)
  | .refreshing [] inserted =>
      match insertAll s.jobs inserted with
      | none => some (s.setProducer k .idle)
      | some jobs => some ({ s with jobs }.setProducer k .idle)
  | .refreshing (query :: rest) inserted =>
      let job := newJob newId query refreshLimit
      match insertAll s.jobs (inserted ++ [job]) with
      | none => some (s.setProducer k .idle)
      | some _ => some (s.setProducer k (.flushed job rest (inserted ++ [job])))
  | .flushed job rest inserted =>
      some ({ s with world := enqueueJob codec s.world job }.setProducer k
        (.refreshing rest inserted))

/-- What a dispatcher sees: the shared state, and where it stands itself. -/
abbrev asSeen (s : System) (d : Nat) : World Dict :=
  { s.world with dispatcher := s.dispatchers d }

/-- A dispatcher has taken a step. -/
def System.setDispatcher (s : System) (d : Nat) (world : World Dict) : System :=
  { s with world, dispatchers := Function.update s.dispatchers d world.dispatcher }

theorem asSeen_setDispatcher (s : System) (d : Nat) (world : World Dict) :
    asSeen (s.setDispatcher d world) d = world := by
  simp [asSeen, System.setDispatcher]

theorem setDispatcher_setDispatcher (s : System) (d : Nat) (v w : World Dict) :
    (s.setDispatcher d v).setDispatcher d w = s.setDispatcher d w := by
  simp [System.setDispatcher]

/-- The next command of a dispatcher. -/
def dispatch (codec : Codec Dict) (s : System) (d : Nat) : System :=
  s.setDispatcher d (dispatchStep codec (asSeen s d))

/-- A message goes back to the Celery queue, or is dropped after the last retry. -/
def republish (world : World Dict) (again : Bool) (payload : Payload Dict) :
    World Dict :=
  if again then { world with celery := world.celery ++ [payload] } else world

/-- A worker reads its message's arguments, looks the job up and marks it running. Arguments
`ingest_works` does not take raise a `TypeError` or `ValueError`; where the row is not there,
`scalar_one` raises, in the handler as well. -/
def begin (s : System) (k : Nat) (again : Bool) : Option System :=
  match s.workers k with
  | .received payload =>
      match callOf payload with
      | none => some (s.setWorker k .free)
      | some kwargs =>
          if s.jobs.rows.any (·.id = kwargs.jobId) then
            some ({ s with jobs := setStatus kwargs.jobId .running s.jobs }.setWorker k
              (.ingesting payload kwargs.jobId))
          else some ({ s with world := republish s.world again payload }.setWorker k .free)
  | _ => none

/-- An attempt ends. -/
def finish (s : System) (k : Nat) (ending : Ending) : Option System :=
  match s.workers k, ending with
  | .ingesting _ jobId, .returned status _ =>
      some ({ s with jobs := setStatus jobId status s.jobs }.setWorker k .free)
  | .ingesting payload jobId, .raised marked again =>
      let jobs := if marked then setStatus jobId .failed s.jobs else s.jobs
      some ({ s with jobs, world := republish s.world again payload }.setWorker k .free)
  | _, _ => none

/-- What can happen next. Producers, dispatchers and workers are numbered; whether a
retry is left is part of the action. -/
inductive Action where
  | trigger (k : Nat) (query : IngestionQuery) (limit : Nat)
  | refresh (k : Nat) (queries : List IngestionQuery)
  | produce (k : Nat) (newId : Uuid)
  | producerFails (k : Nat)
  | dispatch (d : Nat)
  | sendRaises (d : Nat)
  | lockExpires
  | receive (k : Nat)
  | begin (k : Nat) (again : Bool)
  | finish (k : Nat) (ending : Ending)
deriving DecidableEq

/-- One step of the system; `none` when the action is not possible. A job's id has 128 bits. -/
def step (codec : Codec Dict) (s : System) : Action → Option System
  | .trigger k query limit =>
      if s.producers k = .idle then some (s.setProducer k (.triggering query limit)) else none
  | .refresh k queries =>
      if s.producers k = .idle then some (s.setProducer k (.refreshing queries [])) else none
  | .produce k newId => if newId < uuidBound then produce codec s k newId else none
  | .producerFails k =>
      if s.producers k = .idle then none else some (s.setProducer k .idle)
  | .dispatch d => some (dispatch codec s d)
  | .sendRaises d => (FairQueue.step codec (asSeen s d) .sendRaises).map (s.setDispatcher d)
  | .lockExpires =>
      some { s with world := { s.world with redis := s.world.redis.del dispatchLockKey } }
  | .receive k =>
      match s.workers k, s.world.celery with
      | .free, payload :: rest =>
          some ({ s with world := { s.world with celery := rest } }.setWorker k
            (.received payload))
      | _, _ => none
  | .begin k again => begin s k again
  | .finish k ending => finish s k ending

end TenantLibrary.JobQueue
